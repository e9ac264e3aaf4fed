import ZeroStack.TwoPhase.Protocol

/-! What the gate produces, its validators accept: the record of every permit and of every receipt. -/

open Wire Zero.Reasoning Zero.SemanticCut Zero.Quality Zero.RobustSnap

namespace Zero.TwoPhase

section Admission
variable {sha256 : List UInt8 → Sha256Digest} {contractDigest : Sha256Digest} {r : PrepareRequest}

structure Canonical (sha256 : List UInt8 → Sha256Digest) (r : PrepareRequest) : Prop where
  schema : r.binding.schemaVersion = twoPhaseSchemaVersion
  live : ∀ d ∈ [r.binding.assemblyManifestDigest, r.binding.sourceTreeDigest, r.binding.imageDigest,
    r.binding.stateSnapshotDigest, r.binding.taskFingerprintDigest, r.binding.planDigest, r.binding.fixedModelDigest,
    r.binding.baselineReasoningContractDigest, r.binding.reasoningContractDigest, r.binding.comparisonIdentityDigest,
    r.binding.semanticCutVerifierIdentityDigest, r.binding.predecessorReceiptHead,
    r.evidence.artifacts.artifactSetDigest], isZero d = false
  reasoning : reasoningFieldsValid sha256 r.binding.baselineReasoningContract r.binding.reasoningContract
    r.binding.baselineReasoningContractDigest r.binding.reasoningContractDigest r.binding.fixedModelDigest
    r.evidence.reasoningAdmission = true

theorem canonical_of_validateG0 (h : validateG0 sha256 r = .ok ()) : Canonical sha256 r := by
  obtain ⟨hschema, h⟩ := guard_eq_ok.mp h
  obtain ⟨hlive, h⟩ := guard_eq_ok.mp h
  obtain ⟨hreasoning, -⟩ := guard_eq_ok.mp h
  refine ⟨not_not.mp hschema, fun d hd => ?_, ?_⟩
  · simp only [List.any_eq_true, not_exists, not_and, Bool.not_eq_true] at hlive
    exact hlive d hd
  · simpa using hreasoning

structure Attributed (sha256 : List UInt8 → Sha256Digest) (r : PrepareRequest) : Prop where
  valid : r.evidence.semanticCut.validate sha256 = .ok ()
  live : isZero r.evidence.semanticCut.certificateDigest = false
  root : r.evidence.semanticCut.claim.inputProjectControlRoot = r.binding.stateSnapshotDigest
  plan : r.evidence.semanticCut.claim.compiledPlanDigest = r.binding.planDigest
  model : r.evidence.semanticCut.claim.fixedModelDigest = r.binding.fixedModelDigest
  contract : r.evidence.semanticCut.claim.reasoningContractDigest = r.binding.reasoningContractDigest
  comparison : r.evidence.semanticCut.claim.comparisonIdentityDigest = r.binding.comparisonIdentityDigest
  scope : r.evidence.semanticCut.claim.certificateScopeDigest = r.binding.taskFingerprintDigest
  verifier : r.evidence.semanticCut.verifierIdentityDigest = r.binding.semanticCutVerifierIdentityDigest

theorem attributed_of_validateG3 (h : validateG3 sha256 r = .ok ()) : Attributed sha256 r := by
  unfold validateG3 at h
  dsimp only at h
  cases hvalid : r.evidence.semanticCut.validate sha256 with
  | error e =>
    rw [hvalid] at h
    cases h
  | ok u =>
    rw [hvalid] at h
    obtain ⟨hbinds, -⟩ := guard_eq_ok.mp h
    simp only [not_or, not_not, Bool.not_eq_true] at hbinds
    obtain ⟨hlive, hroot, hplan, hmodel, hcontract, hcomparison, hscope, hverifier⟩ := hbinds
    exact ⟨hvalid, hlive, hroot, hplan, hmodel, hcontract, hcomparison, hscope, hverifier⟩

theorem envelope_of_validateG4 (h : validateG4 r = .ok ()) : r.envelope.hasZero = false := by
  obtain ⟨hbounds, -⟩ := guard_eq_ok.mp h
  simpa using fun hzero => hbounds (Or.inl hzero)

theorem snap_of_validateG5 (h : validateG5 sha256 r = .ok ()) :
    ∀ d ∈ r.evidence.snap.certificateDigest, ∃ bytes, sha256 bytes = d := by
  intro d hd
  unfold validateG5 at h
  cases hsnap : r.evidence.snap with
  | notClaimed =>
    rw [hsnap] at hd
    cases hd
  | verified certificate =>
    rw [hsnap] at h hd
    cases hvalid : certificate.validate sha256 with
    | error e =>
      simp only [hvalid] at h
      cases h
    | ok u =>
      have hdigest := RobustSnapCertificate.digest_of_validate hvalid
      exact ⟨_, hdigest.trans (Option.some.inj hd)⟩

theorem shield_of_validateG6 (h : validateG6 sha256 r = .ok ()) :
    isZero r.evidence.safetyShield.shieldDigest = false := by
  obtain ⟨hshield, -⟩ := guard_eq_ok.mp h
  simpa using fun hzero => hshield (Or.inl hzero)

structure Measured (sha256 : List UInt8 → Sha256Digest) (contractDigest : Sha256Digest) (r : PrepareRequest) :
    Prop where
  valid : r.evidence.performance.validate sha256 = .ok ()
  comparison : r.evidence.performance.comparisonIdentityDigest = r.binding.comparisonIdentityDigest
  scope : r.evidence.performance.evidenceClass = .distributional ∨
    r.evidence.performance.scopeDigest = r.binding.taskFingerprintDigest
  candidate : namesCandidate r.evidence.performance.evidenceClass = true →
    r.evidence.performance.candidateIdentityDigest = some (candidateProtocolIdentity sha256 contractDigest r.binding)

theorem measured_of_validateG7 (h : validateG7 sha256 contractDigest r = .ok ()) :
    Measured sha256 contractDigest r := by
  unfold validateG7 at h
  dsimp only at h
  cases hvalid : r.evidence.performance.validate sha256 with
  | error e =>
    rw [hvalid] at h
    cases h
  | ok u =>
    rw [hvalid] at h
    obtain ⟨hbinds, h⟩ := guard_eq_ok.mp h
    obtain ⟨hcandidate, -⟩ := guard_eq_ok.mp h
    simp only [not_or, not_and, not_not] at hbinds hcandidate
    refine ⟨hvalid, hbinds.1, ?_, hcandidate⟩
    by_cases hclass : r.evidence.performance.evidenceClass = .distributional
    · exact Or.inl hclass
    · exact Or.inr (hbinds.2 hclass)

end Admission

structure Closes (r : PrepareRequest) (closure : TransactionClosure) (failure : Option FailureCode) : Prop where
  root : isZero closure.root = false
  transaction : isZero closure.transactionReceiptDigest = false
  deoptimization : closure.deoptimizationExecutionReceiptDigest.any isZero = false
  debt : closure.restoration.debt = 0
  commit : closure.kind = .commit → failure = none ∧ closure.deoptimizationExecutionReceiptDigest = none ∧
    closure.restoration = {} ∧ r.evidence.performance.selection = .candidate
  fallback : closure.kind = .fallback → closure.deoptimizationExecutionReceiptDigest ≠ none ∧
    closure.restoration.completed = closure.restoration.attempted

theorem closes_of_validateClosure {sha256 : List UInt8 → Sha256Digest} {x : BrokeredExecution}
    {closure : TransactionClosure} {failure : Option FailureCode}
    (h : validateClosure sha256 x closure failure = .ok ()) : Closes x.request closure failure := by
  obtain ⟨hclosed, h⟩ := guard_eq_ok.mp h
  simp only [not_or, not_not, Bool.not_eq_true] at hclosed
  obtain ⟨hroot, htransaction, -, -, -, hdebt, hdeoptimization, -, -⟩ := hclosed
  refine ⟨hroot, htransaction, hdeoptimization, hdebt, fun hkind => ?_, fun hkind => ?_⟩
  · rw [hkind] at h
    obtain ⟨hcommit, -⟩ := guard_eq_ok.mp h
    simp only [not_or, not_not, Option.not_isSome_iff_eq_none] at hcommit
    obtain ⟨hfailure, hnone, -, -, hrestoration, -, -, -, -, hselection⟩ := hcommit
    exact ⟨hfailure, hnone, hrestoration, hselection⟩
  · rw [hkind] at h
    obtain ⟨hfallback, -⟩ := guard_eq_ok.mp h
    simp only [not_or, not_not] at hfallback
    obtain ⟨hsome, -, -, -, hcompleted, -, -⟩ := hfallback
    exact ⟨hsome, hcompleted⟩

/-- The digests of a permit's record that `prepare` computes itself. -/
def PermitRecord.computed (p : PermitRecord) : List Sha256Digest := [p.bindingDigest, p.admissionDigest]

/-- The digests of a receipt's record that are computed by `prepare` and `finalize`, or by a certificate's producer. -/
def ReceiptRecord.computed (r : ReceiptRecord) : List Sha256Digest :=
  [r.permitId, r.bindingDigest, r.admissionDigest, r.terminalRcqIdentityDigest, r.outputDigest, r.effectsDigest,
    r.traceDigest, r.receiptHead] ++ r.snapCertificateDigest.toList

def Hashed (sha256 : List UInt8 → Sha256Digest) (digests : List Sha256Digest) : Prop :=
  ∀ d ∈ digests, ∃ message, sha256 message = d

section Records
variable {sha256 : List UInt8 → Sha256Digest} {contractDigest : Sha256Digest} {r : PrepareRequest}

theorem Hashed.ne_zero {digests : List Sha256Digest} (h : Hashed sha256 digests)
    (hsha : ∀ bytes, sha256 bytes ≠ Sha256Digest.zero) : ∀ d ∈ digests, d ≠ Sha256Digest.zero := by
  intro d hd
  obtain ⟨message, rfl⟩ := h d hd
  exact hsha message

theorem hashed_permit (r : PrepareRequest) : Hashed sha256 ((permitOf sha256 r).record sha256).computed := by
  unfold Hashed PermitRecord.computed
  simp only [List.forall_mem_cons]
  exact ⟨⟨_, rfl⟩, ⟨_, rfl⟩, fun d hd => absurd hd List.not_mem_nil⟩

theorem Admitted.permit_valid_iff (h : Admitted sha256 contractDigest r) :
    validatePermitRecord sha256 ((permitOf sha256 r).record sha256) = .ok () ↔
      ∀ d ∈ ((permitOf sha256 r).record sha256).computed, d ≠ Sha256Digest.zero := by
  have hlive : (∀ d ∈ ((permitOf sha256 r).record sha256).computed, d ≠ Sha256Digest.zero) ↔
      ¬(isZero (r.binding.digest sha256) || isZero (r.admissionDigest sha256)) = true := by
    simp only [← isZero_eq_false, PermitRecord.computed, List.forall_mem_cons, Bool.or_eq_true, not_or,
      Bool.not_eq_true]
    exact ⟨fun h => ⟨h.1, h.2.1⟩, fun h => ⟨h.1, h.2, fun d hd => absurd hd List.not_mem_nil⟩⟩
  rw [hlive]
  constructor
  · intro hvalid
    obtain ⟨-, hvalid⟩ := guard_eq_ok.mp hvalid
    obtain ⟨_, -, hvalid⟩ := bind_eq_ok.mp hvalid
    obtain ⟨-, hvalid⟩ := guard_eq_ok.mp hvalid
    exact (guard_eq_ok.mp hvalid).1
  · intro hlive
    refine guard_eq_ok.mpr ⟨not_not.mpr rfl, bind_ok rfl ?_⟩
    refine guard_eq_ok.mpr ⟨not_not.mpr rfl, guard_eq_ok.mpr ⟨hlive, ?_⟩⟩
    exact guard_eq_ok.mpr ⟨h.session, guard_eq_ok.mpr ⟨h.epoch, guard_eq_ok.mpr ⟨not_not.mpr rfl, rfl⟩⟩⟩

structure Finishes (sha256 : List UInt8 → Sha256Digest) (r : PrepareRequest) (ready : ReadyToFinalize) : Prop where
  request : ready.request = r
  permit : ∃ message, sha256 message = ready.permitId
  verified : ready.verificationDigest.any isZero = false
  closes : Closes r ready.closure ready.trace.executionFailure

def ReadyToFinalize.record (sha256 : List UInt8 → Sha256Digest) (ready : ReadyToFinalize) : ReceiptRecord :=
  (ready.common sha256).record sha256 ready.closure.kind.receiptKind

theorem Finishes.closureValid {ready : ReadyToFinalize} (hready : Finishes sha256 ready.request ready) :
    (ready.record sha256).closureValid = true := by
  have hrecord : (ready.record sha256).kind = ready.closure.kind.receiptKind := rfl
  unfold ReceiptRecord.closureValid
  rw [hrecord]
  cases hkind : ready.closure.kind with
  | commit =>
    obtain ⟨hfailure, hnone, hrestoration, -⟩ := hready.closes.commit hkind
    show (ready.closure.deoptimizationExecutionReceiptDigest.isNone && ready.trace.executionFailure.isNone &&
      decide (ready.closure.restoration = {})) = true
    rw [hnone, hfailure, hrestoration]
    rfl
  | fallback =>
    obtain ⟨hsome, hcompleted⟩ := hready.closes.fallback hkind
    show (ready.closure.deoptimizationExecutionReceiptDigest.isSome && decide (ready.closure.restoration.debt = 0) &&
      decide (Numeric.checkedAdd ready.closure.restoration.completed ready.closure.restoration.debt =
        some ready.closure.restoration.attempted)) = true
    rw [hready.closes.debt, hcompleted, Numeric.checkedAdd_zero, Option.isSome_iff_ne_none.mpr hsome]
    simp

section Ready
variable {ready : ReadyToFinalize} (h : Admitted sha256 contractDigest ready.request)
include h

theorem Admitted.record_binding : (ready.record sha256).binding = ready.request.binding := by
  have hschema := (canonical_of_validateG0 h.g0).schema
  show { ready.request.binding with schemaVersion := twoPhaseSchemaVersion } = ready.request.binding
  rw [← hschema]

theorem Admitted.hashed_receipt (hready : Finishes sha256 ready.request ready) :
    Hashed sha256 (ready.record sha256).computed := by
  unfold Hashed ReceiptRecord.computed
  simp only [List.forall_mem_append, List.forall_mem_cons]
  refine ⟨⟨hready.permit, ⟨_, rfl⟩, ⟨_, rfl⟩, ⟨_, rfl⟩, ⟨_, rfl⟩, ⟨_, rfl⟩, ⟨_, rfl⟩, ⟨_, rfl⟩,
    fun d hd => absurd hd List.not_mem_nil⟩, fun d hd => ?_⟩
  exact snap_of_validateG5 h.g5 d (Option.mem_toList.mp hd)

theorem Admitted.required_live (hready : Finishes sha256 ready.request ready)
    (hcomputed : ∀ d ∈ (ready.record sha256).computed, isZero d = false) :
    ∀ d ∈ (ready.record sha256).required, isZero d = false := by
  obtain ⟨-, hlive, hreasoning⟩ := canonical_of_validateG0 h.g0
  have hreasoning : isZero ready.request.evidence.reasoningAdmission.admissionDigest = false :=
    isZero_eq_false.mpr
      (StrictReasoningAdmissionRecord.admissionDigest_ne_zero (reasoningBound_of_valid hreasoning).valid)
  have hquality : isZero ready.request.evidence.performance.admissionDigest = false :=
    isZero_eq_false.mpr (QualityAdmissionRecord.digest_of_validate (measured_of_validateG7 h.g7).valid).2
  simp only [List.forall_mem_cons] at hlive
  obtain ⟨hassembly, htree, himage, hsnapshot, htask, hplan, hmodel, hbaseline, hcontract, hcomparison, hverifier,
    hpredecessor, hartifacts, -⟩ := hlive
  unfold ReceiptRecord.computed at hcomputed
  simp only [List.forall_mem_append, List.forall_mem_cons] at hcomputed
  obtain ⟨⟨hpermit, hbinding, hadmission, hterminal, houtput, heffects, htrace, hhead, -⟩, -⟩ := hcomputed
  unfold ReceiptRecord.required
  simp only [List.forall_mem_cons]
  exact ⟨hpermit, hbinding, hadmission, hassembly, htree, himage, hsnapshot, htask, hplan, hmodel, hbaseline,
    hcontract, hreasoning, hcomparison, hverifier, hartifacts, (attributed_of_validateG3 h.g3).live, hterminal,
    shield_of_validateG6 h.g6, hquality, hready.closes.transaction, houtput, heffects, hpredecessor,
    hready.closes.root, htrace, hhead, fun d hd => absurd hd List.not_mem_nil⟩

theorem Admitted.cut_valid : semanticCutReceiptFieldsValid sha256 (ready.record sha256) = true := by
  obtain ⟨hvalid, -, hroot, hplan, hmodel, hcontract, hcomparison, hscope, hverifier⟩ := attributed_of_validateG3 h.g3
  simp only [semanticCutReceiptFieldsValid, Bool.and_eq_true, decide_eq_true_eq]
  exact ⟨⟨⟨⟨⟨⟨⟨⟨⟨isOk_iff.mpr ⟨(), hvalid⟩, rfl⟩, hverifier⟩, rfl⟩, hroot⟩, hplan⟩, hmodel⟩, hcontract⟩, hcomparison⟩,
    hscope⟩

theorem Admitted.quality_valid (hready : Finishes sha256 ready.request ready) :
    qualityReceiptFieldsValid sha256 contractDigest (ready.record sha256) = true := by
  obtain ⟨hvalid, hcomparison, hscope, hcandidate⟩ := measured_of_validateG7 h.g7
  have hselected : ready.closure.kind.receiptKind ≠ .commit ∨
      ready.request.evidence.performance.selection = .candidate := by
    cases hkind : ready.closure.kind with
    | commit => exact Or.inr (hready.closes.commit hkind).2.2.2
    | fallback => exact Or.inl (by decide)
  have hnamed : namesCandidate ready.request.evidence.performance.evidenceClass = false ∨
      ready.request.evidence.performance.candidateIdentityDigest =
        some (candidateProtocolIdentity sha256 contractDigest ready.request.binding) := by
    cases hnames : namesCandidate ready.request.evidence.performance.evidenceClass with
    | false => exact Or.inl rfl
    | true => exact Or.inr (hcandidate hnames)
  simp only [qualityReceiptFieldsValid, Bool.and_eq_true, Bool.or_eq_true, Bool.not_eq_true', decide_eq_true_eq]
  exact ⟨⟨⟨⟨⟨isOk_iff.mpr ⟨(), hvalid⟩, hcomparison⟩, hscope⟩, hnamed⟩, rfl⟩, hselected⟩

theorem Admitted.receipt_valid (hready : Finishes sha256 ready.request ready)
    (hcomputed : ∀ d ∈ (ready.record sha256).computed, isZero d = false) :
    Validates sha256 contractDigest (ready.record sha256) := by
  have hbinding := h.record_binding
  exact {
    schema := rfl
    heads := (guard_eq_ok.mp h.g1).2
    required := h.required_live hready hcomputed
    verification := hready.verified
    snap := by
      rw [Option.any_eq_false]
      intro d hd
      exact hcomputed d (List.mem_append_right _ (Option.mem_toList.mpr hd))
    deoptimization := hready.closes.deoptimization
    binding := by rw [hbinding]; rfl
    attribution := rfl
    envelope := envelope_of_validateG4 h.g4
    reasoning := (canonical_of_validateG0 h.g0).reasoning
    cut := h.cut_valid
    quality := h.quality_valid hready
    closure := hready.closureValid
    head := by
      unfold ReceiptRecord.headMessage
      rw [hbinding]
      rfl }

end Ready

theorem FinalReceipt.record_of_finalize {ready : ReadyToFinalize} {receipt : FinalReceipt}
    (h : ready.finalize sha256 = .ok receipt) : receipt.record sha256 = ready.record sha256 := by
  obtain ⟨-, rfl⟩ := ReadyToFinalize.finalize_eq_ok.mp h
  unfold ReadyToFinalize.record
  cases ready.closure.kind with
  | commit | fallback => rfl

theorem Follows.finishes {done : List Call} {x : BrokeredExecution} {ready : ReadyToFinalize} (h : Follows r done x)
    (hpermit : ∃ message, sha256 message = x.permitId) (hends : Ends sha256 x ready) : Finishes sha256 r ready := by
  have hcloses : ∀ {closure failure}, validateClosure sha256 x closure failure = .ok () → Closes r closure failure := by
    intro closure failure hclosure
    rw [← h.request]
    exact closes_of_validateClosure hclosure
  cases hends with
  | closed hlast hall hsome hclosure =>
    refine ⟨h.request, hpermit, h.verified, ?_⟩
    show Closes r _ x.trace.executionFailure
    rw [h.unfailed]
    exact hcloses hclosure
  | aborted hkind hclosure => exact ⟨h.request, hpermit, h.verified, hcloses hclosure⟩

end Records

theorem ReceiptRecord.computed_live {sha256 : List UInt8 → Sha256Digest} {contractDigest : Sha256Digest}
    {record : ReceiptRecord} (h : Validates sha256 contractDigest record) :
    ∀ d ∈ record.computed, isZero d = false := by
  intro d hd
  rcases List.mem_append.mp hd with hd | hd
  · refine h.required d ?_
    simp only [List.mem_cons, List.not_mem_nil, or_false] at hd
    rcases hd with rfl | rfl | rfl | rfl | rfl | rfl | rfl | rfl <;> simp [ReceiptRecord.required]
  · have hsnap := h.snap
    rw [Option.any_eq_false] at hsnap
    simpa using hsnap d (Option.mem_toList.mp hd)

theorem validates_of_run {sha256 : List UInt8 → Sha256Digest} {contractDigest : Sha256Digest} {r : PrepareRequest}
    {permit : ExecutionPermit} {now : UInt64} {x : BrokeredExecution} {calls : List Call} {ending : Ending}
    {ready : ReadyToFinalize} (hprepare : prepare sha256 contractDigest r = .ok permit)
    (hstart : permit.startAt now = .ok x) (hend : ending.perform sha256 (broker.play calls x) = .ok ready) :
    Hashed sha256 (ready.record sha256).computed ∧ (Validates sha256 contractDigest (ready.record sha256) ↔
      ∀ d ∈ (ready.record sha256).computed, d ≠ Sha256Digest.zero) := by
  obtain ⟨hadmitted, rfl⟩ := prepare_eq_ok.mp hprepare
  have hfollows := (Follows.start hstart).play calls
  have hpermit : ∃ message, sha256 message = (broker.play calls x).permitId := by
    obtain ⟨-, hstart⟩ := guard_eq_ok.mp hstart
    rw [broker_permitId, ← Except.ok.inj hstart]
    exact ⟨_, rfl⟩
  have hfinishes := hfollows.finishes hpermit (Ending.ends hend)
  have hrequest := hfinishes.request
  subst hrequest
  simp only [← isZero_eq_false]
  exact ⟨hadmitted.hashed_receipt hfinishes, ReceiptRecord.computed_live, hadmitted.receipt_valid hfinishes⟩

/-- Whatever the digest function, the validators accept every permit that is prepared and every receipt that is
finalized, exactly unless a digest that was computed for it is zero. -/
theorem producers_satisfy_validators {sha256 : List UInt8 → Sha256Digest} (contractDigest : Sha256Digest)
    (r : PrepareRequest) (permit : ExecutionPermit) (hprepare : prepare sha256 contractDigest r = .ok permit) :
    (Hashed sha256 (permit.record sha256).computed ∧ (validatePermitRecord sha256 (permit.record sha256) = .ok () ↔
      ∀ d ∈ (permit.record sha256).computed, d ≠ Sha256Digest.zero)) ∧
    ∀ now x calls ending ready receipt, permit.startAt now = .ok x →
      Ending.perform sha256 (broker.play calls x) ending = .ok ready → ready.finalize sha256 = .ok receipt →
      Hashed sha256 (receipt.record sha256).computed ∧
        (validateReceiptRecord sha256 contractDigest (receipt.record sha256) = .ok () ↔
          ∀ d ∈ (receipt.record sha256).computed, d ≠ Sha256Digest.zero) := by
  constructor
  · obtain ⟨hadmitted, rfl⟩ := prepare_eq_ok.mp hprepare
    exact ⟨hashed_permit r, hadmitted.permit_valid_iff⟩
  · intro now x calls ending ready receipt hstart hend hfinal
    rw [FinalReceipt.record_of_finalize hfinal, validateReceiptRecord_eq_ok]
    exact validates_of_run hprepare hstart hend

theorem leadingDigest_ne_zero (bytes : List UInt8) : leadingDigest bytes ≠ Sha256Digest.zero := by
  intro h
  have hnat : (2 * ofBe (bytes.take 31) + 1) % 2 ^ 256 = 0 := congrArg BitVec.toNat h
  omega

theorem producers_satisfy_validators_sample :
    validatePermitRecord leadingDigest ((permitOf leadingDigest (sampleRequest leadingDigest)).record leadingDigest) =
        .ok () ∧
      validateReceiptRecord leadingDigest 1 ((FinalReceipt.commit sampleReceipt).record leadingDigest) = .ok () := by
  obtain ⟨⟨hhashed, hpermit⟩, hreceipt⟩ := producers_satisfy_validators 1 _ _ prepare_sample
  obtain ⟨hhashed', hreceipt⟩ := hreceipt _ _ _ _ _ _ startAt_sample closeTransaction_sample finalize_sample
  exact ⟨hpermit.mpr (hhashed.ne_zero leadingDigest_ne_zero), hreceipt.mpr (hhashed'.ne_zero leadingDigest_ne_zero)⟩

def zeroOnBindings (bytes : List UInt8) : Sha256Digest :=
  if (utf8Bytes "zerostack.kernel.binding").isPrefixOf bytes then 0 else 1

/-- The guards look at the digests that the request brings, and not at those that are computed from it. -/
theorem zero_binding_digest_prepared_and_refused : prepare zeroOnBindings 1 (sampleRequest zeroOnBindings) =
        .ok (permitOf zeroOnBindings (sampleRequest zeroOnBindings)) ∧
      validatePermitRecord zeroOnBindings
        ((permitOf zeroOnBindings (sampleRequest zeroOnBindings)).record zeroOnBindings) =
        .error (.execution .forgedPermit "permit binding or admission digest is zero") := by
  refine ⟨prepare_eq_ok.mpr ⟨?_, rfl⟩, by decide +kernel⟩
  constructor <;> decide +kernel

end Zero.TwoPhase
