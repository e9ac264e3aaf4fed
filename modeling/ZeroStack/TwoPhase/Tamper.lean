import ZeroStack.TwoPhase.Acceptance

/-! Receipts are tamper evident: where the digest does not collide, the head of an accepted receipt determines every
field of it. -/

open Wire Zero.Reasoning Zero.SemanticCut Zero.Quality List

namespace Zero.TwoPhase

theorem ReceiptKind.tag_inj : Function.Injective ReceiptKind.tag := by
  intro a b h
  cases a <;> cases b <;> first | rfl | exact absurd h (by decide)

theorem AttributionClass.tag_inj : Function.Injective AttributionClass.tag := by
  intro a b h
  cases a <;> cases b <;> first | rfl | exact absurd h (by decide)

theorem selectionTag_inj : Function.Injective selectionTag := by
  intro a b h
  cases a <;> cases b <;> first | rfl | exact absurd h (by decide)

theorem RestorationAccounting.bytes_inj : Function.Injective RestorationAccounting.bytes := by
  intro a b h
  simp only [bytes, append_assoc, delimited_u64Bytes.append_inj, delimited_u64Bytes.injective.eq_iff] at h
  obtain ⟨hattempted, hcompleted, hdebt⟩ := h
  cases a
  cases b
  cases hattempted; cases hcompleted; cases hdebt
  rfl

namespace ReceiptRecord
variable {sha256 : List UInt8 → Sha256Digest} {contractDigest : Sha256Digest} {a b : ReceiptRecord}

def hashedMessages (sha256 : List UInt8 → Sha256Digest) (r : ReceiptRecord) : List (List UInt8) :=
  [r.headMessage sha256, r.binding.message, r.baselineReasoningContract.message, r.reasoningContract.message,
    r.semanticCut.message sha256, r.semanticCut.claim.message, r.qualityAdmission.message]

theorem cut_of_valid {r : ReceiptRecord} (h : semanticCutReceiptFieldsValid sha256 r = true) :
    r.semanticCut.Binds sha256 ∧ r.semanticCut.certificateDigest = r.semanticCutCertificateDigest := by
  simp only [semanticCutReceiptFieldsValid, Bool.and_eq_true, isOk_iff, decide_eq_true_eq] at h
  obtain ⟨⟨⟨⟨⟨⟨⟨⟨⟨⟨u, hvalid⟩, hcertificate⟩, -⟩, -⟩, -⟩, -⟩, -⟩, -⟩, -⟩, -⟩ := h
  exact ⟨SemanticCutCertificateRecord.binds_of_validate hvalid, hcertificate⟩

theorem quality_of_valid {r : ReceiptRecord} (h : qualityReceiptFieldsValid sha256 contractDigest r = true) :
    sha256 r.qualityAdmission.message = r.qualityAdmission.admissionDigest := by
  simp only [qualityReceiptFieldsValid, Bool.and_eq_true, isOk_iff] at h
  obtain ⟨⟨⟨⟨⟨⟨u, hvalid⟩, -⟩, -⟩, -⟩, -⟩, -⟩ := h
  exact (QualityAdmissionRecord.digest_of_validate hvalid).1

section Collisions
variable (ha : Validates sha256 contractDigest a) (hb : Validates sha256 contractDigest b)
  (hinj : Set.InjOn sha256 {m | m ∈ a.hashedMessages sha256 ++ b.hashedMessages sha256})
include ha hb hinj

omit ha hb in
theorem message_eq (message : ReceiptRecord → List UInt8) (hmessage : ∀ r, message r ∈ r.hashedMessages sha256)
    (h : sha256 (message a) = sha256 (message b)) : message a = message b :=
  hinj (mem_append_left _ (hmessage a)) (mem_append_right _ (hmessage b)) h

theorem contracts_eq : (a.baselineReasoningContractDigest = b.baselineReasoningContractDigest →
        a.baselineReasoningContract = b.baselineReasoningContract) ∧
      (a.reasoningContractDigest = b.reasoningContractDigest → a.reasoningContract = b.reasoningContract) := by
  have hboundA := reasoningBound_of_valid ha.reasoning
  have hboundB := reasoningBound_of_valid hb.reasoning
  have hbaseA := ReasoningContract.identityDigest_eq_ok hboundA.baselineIdentity
  have hbaseB := ReasoningContract.identityDigest_eq_ok hboundB.baselineIdentity
  have hcandidateA := ReasoningContract.identityDigest_eq_ok hboundA.candidateIdentity
  have hcandidateB := ReasoningContract.identityDigest_eq_ok hboundB.candidateIdentity
  constructor
  · intro h
    have hdigest : sha256 a.baselineReasoningContract.message = sha256 b.baselineReasoningContract.message := by
      rw [hbaseA, hbaseB, h]
    exact ReasoningContract.message_inj
      (message_eq hinj (·.baselineReasoningContract.message) (by simp [hashedMessages]) hdigest)
  · intro h
    have hdigest : sha256 a.reasoningContract.message = sha256 b.reasoningContract.message := by
      rw [hcandidateA, hcandidateB, h]
    exact ReasoningContract.message_inj
      (message_eq hinj (·.reasoningContract.message) (by simp [hashedMessages]) hdigest)

theorem binding_eq (h : a.binding.digest sha256 = b.binding.digest sha256) : a.binding = b.binding := by
  obtain ⟨hbaseline, hcontract⟩ := contracts_eq ha hb hinj
  exact ExecutionBinding.eq_of_message ha.heads hb.heads hbaseline hcontract
    (message_eq hinj (·.binding.message) (by simp [hashedMessages]) h)

theorem semanticCut_eq (h : a.semanticCutCertificateDigest = b.semanticCutCertificateDigest) :
    a.semanticCut = b.semanticCut := by
  obtain ⟨hcutA, hcertificateA⟩ := cut_of_valid ha.cut
  obtain ⟨hcutB, hcertificateB⟩ := cut_of_valid hb.cut
  have hcertificate : a.semanticCut.certificateDigest = b.semanticCut.certificateDigest := by
    rw [hcertificateA, hcertificateB, h]
  have hmessage : a.semanticCut.message sha256 = b.semanticCut.message sha256 := by
    apply message_eq hinj (·.semanticCut.message sha256) (by simp [hashedMessages])
    rw [hcutA.certificate, hcutB.certificate, hcertificate]
  obtain ⟨hversion, hclaim, hevidence, hverifier, -⟩ := certificateMessage_inj hmessage
  have hclaims : a.semanticCut.claim = b.semanticCut.claim := by
    apply SemanticCutClaim.message_inj hcutA.size hcutB.size
    apply message_eq hinj (·.semanticCut.claim.message) (by simp [hashedMessages])
    rw [hcutA.claim, hcutB.claim, hclaim]
  exact SemanticCutCertificateRecord.ext hversion hclaims hclaim hevidence hverifier hcertificate

theorem qualityAdmission_eq (h : a.qualityAdmission.admissionDigest = b.qualityAdmission.admissionDigest) :
    a.qualityAdmission = b.qualityAdmission := by
  refine QualityAdmissionRecord.eq_of_message ?_ h
  apply message_eq hinj (·.qualityAdmission.message) (by simp [hashedMessages])
  rw [quality_of_valid ha.quality, quality_of_valid hb.quality, h]

omit hinj in
theorem reasoningAdmission_eq (h : a.binding = b.binding) : a.reasoningAdmission = b.reasoningAdmission := by
  have hcomparedA := (reasoningBound_of_valid ha.reasoning).compared
  have hcomparedB := (reasoningBound_of_valid hb.reasoning).compared
  have hbaseline : a.baselineReasoningContract = b.baselineReasoningContract :=
    congrArg ExecutionBinding.baselineReasoningContract h
  have hcontract : a.reasoningContract = b.reasoningContract := congrArg ExecutionBinding.reasoningContract h
  rw [hbaseline, hcontract] at hcomparedA
  exact Except.ok.inj (hcomparedA.symm.trans hcomparedB)

theorem eq_of_receiptHead (h : a.receiptHead = b.receiptHead) : a = b := by
  have hmessage : a.headMessage sha256 = b.headMessage sha256 := by
    apply message_eq hinj (·.headMessage sha256) (by simp [hashedMessages])
    rw [← ha.head, ← hb.head, h]
  unfold headMessage receiptMessage at hmessage
  simp only [append_assoc] at hmessage
  replace hmessage := append_cancel_left (append_cancel_left (append_cancel_left hmessage))
  simp only [cons_append, nil_append, List.cons.injEq, delimited_digestBytes.append_inj,
    delimited_optionalDigest.append_inj,
    WorkerEnvelope.delimited_bytes.append_inj, ResourceUsage.delimited_bytes.append_inj, ReceiptKind.tag_inj.eq_iff,
    AttributionClass.tag_inj.eq_iff, selectionTag_inj.eq_iff, effectClassTag_inj.eq_iff,
    ExecutionSurface.tag_inj.eq_iff, failureTag_inj.eq_iff, RestorationAccounting.bytes_inj.eq_iff] at hmessage
  obtain ⟨hkind, hpermit, hdigests, hadmission, hartifacts, -, hcut, hterminal, hsnap, hshield, hquality, hhead⟩ :=
    hmessage
  have hbinding := binding_eq ha hb hinj hdigests
  have hreasoning := reasoningAdmission_eq ha hb hbinding
  have hcuts := semanticCut_eq ha hb hinj hcut
  have hqualities := qualityAdmission_eq ha hb hinj hquality
  have hdigest : a.bindingDigest = b.bindingDigest := by rw [← ha.binding, ← hb.binding, hbinding]
  -- the other fields stand in the head or in the binding
  simp only [binding, ExecutionBinding.mk.injEq] at hbinding
  simp only [ReceiptRecord.ext_iff, *, and_self]

end Collisions
end ReceiptRecord

/-- Two receipts that the validator accepts have the same head only if they are the same in every field. -/
theorem receiptHead_eq_iff {sha256 : List UInt8 → Sha256Digest} {contractDigest : Sha256Digest} {a b : ReceiptRecord}
    (ha : validateReceiptRecord sha256 contractDigest a = .ok ())
    (hb : validateReceiptRecord sha256 contractDigest b = .ok ())
    (hinj : Set.InjOn sha256 {m | m ∈ a.hashedMessages sha256 ++ b.hashedMessages sha256}) :
    a.receiptHead = b.receiptHead ↔ a = b := by
  constructor
  · exact ReceiptRecord.eq_of_receiptHead (validateReceiptRecord_eq_ok.mp ha) (validateReceiptRecord_eq_ok.mp hb) hinj
  · intro h
    rw [h]

def sampleFallback : TransactionClosure :=
  { sampleClosure leadingDigest with
    kind := .fallback
    deoptimizationExecutionReceiptDigest := some 16
    deoptimizationKernelBindingDigest := some ((sampleBinding leadingDigest).digest leadingDigest)
    deoptimizationKernelAdmissionDigest := some ((sampleRequest leadingDigest).admissionDigest leadingDigest)
    restorationScope := .declaredEffectClosure
    restoration := ⟨1, 1, 0⟩ }

def sampleAborted : ReadyToFinalize := ((sampleStart leadingDigest).failed .boundExceeded).closedBy sampleFallback

theorem abort_sample : (Ending.abort .boundExceeded sampleFallback).perform leadingDigest
    (broker.play [] (sampleStart leadingDigest)) = .ok sampleAborted :=
  BrokeredExecution.abort_eq_ok.mpr ⟨rfl, by decide +kernel, rfl⟩

def sampleMessages : List (List UInt8) :=
  [(sampleBinding leadingDigest).message, sampleContract.message, sampleContract.message,
    (sampleCut leadingDigest).message leadingDigest, (sampleClaim leadingDigest).message,
    (sampleQuality leadingDigest).message]

def sampleDistinct : List (List UInt8) :=
  [((sampleReady leadingDigest).record leadingDigest).headMessage leadingDigest,
    (sampleAborted.record leadingDigest).headMessage leadingDigest, (sampleBinding leadingDigest).message,
    sampleContract.message, (sampleCut leadingDigest).message leadingDigest, (sampleClaim leadingDigest).message,
    (sampleQuality leadingDigest).message]

theorem leadingDigest_injOn_sample : Set.InjOn leadingDigest {m | m ∈
    ((sampleReady leadingDigest).record leadingDigest).hashedMessages leadingDigest ++
      (sampleAborted.record leadingDigest).hashedMessages leadingDigest} := by
  have hdistinct : (sampleDistinct.map leadingDigest).Nodup := by decide +kernel
  have hcommit : ((sampleReady leadingDigest).record leadingDigest).hashedMessages leadingDigest =
      ((sampleReady leadingDigest).record leadingDigest).headMessage leadingDigest :: sampleMessages := rfl
  have habort : (sampleAborted.record leadingDigest).hashedMessages leadingDigest =
      (sampleAborted.record leadingDigest).headMessage leadingDigest :: sampleMessages := rfl
  have hmessages : ∀ m ∈ ((sampleReady leadingDigest).record leadingDigest).hashedMessages leadingDigest ++
      (sampleAborted.record leadingDigest).hashedMessages leadingDigest, m ∈ sampleDistinct := by
    rw [hcommit, habort]
    unfold sampleMessages sampleDistinct
    simp
  intro m hm n hn h
  exact inj_on_of_nodup_map hdistinct (hmessages m hm) (hmessages n hn) h

theorem receiptHead_ne_sample : ((sampleReady leadingDigest).record leadingDigest).receiptHead ≠
    (sampleAborted.record leadingDigest).receiptHead := by
  obtain ⟨hhashed, hcommit⟩ := validates_of_run prepare_sample startAt_sample closeTransaction_sample
  obtain ⟨hhashed', habort⟩ := validates_of_run prepare_sample startAt_sample abort_sample
  have hiff := receiptHead_eq_iff
    (validateReceiptRecord_eq_ok.mpr (hcommit.mpr (hhashed.ne_zero leadingDigest_ne_zero)))
    (validateReceiptRecord_eq_ok.mpr (habort.mpr (hhashed'.ne_zero leadingDigest_ne_zero))) leadingDigest_injOn_sample
  intro h
  have hkind : ReceiptKind.commit = ReceiptKind.fallback := congrArg ReceiptRecord.kind (hiff.mp h)
  cases hkind

end Zero.TwoPhase
