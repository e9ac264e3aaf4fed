import ZeroStack.EffectWitness.Accepted
import ZeroStack.Quality.Admission
import ZeroStack.RobustSnap.Certificate
import ZeroStack.SemanticCut.Certificate
import ZeroStack.TwoPhase.Binding

/-! The first phase: a request with its evidence passes the guards G0 to G7 and becomes a permit. -/

open Wire Zero.Reasoning Zero.SemanticCut Zero.Quality Zero.RobustSnap Zero.EffectWitness

namespace Zero.TwoPhase

def isOkAnd {ε α : Type} (x : Except ε α) (p : α → Bool) : Bool :=
  match x with
  | .ok a => p a
  | .error _ => false

def isOk {ε α : Type} (x : Except ε α) : Bool := isOkAnd x fun _ => true

theorem isOkAnd_iff {ε α : Type} {x : Except ε α} {p : α → Bool} :
    isOkAnd x p = true ↔ ∃ a, x = .ok a ∧ p a = true := by
  cases x with
  | error e | ok a => simp [isOkAnd]

theorem isOk_iff {ε α : Type} {x : Except ε α} : isOk x = true ↔ ∃ a, x = .ok a := by
  simp [isOk, isOkAnd_iff]

structure CanonicalArtifactSet where
  assemblyManifestDigest : Sha256Digest
  sourceRootDigest : Sha256Digest
  imageDigest : Sha256Digest
  artifactSetDigest : Sha256Digest
  artifactIdentities : List Sha256Digest
  producerContractDigests : List Sha256Digest
  deriving DecidableEq

inductive SnapEvidence where
  | notClaimed
  | verified (certificate : RobustSnapCertificate)
  deriving DecidableEq

inductive SafetyShieldKind where
  | readOnly
  | acceptedEffect
  deriving DecidableEq

structure SafetyShieldEvidence where
  kind : SafetyShieldKind
  shieldDigest : Sha256Digest
  stateSnapshot : Sha256Digest
  actionDigest : Option Sha256Digest
  evidenceDigest : Sha256Digest
  verifierDigest : Sha256Digest
  acceptanceDigest : Option Sha256Digest
  acceptedEffect : Option EffectAccepted
  deriving DecidableEq

structure GuardEvidence where
  artifacts : CanonicalArtifactSet
  reasoningAdmission : StrictReasoningAdmission
  semanticCut : SemanticCutEvidence
  snap : SnapEvidence
  safetyShield : SafetyShieldEvidence
  approvalGrantDigest : Option Sha256Digest
  irreversiblePreActionEvidenceDigest : Option Sha256Digest
  performance : QualityAdmission
  deriving DecidableEq

structure PrepareRequest where
  binding : ExecutionBinding
  surface : ExecutionSurface
  effectClass : EffectClass
  plan : ControllerPlan
  envelope : WorkerEnvelope
  evidence : GuardEvidence
  expiryDeadlineMs : UInt64
  epoch : UInt64
  callerSessionId : String
  deriving DecidableEq

structure PrepareFailure where
  error : KernelError
  trace : ExecutionTrace
  deriving DecidableEq

structure PermitRecord where
  schemaVersion : UInt16
  permitId : Sha256Digest
  bindingDigest : Sha256Digest
  admissionDigest : Sha256Digest
  surface : ExecutionSurface
  trace : ExecutionTrace
  expiryDeadlineMs : UInt64
  epoch : UInt64
  callerSessionId : String
  deriving DecidableEq

structure ExecutionPermit where
  permitId : Sha256Digest
  request : PrepareRequest
  trace : ExecutionTrace
  expiryDeadlineMs : UInt64
  epoch : UInt64
  callerSessionId : String
  deriving DecidableEq

def SnapEvidence.bytes : SnapEvidence → List UInt8
  | .notClaimed => [0]
  | .verified certificate => 1 :: digestBytes certificate.certificateDigest

def SafetyShieldKind.tag : SafetyShieldKind → UInt8
  | .readOnly => 0
  | .acceptedEffect => 1

section Digests
variable (sha256 : List UInt8 → Sha256Digest)

def imageDigest (sourceRoot : Sha256Digest) (artifacts : List Sha256Digest) : Sha256Digest :=
  sha256 (utf8Bytes "zerostack.kernel.image" ++ [0] ++ digestBytes sourceRoot ++ beBytes 8 artifacts.length ++
    artifacts.flatMap digestBytes)

def SafetyShieldEvidence.expectedDigest (s : SafetyShieldEvidence) : Sha256Digest :=
  sha256 (utf8Bytes "zerostack.kernel.safety_shield" ++ [0] ++ [s.kind.tag] ++ digestBytes s.stateSnapshot ++
    optionalDigest s.actionDigest ++ digestBytes s.evidenceDigest ++ digestBytes s.verifierDigest ++
    optionalDigest s.acceptanceDigest)

variable (r : PrepareRequest)

def PrepareRequest.admissionDigest : Sha256Digest :=
  sha256 (utf8Bytes "zerostack.kernel.admission" ++ [0] ++ digestBytes (r.binding.digest sha256) ++ [r.surface.tag] ++
    [effectClassTag r.effectClass] ++ digestBytes (r.plan.digest sha256) ++ r.envelope.bytes ++
    u64Bytes r.expiryDeadlineMs ++ u64Bytes r.epoch ++ boundedBytes (utf8Bytes r.callerSessionId) ++
    digestBytes r.evidence.artifacts.artifactSetDigest ++ digestBytes r.evidence.reasoningAdmission.admissionDigest ++
    digestBytes r.evidence.semanticCut.certificateDigest ++ digestBytes r.evidence.semanticCut.verifierIdentityDigest ++
    digestBytes (r.evidence.semanticCut.claim.terminalRcqIdentityDigest sha256) ++ r.evidence.snap.bytes ++
    digestBytes r.evidence.safetyShield.shieldDigest ++ optionalDigest r.evidence.approvalGrantDigest ++
    optionalDigest r.evidence.irreversiblePreActionEvidenceDigest ++ digestBytes r.evidence.performance.admissionDigest)

def permitIdentity (admissionDigest : Sha256Digest) (trace : ExecutionTrace) (expiryDeadlineMs epoch : UInt64)
    (callerSessionId : String) : Sha256Digest :=
  sha256 (utf8Bytes "zerostack.kernel.permit" ++ [0] ++ digestBytes admissionDigest ++
    digestBytes (trace.digest sha256) ++ u64Bytes expiryDeadlineMs ++ u64Bytes epoch ++
    boundedBytes (utf8Bytes callerSessionId))

def permitDigest (trace : ExecutionTrace) : Sha256Digest :=
  permitIdentity sha256 (r.admissionDigest sha256) trace r.expiryDeadlineMs r.epoch r.callerSessionId

def reasoningFieldsValid (baseline candidate : ReasoningContract)
    (baselineDigest candidateDigest fixedModelDigest : Sha256Digest) (admission : StrictReasoningAdmission) : Bool :=
  isOk baseline.validate && isOkAnd (baseline.identityDigest sha256) (· = baselineDigest) && isOk candidate.validate &&
    isOkAnd (candidate.identityDigest sha256) (· = candidateDigest) && candidate.modelIdentity = fixedModelDigest &&
    !candidate.allowEffortDownshift && isOk (admission.validate sha256) &&
    admission.baselineContractDigest = baselineDigest && admission.candidateContractDigest = candidateDigest &&
    isOkAnd (verifyStrictNoDownshift sha256 baseline candidate) (· = admission)

def validateG0 : Except KernelError Unit :=
  let b := r.binding
  if b.schemaVersion ≠ twoPhaseSchemaVersion then
    .error (.atGuard .schemaVersionMismatch .g0Canonical "unsupported trusted-kernel schema version")
  else if [b.assemblyManifestDigest, b.sourceTreeDigest, b.imageDigest, b.stateSnapshotDigest, b.taskFingerprintDigest,
      b.planDigest, b.fixedModelDigest, b.baselineReasoningContractDigest, b.reasoningContractDigest,
      b.comparisonIdentityDigest, b.semanticCutVerifierIdentityDigest, b.predecessorReceiptHead,
      r.evidence.artifacts.artifactSetDigest].any isZero then
    .error (.atGuard .missingBinding .g0Canonical
      "required canonical artifact, state, task, model, or receipt binding is zero")
  else if !reasoningFieldsValid sha256 b.baselineReasoningContract b.reasoningContract
      b.baselineReasoningContractDigest b.reasoningContractDigest b.fixedModelDigest r.evidence.reasoningAdmission then
    .error (.atGuard .reasoningContractMismatch .g0Canonical
      "reasoning contract or strict no-downshift admission is invalid")
  else if r.evidence.artifacts.artifactIdentities.length ≠ 3 ∨
      r.evidence.artifacts.producerContractDigests.length ≠ 3 then
    .error (.atGuard .canonicalDigestMismatch .g0Canonical
      "verified artifact set no longer contains exactly three peer packs")
  else .ok ()

def validateG1 : Except KernelError Unit :=
  let artifacts := r.evidence.artifacts
  if artifacts.assemblyManifestDigest ≠ r.binding.assemblyManifestDigest ∨
      artifacts.sourceRootDigest ≠ r.binding.sourceTreeDigest ∨ artifacts.imageDigest ≠ r.binding.imageDigest ∨
      artifacts.imageDigest ≠ imageDigest sha256 artifacts.sourceRootDigest artifacts.artifactIdentities ∨
      artifacts.producerContractDigests.any isZero then
    .error (.atGuard .coherenceFailure .g1Coherence
      "peer assembly, producer, source-root, or recomputed image identity differs")
  else validateSourceHeads r.binding.sourceRepositoryHeads

def stagedPlaces (instructions : List ControllerInstruction) : List ℕ :=
  instructions.zipIdx.filterMap fun (step, index) => if step = .stageEffect then some index else none

def validateG2 : Except KernelError Unit :=
  let instructions := r.plan.instructions
  if instructions = [] ∨ maxControllerInstructions < instructions.length then
    .error (.atGuard .invalidPlan .g2FinitePlan "plan length is zero or exceeds the frozen controller bound")
  else if instructions.getLast? ≠ some .closeTransaction ∨ instructions.count .closeTransaction ≠ 1 ∨
      instructions.count .verify ≠ 1 ∨ instructions.count .bufferVisible ≠ 1 ∨
      instructions.countP ControllerInstruction.isDispatch = 0 then
    .error (.atGuard .invalidPlan .g2FinitePlan
      "plan requires dispatch, one verify, one buffer, and one final close_transaction")
  else
    match instructions.idxOf? .verify, instructions.idxOf? .bufferVisible with
    | none, _ => .error (.atGuard .invalidPlan .g2FinitePlan "plan verify instruction missing after count check")
    | _, none => .error (.atGuard .invalidPlan .g2FinitePlan "plan buffer instruction missing after count check")
    | some verify, some visible =>
      if visible ≤ verify then
        .error (.atGuard .invalidPlan .g2FinitePlan "verification must precede any candidate-visible buffer")
      else if r.effectClass = .readOnly ∧ stagedPlaces instructions ≠ [] then
        .error (.atGuard .invalidPlan .g2FinitePlan "read-only plan stages an effect")
      else if r.effectClass ≠ .readOnly ∧ ¬(∃ place ∈ (stagedPlaces instructions).head?,
          (stagedPlaces instructions).length = 1 ∧ verify < place ∧ place < visible) then
        .error (.atGuard .invalidPlan .g2FinitePlan
          "mutating plan requires one staged effect after verification and before visibility")
      else if r.plan.digest sha256 ≠ r.binding.planDigest then
        .error (.atGuard .planDigestMismatch .g2FinitePlan "controller plan does not match its bound digest")
      else .ok ()

def validateG3 : Except KernelError Unit :=
  let cut := r.evidence.semanticCut
  match cut.validate sha256 with
  | .error error =>
    .error (.atGuard .semanticCutCrossing .g3Attribution
      s!"semantic-cut certificate failed validation: {error.display}")
  | .ok () =>
    if isZero cut.certificateDigest ∨ cut.claim.inputProjectControlRoot ≠ r.binding.stateSnapshotDigest ∨
        cut.claim.compiledPlanDigest ≠ r.binding.planDigest ∨ cut.claim.fixedModelDigest ≠ r.binding.fixedModelDigest ∨
        cut.claim.reasoningContractDigest ≠ r.binding.reasoningContractDigest ∨
        cut.claim.comparisonIdentityDigest ≠ r.binding.comparisonIdentityDigest ∨
        cut.claim.certificateScopeDigest ≠ r.binding.taskFingerprintDigest ∨
        cut.verifierIdentityDigest ≠ r.binding.semanticCutVerifierIdentityDigest then
      .error (.atGuard .semanticCutCrossing .g3Attribution
        "semantic cut binds another input, plan, model, reasoning contract, comparison, scope, or verifier")
    else .ok ()

def validateG4 : Except KernelError Unit :=
  if r.envelope.hasZero ∨ r.envelope.workerSteps.toNat < r.plan.instructions.length then
    .error (.atGuard .unboundedWorker .g4Resources
      "every resource/risk bound must be positive and cover all controller steps")
  else .ok ()

def validateG5 : Except KernelError Unit :=
  match r.evidence.snap with
  | .notClaimed => .ok ()
  | .verified certificate =>
    match certificate.validate sha256 with
    | .error error =>
      .error (.atGuard .missingSnapCertificate .g5RobustSnap s!"Robust Snap certificate failed: {error.display}")
    | .ok () =>
      if certificate.fiber.assemblyManifestDigest ≠ r.binding.assemblyManifestDigest ∨
          certificate.fiber.sourceImageDigest ≠ r.binding.imageDigest ∨
          certificate.fiber.taskFingerprint ≠ r.binding.taskFingerprintDigest then
        .error (.atGuard .missingSnapCertificate .g5RobustSnap
          "Robust Snap certificate binds another assembly, image, or task")
      else if certificate.snapLevel = .s0 then
        match certificate.selectedEffect with
        | none =>
          .error (.atGuard .missingSnapCertificate .g5RobustSnap "S0 certificate has no selected effect")
        | some selected =>
          if r.evidence.safetyShield.actionDigest ≠ some selected.effectDigest then
            .error (.atGuard .missingSnapCertificate .g5RobustSnap
              "S0 selected effect differs from the shielded action")
          else .ok ()
      else .ok ()

def validateShieldKind (effectClass : EffectClass) (shield : SafetyShieldEvidence) : Except KernelError Unit :=
  match effectClass, shield.kind with
  | .readOnly, .readOnly => .ok ()
  | .readOnly, .acceptedEffect | _, .readOnly =>
    .error (.atGuard .missingSafetyShield .g6SafetyShield "shield kind does not match the admitted effect class")
  | _, .acceptedEffect =>
    match shield.acceptedEffect with
    | none =>
      .error (.atGuard .missingSafetyShield .g6SafetyShield "accepted-effect shield lost its zero-cert handle")
    | some accepted =>
      match accepted.validate sha256 with
      | .error error =>
        .error (.atGuard .missingSafetyShield .g6SafetyShield s!"accepted effect failed validation: {error.display}")
      | .ok () => .ok ()

def validateG6 : Except KernelError Unit :=
  let shield := r.evidence.safetyShield
  if isZero shield.shieldDigest ∨ shield.stateSnapshot ≠ r.binding.stateSnapshotDigest ∨
      shield.shieldDigest ≠ shield.expectedDigest sha256 then
    .error (.atGuard .missingSafetyShield .g6SafetyShield "shield identity or state binding is invalid")
  else do
    validateShieldKind sha256 r.effectClass shield
    if r.effectClass = .approvalRequiredMutation ∧ r.evidence.approvalGrantDigest.all isZero then
      .error (.atGuard .missingApprovalGrant .g6SafetyShield
        "approval-required execution lacks a validated grant commitment")
    else if r.effectClass = .irreversible ∧ r.evidence.irreversiblePreActionEvidenceDigest.all isZero then
      .error (.atGuard .irreversiblePreEvidenceEffect .g6SafetyShield
        "irreversible execution requires verified pre-action evidence")
    else .ok ()

def namesCandidate : QualityEvidenceClass → Bool
  | .exactNeutral | .pointwiseDominance | .scopedClassDominance => true
  | .distributional | .unidentified => false

variable (contractDigest : Sha256Digest)

def validateG7 (r : PrepareRequest) : Except KernelError Unit :=
  let performance := r.evidence.performance
  match performance.validate sha256 with
  | .error error =>
    .error (.atGuard .performanceUnknown .g7Performance s!"quality admission failed validation: {error.display}")
  | .ok () =>
    if performance.comparisonIdentityDigest ≠ r.binding.comparisonIdentityDigest ∨
        (performance.evidenceClass ≠ .distributional ∧ performance.scopeDigest ≠ r.binding.taskFingerprintDigest) then
      .error (.atGuard .performanceUnknown .g7Performance
        "quality evidence binds another comparison identity or task")
    else if namesCandidate performance.evidenceClass ∧
        performance.candidateIdentityDigest ≠ some (candidateProtocolIdentity sha256 contractDigest r.binding) then
      .error (.atGuard .performanceUnknown .g7Performance
        "quality evidence binds another candidate protocol identity")
    else if coherent performance.evidenceClass performance.selection performance.guarantee then .ok ()
    else
      .error (.atGuard .performanceUnknown .g7Performance
        "quality evidence cannot authorize this strict candidate selection")

def passGuard (guard : Guard) (check : Except KernelError Unit) (trace : ExecutionTrace) :
    Except PrepareFailure ExecutionTrace :=
  match check with
  | .error error => .error ⟨error, trace⟩
  | .ok () => .ok (trace.pass guard)

def prepare (r : PrepareRequest) : Except PrepareFailure ExecutionPermit :=
  if r.callerSessionId = "" then
    .error ⟨.atGuard .missingBinding .g0Canonical "permit lease: caller_session_id must be nonempty", .new⟩
  else if r.epoch = 0 then
    .error ⟨.atGuard .missingBinding .g0Canonical "permit lease: epoch must be nonzero", .new⟩
  else do
    let trace ← passGuard .g0Canonical (validateG0 sha256 r) .new
    let trace ← passGuard .g1Coherence (validateG1 sha256 r) trace
    let trace ← passGuard .g2FinitePlan (validateG2 sha256 r) trace
    let trace ← passGuard .g3Attribution (validateG3 sha256 r) trace
    let trace ← passGuard .g4Resources (validateG4 r) trace
    let trace ← passGuard .g5RobustSnap (validateG5 sha256 r) trace
    let trace ← passGuard .g6SafetyShield (validateG6 sha256 r) trace
    let trace ← passGuard .g7Performance (validateG7 sha256 contractDigest r) trace
    return {
      permitId := permitDigest sha256 r trace
      request := r
      trace := trace
      expiryDeadlineMs := r.expiryDeadlineMs
      epoch := r.epoch
      callerSessionId := r.callerSessionId }

def ExecutionPermit.record (p : ExecutionPermit) : PermitRecord where
  schemaVersion := twoPhaseSchemaVersion
  permitId := p.permitId
  bindingDigest := p.request.binding.digest sha256
  admissionDigest := p.request.admissionDigest sha256
  surface := p.request.surface
  trace := p.trace
  expiryDeadlineMs := p.expiryDeadlineMs
  epoch := p.epoch
  callerSessionId := p.callerSessionId

def validatePermitRecord (record : PermitRecord) : Except KernelError Unit :=
  if record.schemaVersion ≠ twoPhaseSchemaVersion then
    .error (.execution .forgedPermit "permit schema version is not current")
  else do
    record.trace.verifyPrefix
    if record.trace.events.length ≠ 8 then
      .error (.execution .forgedPermit "permit trace must contain exactly G0-G7")
    else if isZero record.bindingDigest || isZero record.admissionDigest then
      .error (.execution .forgedPermit "permit binding or admission digest is zero")
    else if record.callerSessionId = "" then .error (.execution .forgedPermit "permit caller_session_id is empty")
    else if record.epoch = 0 then .error (.execution .forgedPermit "permit epoch is zero")
    else if record.permitId ≠ permitIdentity sha256 record.admissionDigest record.trace record.expiryDeadlineMs
        record.epoch record.callerSessionId then
      .error (.execution .forgedPermit "permit identity does not bind its record (incl. lease)")
    else .ok ()

end Digests

structure ReasoningBound (sha256 : List UInt8 → Sha256Digest) (baseline candidate : ReasoningContract)
    (baselineDigest candidateDigest : Sha256Digest) (admission : StrictReasoningAdmission) : Prop where
  baselineIdentity : baseline.identityDigest sha256 = .ok baselineDigest
  candidateIdentity : candidate.identityDigest sha256 = .ok candidateDigest
  valid : admission.validate sha256 = .ok ()
  compared : verifyStrictNoDownshift sha256 baseline candidate = .ok admission

theorem reasoningBound_of_valid {sha256 : List UInt8 → Sha256Digest} {baseline candidate : ReasoningContract}
    {baselineDigest candidateDigest fixedModelDigest : Sha256Digest} {admission : StrictReasoningAdmission}
    (h : reasoningFieldsValid sha256 baseline candidate baselineDigest candidateDigest fixedModelDigest
      admission = true) :
    ReasoningBound sha256 baseline candidate baselineDigest candidateDigest admission := by
  simp only [reasoningFieldsValid, Bool.and_eq_true, isOk_iff, isOkAnd_iff, decide_eq_true_eq] at h
  obtain ⟨⟨⟨⟨⟨⟨⟨⟨⟨-, d, hbaseline, rfl⟩, -⟩, e, hcandidate, rfl⟩, -⟩, -⟩, u, hvalid⟩, -⟩, -⟩, a, hcompared, rfl⟩ := h
  exact ⟨hbaseline, hcandidate, hvalid, hcompared⟩

def admittedTrace : ExecutionTrace := { ExecutionTrace.new with events := (Guard.all.take 8).map ExecutionTrace.event }

structure Admitted (sha256 : List UInt8 → Sha256Digest) (contractDigest : Sha256Digest)
    (r : PrepareRequest) : Prop where
  session : r.callerSessionId ≠ ""
  epoch : r.epoch ≠ 0
  g0 : validateG0 sha256 r = .ok ()
  g1 : validateG1 sha256 r = .ok ()
  g2 : validateG2 sha256 r = .ok ()
  g3 : validateG3 sha256 r = .ok ()
  g4 : validateG4 r = .ok ()
  g5 : validateG5 sha256 r = .ok ()
  g6 : validateG6 sha256 r = .ok ()
  g7 : validateG7 sha256 contractDigest r = .ok ()

theorem passGuard_eq_ok {guard : Guard} {check : Except KernelError Unit} {trace trace' : ExecutionTrace} :
    passGuard guard check trace = .ok trace' ↔ check = .ok () ∧ trace.pass guard = trace' := by
  cases check with
  | error e | ok u => simp [passGuard]

def permitOf (sha256 : List UInt8 → Sha256Digest) (r : PrepareRequest) : ExecutionPermit where
  permitId := permitDigest sha256 r admittedTrace
  request := r
  trace := admittedTrace
  expiryDeadlineMs := r.expiryDeadlineMs
  epoch := r.epoch
  callerSessionId := r.callerSessionId

theorem prepare_eq_ok {sha256 : List UInt8 → Sha256Digest} {contractDigest : Sha256Digest} {r : PrepareRequest}
    {p : ExecutionPermit} :
    prepare sha256 contractDigest r = .ok p ↔ Admitted sha256 contractDigest r ∧ permitOf sha256 r = p := by
  simp only [prepare, guard_eq_ok, bind_eq_ok, passGuard_eq_ok]
  constructor
  · rintro ⟨hsession, hepoch, t0, ⟨g0, rfl⟩, t1, ⟨g1, rfl⟩, t2, ⟨g2, rfl⟩, t3, ⟨g3, rfl⟩, t4, ⟨g4, rfl⟩, t5, ⟨g5, rfl⟩,
      t6, ⟨g6, rfl⟩, t7, ⟨g7, rfl⟩, h⟩
    exact ⟨⟨hsession, hepoch, g0, g1, g2, g3, g4, g5, g6, g7⟩, Except.ok.inj h⟩
  · rintro ⟨h, rfl⟩
    exact ⟨h.session, h.epoch, _, ⟨h.g0, rfl⟩, _, ⟨h.g1, rfl⟩, _, ⟨h.g2, rfl⟩, _, ⟨h.g3, rfl⟩, _, ⟨h.g4, rfl⟩, _,
      ⟨h.g5, rfl⟩, _, ⟨h.g6, rfl⟩, _, ⟨h.g7, rfl⟩, rfl⟩

end Zero.TwoPhase
