import ZeroStack.TwoPhase.Execution

/-! Receipts: what `finalize` commits to, the record of it, and the validator that recomputes every commitment. -/

open Wire Zero.Reasoning Zero.SemanticCut Zero.Quality Zero.RobustSnap

namespace Zero.TwoPhase

inductive ReceiptKind where
  | commit
  | fallback
  deriving DecidableEq

inductive AttributionClass where
  | fixed
  | changed
  deriving DecidableEq

@[ext]
structure ReceiptRecord where
  schemaVersion : UInt16
  kind : ReceiptKind
  permitId : Sha256Digest
  bindingDigest : Sha256Digest
  admissionDigest : Sha256Digest
  assemblyManifestDigest : Sha256Digest
  sourceTreeDigest : Sha256Digest
  sourceRepositoryHeads : List SourceHead
  imageDigest : Sha256Digest
  stateSnapshotDigest : Sha256Digest
  taskFingerprintDigest : Sha256Digest
  planDigest : Sha256Digest
  fixedModelDigest : Sha256Digest
  baselineReasoningContract : ReasoningContract
  reasoningContract : ReasoningContract
  baselineReasoningContractDigest : Sha256Digest
  reasoningContractDigest : Sha256Digest
  reasoningAdmission : StrictReasoningAdmissionRecord
  comparisonIdentityDigest : Sha256Digest
  semanticCutVerifierIdentityDigest : Sha256Digest
  artifactSetDigest : Sha256Digest
  semanticCutCertificateDigest : Sha256Digest
  semanticCut : SemanticCutCertificateRecord
  terminalRcqIdentityDigest : Sha256Digest
  snapCertificateDigest : Option Sha256Digest
  safetyShieldDigest : Sha256Digest
  qualityAdmission : QualityAdmissionRecord
  finalQualitySelection : QualitySelection
  transactionReceiptDigest : Sha256Digest
  deoptimizationExecutionReceiptDigest : Option Sha256Digest
  attributionClass : AttributionClass
  effectClass : EffectClass
  resourceEnvelope : WorkerEnvelope
  surface : ExecutionSurface
  verificationDigest : Option Sha256Digest
  outputDigest : Sha256Digest
  effectsDigest : Sha256Digest
  resourceUsage : ResourceUsage
  predecessorReceiptHead : Sha256Digest
  successorRoot : Sha256Digest
  traceDigest : Sha256Digest
  receiptHead : Sha256Digest
  failureCode : Option FailureCode
  restoration : RestorationAccounting
  deriving DecidableEq

structure ReceiptCommon where
  permitId : Sha256Digest
  binding : ExecutionBinding
  admissionDigest : Sha256Digest
  artifactSetDigest : Sha256Digest
  reasoningAdmission : StrictReasoningAdmissionRecord
  semanticCutCertificateDigest : Sha256Digest
  semanticCut : SemanticCutCertificateRecord
  terminalRcqIdentityDigest : Sha256Digest
  snapCertificateDigest : Option Sha256Digest
  safetyShieldDigest : Sha256Digest
  qualityAdmission : QualityAdmissionRecord
  finalQualitySelection : QualitySelection
  transactionReceiptDigest : Sha256Digest
  deoptimizationExecutionReceiptDigest : Option Sha256Digest
  attributionClass : AttributionClass
  effectClass : EffectClass
  resourceEnvelope : WorkerEnvelope
  surface : ExecutionSurface
  verificationDigest : Option Sha256Digest
  outputDigest : Sha256Digest
  effectsDigest : Sha256Digest
  usage : ResourceUsage
  successorRoot : Sha256Digest
  trace : ExecutionTrace
  receiptHead : Sha256Digest
  failureCode : Option FailureCode
  restoration : RestorationAccounting
  deriving DecidableEq

structure CommitReceipt where
  common : ReceiptCommon
  bufferedVisible : List UInt8
  stagedEffects : List StagedEffect
  deriving DecidableEq

structure FallbackReceipt where
  common : ReceiptCommon
  deriving DecidableEq

inductive FinalReceipt where
  | commit (receipt : CommitReceipt)
  | fallback (receipt : FallbackReceipt)
  deriving DecidableEq

def ReceiptKind.tag : ReceiptKind → UInt8
  | .commit => 0
  | .fallback => 1

def AttributionClass.tag : AttributionClass → UInt8
  | .fixed => 0
  | .changed => 1

def selectionTag : QualitySelection → UInt8
  | .candidate => 0
  | .frozenBaseline => 1

def RestorationAccounting.bytes (r : RestorationAccounting) : List UInt8 :=
  u64Bytes r.attempted ++ u64Bytes r.completed ++ u64Bytes r.debt

def receiptMessage (sha256 : List UInt8 → Sha256Digest) (kind : ReceiptKind) (permitId : Sha256Digest)
    (binding : ExecutionBinding)
    (admissionDigest artifactSetDigest reasoningAdmissionDigest semanticCutCertificateDigest
      terminalRcqIdentityDigest : Sha256Digest)
    (snapCertificateDigest : Option Sha256Digest) (safetyShieldDigest : Sha256Digest)
    (qualityAdmission : QualityAdmissionRecord) (finalQualitySelection : QualitySelection)
    (transactionReceiptDigest : Sha256Digest) (deoptimizationExecutionReceiptDigest : Option Sha256Digest)
    (attributionClass : AttributionClass) (effectClass : EffectClass) (envelope : WorkerEnvelope)
    (surface : ExecutionSurface) (verificationDigest : Option Sha256Digest) (outputDigest effectsDigest : Sha256Digest)
    (usage : ResourceUsage) (successorRoot traceDigest : Sha256Digest) (failure : Option FailureCode)
    (restoration : RestorationAccounting) : List UInt8 :=
  utf8Bytes "zerostack.kernel.receipt" ++ [0] ++ u16Bytes twoPhaseSchemaVersion ++ [kind.tag] ++ digestBytes permitId ++
    digestBytes (binding.digest sha256) ++ digestBytes admissionDigest ++ digestBytes artifactSetDigest ++
    digestBytes reasoningAdmissionDigest ++ digestBytes semanticCutCertificateDigest ++
    digestBytes terminalRcqIdentityDigest ++ optionalDigest snapCertificateDigest ++ digestBytes safetyShieldDigest ++
    digestBytes qualityAdmission.admissionDigest ++ [selectionTag finalQualitySelection] ++
    digestBytes transactionReceiptDigest ++ optionalDigest deoptimizationExecutionReceiptDigest ++
    [attributionClass.tag] ++ [effectClassTag effectClass] ++ envelope.bytes ++ [surface.tag] ++
    optionalDigest verificationDigest ++ digestBytes outputDigest ++ digestBytes effectsDigest ++ usage.bytes ++
    digestBytes binding.predecessorReceiptHead ++ digestBytes successorRoot ++ digestBytes traceDigest ++
    [failureTag failure] ++ restoration.bytes

def StagedEffect.bytes (e : StagedEffect) : List UInt8 :=
  digestBytes e.effectDigest ++ [effectClassTag e.effectClass] ++ optionalDigest e.acceptanceDigest ++
    optionalDigest e.approvalGrantDigest ++ optionalDigest e.preActionEvidenceDigest

def effectListDigest (sha256 : List UInt8 → Sha256Digest) (effects : List StagedEffect) : Sha256Digest :=
  sha256 (utf8Bytes "zerostack.kernel.effects" ++ [0] ++ beBytes 8 effects.length ++ effects.flatMap StagedEffect.bytes)

def ClosureKind.receiptKind : ClosureKind → ReceiptKind
  | .commit => .commit
  | .fallback => .fallback

def SnapEvidence.certificateDigest : SnapEvidence → Option Sha256Digest
  | .notClaimed => none
  | .verified certificate => some certificate.certificateDigest

def ReceiptKind.finalQualitySelection : ReceiptKind → QualitySelection
  | .commit => .candidate
  | .fallback => .frozenBaseline

namespace ReadyToFinalize

def finalTrace (ready : ReadyToFinalize) : ExecutionTrace := ready.trace.pass .g9ReceiptCommitment

section Digests
variable (sha256 : List UInt8 → Sha256Digest)

def common (ready : ReadyToFinalize) : ReceiptCommon :=
  let trace := ready.finalTrace
  let outputDigest := sha256 ready.bufferedVisible
  let effectsDigest := effectListDigest sha256 ready.stagedEffects
  let kind := ready.closure.kind.receiptKind
  let evidence := ready.request.evidence
  let admissionDigest := ready.request.admissionDigest sha256
  let terminalRcqIdentityDigest := evidence.semanticCut.claim.terminalRcqIdentityDigest sha256
  { permitId := ready.permitId
    binding := ready.request.binding
    admissionDigest := admissionDigest
    artifactSetDigest := evidence.artifacts.artifactSetDigest
    reasoningAdmission := evidence.reasoningAdmission
    semanticCutCertificateDigest := evidence.semanticCut.certificateDigest
    semanticCut := evidence.semanticCut
    terminalRcqIdentityDigest := terminalRcqIdentityDigest
    snapCertificateDigest := evidence.snap.certificateDigest
    safetyShieldDigest := evidence.safetyShield.shieldDigest
    qualityAdmission := evidence.performance
    finalQualitySelection := kind.finalQualitySelection
    transactionReceiptDigest := ready.closure.transactionReceiptDigest
    deoptimizationExecutionReceiptDigest := ready.closure.deoptimizationExecutionReceiptDigest
    attributionClass := .fixed
    effectClass := ready.request.effectClass
    resourceEnvelope := ready.request.envelope
    surface := ready.request.surface
    verificationDigest := ready.verificationDigest
    outputDigest := outputDigest
    effectsDigest := effectsDigest
    usage := ready.usage
    successorRoot := ready.closure.root
    trace := trace
    receiptHead := sha256 (receiptMessage sha256 kind ready.permitId ready.request.binding admissionDigest
      evidence.artifacts.artifactSetDigest evidence.reasoningAdmission.admissionDigest
      evidence.semanticCut.certificateDigest terminalRcqIdentityDigest evidence.snap.certificateDigest
      evidence.safetyShield.shieldDigest evidence.performance kind.finalQualitySelection
      ready.closure.transactionReceiptDigest ready.closure.deoptimizationExecutionReceiptDigest .fixed
      ready.request.effectClass ready.request.envelope ready.request.surface ready.verificationDigest outputDigest
      effectsDigest ready.usage ready.closure.root (trace.digest sha256) trace.executionFailure
      ready.closure.restoration)
    failureCode := trace.executionFailure
    restoration := ready.closure.restoration }

def finalize (ready : ReadyToFinalize) : Except KernelError FinalReceipt := do
  ready.finalTrace.verifyComplete
  return match ready.closure.kind.receiptKind with
  | .commit => .commit ⟨ready.common sha256, ready.bufferedVisible, ready.stagedEffects⟩
  | .fallback => .fallback ⟨ready.common sha256⟩

end Digests
end ReadyToFinalize

def ReceiptCommon.record (sha256 : List UInt8 → Sha256Digest) (c : ReceiptCommon) (kind : ReceiptKind) :
    ReceiptRecord where
  schemaVersion := twoPhaseSchemaVersion
  kind := kind
  permitId := c.permitId
  bindingDigest := c.binding.digest sha256
  admissionDigest := c.admissionDigest
  assemblyManifestDigest := c.binding.assemblyManifestDigest
  sourceTreeDigest := c.binding.sourceTreeDigest
  sourceRepositoryHeads := c.binding.sourceRepositoryHeads
  imageDigest := c.binding.imageDigest
  stateSnapshotDigest := c.binding.stateSnapshotDigest
  taskFingerprintDigest := c.binding.taskFingerprintDigest
  planDigest := c.binding.planDigest
  fixedModelDigest := c.binding.fixedModelDigest
  baselineReasoningContract := c.binding.baselineReasoningContract
  reasoningContract := c.binding.reasoningContract
  baselineReasoningContractDigest := c.binding.baselineReasoningContractDigest
  reasoningContractDigest := c.binding.reasoningContractDigest
  reasoningAdmission := c.reasoningAdmission
  comparisonIdentityDigest := c.binding.comparisonIdentityDigest
  semanticCutVerifierIdentityDigest := c.binding.semanticCutVerifierIdentityDigest
  artifactSetDigest := c.artifactSetDigest
  semanticCutCertificateDigest := c.semanticCutCertificateDigest
  semanticCut := c.semanticCut
  terminalRcqIdentityDigest := c.terminalRcqIdentityDigest
  snapCertificateDigest := c.snapCertificateDigest
  safetyShieldDigest := c.safetyShieldDigest
  qualityAdmission := c.qualityAdmission
  finalQualitySelection := c.finalQualitySelection
  transactionReceiptDigest := c.transactionReceiptDigest
  deoptimizationExecutionReceiptDigest := c.deoptimizationExecutionReceiptDigest
  attributionClass := c.attributionClass
  effectClass := c.effectClass
  resourceEnvelope := c.resourceEnvelope
  surface := c.surface
  verificationDigest := c.verificationDigest
  outputDigest := c.outputDigest
  effectsDigest := c.effectsDigest
  resourceUsage := c.usage
  predecessorReceiptHead := c.binding.predecessorReceiptHead
  successorRoot := c.successorRoot
  traceDigest := c.trace.digest sha256
  receiptHead := c.receiptHead
  failureCode := c.failureCode
  restoration := c.restoration

def FinalReceipt.record (sha256 : List UInt8 → Sha256Digest) : FinalReceipt → ReceiptRecord
  | .commit receipt => receipt.common.record sha256 .commit
  | .fallback receipt => receipt.common.record sha256 .fallback

namespace ReceiptRecord

variable (r : ReceiptRecord)

def binding : ExecutionBinding where
  schemaVersion := r.schemaVersion
  assemblyManifestDigest := r.assemblyManifestDigest
  sourceTreeDigest := r.sourceTreeDigest
  sourceRepositoryHeads := r.sourceRepositoryHeads
  imageDigest := r.imageDigest
  stateSnapshotDigest := r.stateSnapshotDigest
  taskFingerprintDigest := r.taskFingerprintDigest
  planDigest := r.planDigest
  fixedModelDigest := r.fixedModelDigest
  baselineReasoningContract := r.baselineReasoningContract
  reasoningContract := r.reasoningContract
  baselineReasoningContractDigest := r.baselineReasoningContractDigest
  reasoningContractDigest := r.reasoningContractDigest
  comparisonIdentityDigest := r.comparisonIdentityDigest
  semanticCutVerifierIdentityDigest := r.semanticCutVerifierIdentityDigest
  predecessorReceiptHead := r.predecessorReceiptHead

def required : List Sha256Digest :=
  [r.permitId, r.bindingDigest, r.admissionDigest, r.assemblyManifestDigest, r.sourceTreeDigest, r.imageDigest,
    r.stateSnapshotDigest, r.taskFingerprintDigest, r.planDigest, r.fixedModelDigest,
    r.baselineReasoningContractDigest, r.reasoningContractDigest, r.reasoningAdmission.admissionDigest,
    r.comparisonIdentityDigest, r.semanticCutVerifierIdentityDigest, r.artifactSetDigest,
    r.semanticCutCertificateDigest, r.terminalRcqIdentityDigest, r.safetyShieldDigest,
    r.qualityAdmission.admissionDigest, r.transactionReceiptDigest, r.outputDigest, r.effectsDigest,
    r.predecessorReceiptHead, r.successorRoot, r.traceDigest, r.receiptHead]

def closureValid : Bool :=
  match r.kind with
  | .commit => r.deoptimizationExecutionReceiptDigest.isNone && r.failureCode.isNone && r.restoration = {}
  | .fallback => r.deoptimizationExecutionReceiptDigest.isSome && r.restoration.debt = 0 &&
      Numeric.checkedAdd r.restoration.completed r.restoration.debt = some r.restoration.attempted

section Digests
variable (sha256 : List UInt8 → Sha256Digest)

def headMessage (r : ReceiptRecord) : List UInt8 :=
  receiptMessage sha256 r.kind r.permitId r.binding r.admissionDigest r.artifactSetDigest
    r.reasoningAdmission.admissionDigest r.semanticCutCertificateDigest r.terminalRcqIdentityDigest
    r.snapCertificateDigest r.safetyShieldDigest r.qualityAdmission r.finalQualitySelection r.transactionReceiptDigest
    r.deoptimizationExecutionReceiptDigest r.attributionClass r.effectClass r.resourceEnvelope r.surface
    r.verificationDigest r.outputDigest r.effectsDigest r.resourceUsage r.successorRoot r.traceDigest r.failureCode
    r.restoration

end Digests
end ReceiptRecord

section Digests
variable (sha256 : List UInt8 → Sha256Digest)

def reasoningReceiptFieldsValid (r : ReceiptRecord) : Bool :=
  reasoningFieldsValid sha256 r.baselineReasoningContract r.reasoningContract r.baselineReasoningContractDigest
    r.reasoningContractDigest r.fixedModelDigest r.reasoningAdmission

def semanticCutReceiptFieldsValid (r : ReceiptRecord) : Bool :=
  let claim := r.semanticCut.claim
  isOk (r.semanticCut.validate sha256) && r.semanticCut.certificateDigest = r.semanticCutCertificateDigest &&
    r.semanticCut.verifierIdentityDigest = r.semanticCutVerifierIdentityDigest &&
    claim.terminalRcqIdentityDigest sha256 = r.terminalRcqIdentityDigest &&
    claim.inputProjectControlRoot = r.stateSnapshotDigest && claim.compiledPlanDigest = r.planDigest &&
    claim.fixedModelDigest = r.fixedModelDigest && claim.reasoningContractDigest = r.reasoningContractDigest &&
    claim.comparisonIdentityDigest = r.comparisonIdentityDigest &&
    claim.certificateScopeDigest = r.taskFingerprintDigest

variable (contractDigest : Sha256Digest)

def qualityReceiptFieldsValid (r : ReceiptRecord) : Bool :=
  let quality := r.qualityAdmission
  isOk (quality.validate sha256) && quality.comparisonIdentityDigest = r.comparisonIdentityDigest &&
    (quality.evidenceClass = .distributional || quality.scopeDigest = r.taskFingerprintDigest) &&
    (!namesCandidate quality.evidenceClass ||
      quality.candidateIdentityDigest = some (candidateProtocolIdentity sha256 contractDigest r.binding)) &&
    r.finalQualitySelection = r.kind.finalQualitySelection &&
    (r.kind ≠ .commit || quality.selection = .candidate)

def validateReceiptRecord (r : ReceiptRecord) : Except KernelError Unit :=
  if r.schemaVersion ≠ twoPhaseSchemaVersion then
    .error (.execution .forgedReceipt "receipt schema version is not current")
  else do
    validateSourceHeads r.sourceRepositoryHeads
    if r.required.any isZero || r.verificationDigest.any isZero || r.snapCertificateDigest.any isZero ||
        r.deoptimizationExecutionReceiptDigest.any isZero || r.binding.digest sha256 ≠ r.bindingDigest ||
        r.attributionClass ≠ .fixed || r.resourceEnvelope.hasZero || !reasoningReceiptFieldsValid sha256 r ||
        !semanticCutReceiptFieldsValid sha256 r || !qualityReceiptFieldsValid sha256 contractDigest r then
      .error (.execution .forgedReceipt
        "receipt contains a zero, noncanonical, changed-attribution, or mismatched binding")
    else if !r.closureValid then
      .error (.execution .forgedReceipt "receipt kind, failure, or restoration accounting is inconsistent")
    else if r.receiptHead ≠ sha256 (r.headMessage sha256) then
      .error (.execution .forgedReceipt "receipt head does not match its canonical fields")
    else .ok ()

end Digests

structure Validates (sha256 : List UInt8 → Sha256Digest) (contractDigest : Sha256Digest) (r : ReceiptRecord) :
    Prop where
  schema : r.schemaVersion = twoPhaseSchemaVersion
  heads : validateSourceHeads r.sourceRepositoryHeads = .ok ()
  required : ∀ d ∈ r.required, isZero d = false
  verification : r.verificationDigest.any isZero = false
  snap : r.snapCertificateDigest.any isZero = false
  deoptimization : r.deoptimizationExecutionReceiptDigest.any isZero = false
  binding : r.binding.digest sha256 = r.bindingDigest
  attribution : r.attributionClass = .fixed
  envelope : r.resourceEnvelope.hasZero = false
  reasoning : reasoningReceiptFieldsValid sha256 r = true
  cut : semanticCutReceiptFieldsValid sha256 r = true
  quality : qualityReceiptFieldsValid sha256 contractDigest r = true
  closure : r.closureValid = true
  head : r.receiptHead = sha256 (r.headMessage sha256)

theorem validateReceiptRecord_eq_ok {sha256 : List UInt8 → Sha256Digest} {contractDigest : Sha256Digest}
    {r : ReceiptRecord} :
    validateReceiptRecord sha256 contractDigest r = .ok () ↔ Validates sha256 contractDigest r := by
  simp only [validateReceiptRecord, guard_eq_ok, bind_eq_ok, Bool.or_eq_true, not_or, Bool.not_eq_true,
    Bool.not_eq_true', Bool.not_eq_false, decide_eq_false_iff_not, not_not, List.any_eq_false]
  constructor
  · rintro ⟨hschema, u, hheads, ⟨⟨⟨⟨⟨⟨⟨⟨⟨hrequired, hverification⟩, hsnap⟩, hdeoptimization⟩, hbinding⟩, hattribution⟩,
      henvelope⟩, hreasoning⟩, hcut⟩, hquality⟩, hclosure, hhead, -⟩
    exact ⟨hschema, hheads, hrequired, hverification, hsnap, hdeoptimization, hbinding, hattribution, henvelope,
      hreasoning, hcut, hquality, hclosure, hhead⟩
  · intro h
    exact ⟨h.schema, (), h.heads, ⟨⟨⟨⟨⟨⟨⟨⟨⟨h.required, h.verification⟩, h.snap⟩, h.deoptimization⟩, h.binding⟩,
      h.attribution⟩, h.envelope⟩, h.reasoning⟩, h.cut⟩, h.quality⟩, h.closure, h.head, trivial⟩

end Zero.TwoPhase
