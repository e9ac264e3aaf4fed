import ZeroStack.Guarded.Runs
import ZeroStack.TwoPhase.Prepare

/-! The second phase: an execution takes the instructions of its plan one by one, closes or aborts, and is finalized
into a receipt. Its output and its effects stay with it until then. -/

open Wire Zero.Reasoning Zero.SemanticCut Zero.Quality Zero.RobustSnap

namespace Zero.TwoPhase

structure StagedEffect where
  effectDigest : Sha256Digest
  effectClass : EffectClass
  acceptanceDigest : Option Sha256Digest
  approvalGrantDigest : Option Sha256Digest
  preActionEvidenceDigest : Option Sha256Digest
  deriving DecidableEq

structure BrokeredExecution where
  permitId : Sha256Digest
  request : PrepareRequest
  trace : ExecutionTrace
  expiryDeadlineMs : UInt64
  epoch : UInt64
  callerSessionId : String
  nextInstruction : ℕ
  usage : ResourceUsage
  verificationDigest : Option Sha256Digest
  bufferedVisible : List UInt8
  stagedEffects : List StagedEffect
  deriving DecidableEq

def ExecutionPermit.execution (p : ExecutionPermit) : BrokeredExecution where
  permitId := p.permitId
  request := p.request
  trace := p.trace
  expiryDeadlineMs := p.expiryDeadlineMs
  epoch := p.epoch
  callerSessionId := p.callerSessionId
  nextInstruction := 0
  usage := {}
  verificationDigest := none
  bufferedVisible := []
  stagedEffects := []

def ExecutionPermit.startAt (p : ExecutionPermit) (nowMs : UInt64) : Except KernelError BrokeredExecution :=
  if p.expiryDeadlineMs < nowMs then
    .error (.execution .expiredPermit ("permit for session '" ++ p.callerSessionId ++ "' expired at deadline_ms=" ++
      toString p.expiryDeadlineMs ++ " (start now_ms=" ++ toString nowMs ++ ")"))
  else .ok p.execution

namespace BrokeredExecution

variable (x : BrokeredExecution)

def expect (expected : ControllerInstruction) : Except KernelError Unit :=
  match x.request.plan.instructions[x.nextInstruction]? with
  | some actual =>
    if actual = expected then .ok ()
    else .error (.execution .planStepMismatch s!"expected {actual.debug}, received {expected.debug}")
  | none => .error (.execution .incompleteExecution "controller plan is exhausted")

def advance : BrokeredExecution :=
  { x with
    nextInstruction := x.nextInstruction + 1
    trace := { x.trace with executedInstructions := UInt32.ofNat (x.nextInstruction + 1) } }

def checkUsage (usage : ResourceUsage) : Except KernelError Unit :=
  let envelope := x.request.envelope
  if usage.fuel ≤ envelope.fuel && usage.elapsedMs ≤ envelope.deadlineMs && usage.ioBytes ≤ envelope.ioBytes &&
      usage.memoryBytes ≤ envelope.memoryBytes && usage.processes ≤ envelope.processes &&
      usage.riskUnits ≤ envelope.riskUnits && usage.workerSteps ≤ envelope.workerSteps then .ok ()
  else .error (.execution .boundExceeded "worker usage exceeds fuel/deadline/I/O/memory/process/risk/step bounds")

/-! Each method returns its result and the execution after it. -/

def dispatch (owner : PeerOwner) (usage : ResourceUsage) : Except KernelError Unit × BrokeredExecution :=
  match x.expect (.dispatch owner) with
  | .error e => (.error e, x)
  | .ok () =>
    match x.usage.checkedAdd usage with
    | none => (.error (.execution .boundExceeded "resource counter overflow"), x)
    | some next =>
      match x.checkUsage next with
      | .error e => (.error e, x)
      | .ok () =>
        (.ok (), { x with usage := next, trace := { x.trace with workerSteps := next.workerSteps } }.advance)

def deterministicTransform : Except KernelError Unit × BrokeredExecution :=
  match x.expect .deterministicTransform with
  | .error e => (.error e, x)
  | .ok () => (.ok (), x.advance)

def recordVerification (evidenceDigest : Sha256Digest) : Except KernelError Unit × BrokeredExecution :=
  match x.expect .verify with
  | .error e => (.error e, x)
  | .ok () =>
    if isZero evidenceDigest then
      (.error (.execution .incompleteExecution "verification evidence digest is zero"), x)
    else (.ok (), { x with verificationDigest := some evidenceDigest }.advance)

def stageEffect (effect : StagedEffect) : Except KernelError Unit × BrokeredExecution :=
  let evidence := x.request.evidence
  match x.expect .stageEffect with
  | .error e => (.error e, x)
  | .ok () =>
    if effect.effectClass ≠ x.request.effectClass ∨ isZero effect.effectDigest ∨
        evidence.safetyShield.actionDigest ≠ some effect.effectDigest ∨
        evidence.safetyShield.acceptanceDigest ≠ effect.acceptanceDigest then
      (.error (.execution .planStepMismatch
        "staged effect does not match the admitted class, action, or acceptance"), x)
    else if effect.effectClass = .approvalRequiredMutation ∧
        (evidence.approvalGrantDigest = none ∨ effect.approvalGrantDigest ≠ evidence.approvalGrantDigest) then
      (.error (.execution .missingApprovalGrant "staged effect is not bound to the admitted approval grant"), x)
    else if effect.effectClass = .irreversible ∧ (evidence.irreversiblePreActionEvidenceDigest = none ∨
          effect.preActionEvidenceDigest ≠ evidence.irreversiblePreActionEvidenceDigest) then
      (.error (.execution .irreversiblePreEvidenceEffect
        "irreversible staged effect is not bound to admitted pre-action evidence"), x)
    else
      (.ok (), { x with
        stagedEffects := x.stagedEffects ++ [effect]
        trace := { x.trace with stagedEffects := UInt32.ofNat (x.stagedEffects ++ [effect]).length } }.advance)

def bufferVisible (bytes : List UInt8) : Except KernelError Unit × BrokeredExecution :=
  match x.expect .bufferVisible with
  | .error e => (.error e, x)
  | .ok () =>
    let newLen := x.bufferedVisible.length + bytes.length
    if 2 ^ 64 ≤ newLen then (.error (.execution .bufferOverflow "visible buffer length overflow"), x)
    else if x.request.envelope.outputBytes.toNat < newLen then
      (.error (.execution .bufferOverflow "visible bytes exceed the admitted output bound"), x)
    else
      (.ok (), { x with
        bufferedVisible := x.bufferedVisible ++ bytes
        trace := { x.trace with bufferedVisibleBytes := UInt64.ofNat newLen } }.advance)

def rejectEarlyPublish (_ : BrokeredExecution) : KernelError :=
  .execution .earlyVisibleByte "visible bytes remain private until G8/G9 finalize"

end BrokeredExecution

inductive Call where
  | dispatch (owner : PeerOwner) (usage : ResourceUsage)
  | deterministicTransform
  | recordVerification (evidenceDigest : Sha256Digest)
  | stageEffect (effect : StagedEffect)
  | bufferVisible (bytes : List UInt8)
  | rejectEarlyPublish
  deriving DecidableEq

def Call.perform : Call → BrokeredExecution → Except KernelError Unit × BrokeredExecution
  | .dispatch owner usage, x => x.dispatch owner usage
  | .deterministicTransform, x => x.deterministicTransform
  | .recordVerification evidenceDigest, x => x.recordVerification evidenceDigest
  | .stageEffect effect, x => x.stageEffect effect
  | .bufferVisible bytes, x => x.bufferVisible bytes
  | .rejectEarlyPublish, x => (.error x.rejectEarlyPublish, x)

def broker : Guarded.Object BrokeredExecution Call KernelError := ⟨Call.perform⟩

inductive ClosureKind where
  | commit
  | fallback
  deriving DecidableEq

inductive RestorationScope where
  | notApplicableCandidateCommit
  | declaredEffectClosure
  | projectJournalRootOnly
  deriving DecidableEq

structure RestorationAccounting where
  attempted : UInt64 := 0
  completed : UInt64 := 0
  debt : UInt64 := 0
  deriving DecidableEq

structure TransactionClosure where
  kind : ClosureKind
  root : Sha256Digest
  transactionReceiptDigest : Sha256Digest
  deoptimizationExecutionReceiptDigest : Option Sha256Digest
  deoptimizationKernelBindingDigest : Option Sha256Digest
  deoptimizationKernelAdmissionDigest : Option Sha256Digest
  actionDigest : Sha256Digest
  acceptanceDigest : Option Sha256Digest
  baselineState : Sha256Digest
  candidateState : Sha256Digest
  restorationScope : RestorationScope
  externalRestorationDebtCount : UInt16
  restoration : RestorationAccounting
  deriving DecidableEq

structure ReadyToFinalize where
  permitId : Sha256Digest
  request : PrepareRequest
  trace : ExecutionTrace
  usage : ResourceUsage
  verificationDigest : Option Sha256Digest
  bufferedVisible : List UInt8
  stagedEffects : List StagedEffect
  closure : TransactionClosure
  deriving DecidableEq

section Closing
variable (sha256 : List UInt8 → Sha256Digest)

def validateClosure (x : BrokeredExecution) (closure : TransactionClosure) (failure : Option FailureCode) :
    Except KernelError Unit :=
  let evidence := x.request.evidence
  if isZero closure.root ∨ isZero closure.transactionReceiptDigest ∨ isZero closure.actionDigest ∨
      closure.baselineState ≠ x.request.binding.stateSnapshotDigest ∨ closure.externalRestorationDebtCount ≠ 0 ∨
      closure.restoration.debt ≠ 0 ∨ closure.deoptimizationExecutionReceiptDigest.any isZero ∨
      closure.deoptimizationKernelBindingDigest.any isZero ∨ closure.deoptimizationKernelAdmissionDigest.any isZero then
    .error (.atGuard .incompleteTransactionClosure .g8TransactionClosure
      "transaction receipt, state binding, or restoration debt is not closed")
  else
    match closure.kind with
    | .commit =>
      if failure.isSome ∨ closure.deoptimizationExecutionReceiptDigest.isSome ∨
          closure.deoptimizationKernelBindingDigest.isSome ∨ closure.deoptimizationKernelAdmissionDigest.isSome ∨
          closure.restoration ≠ {} ∨ closure.root ≠ closure.candidateState ∨
          closure.restorationScope ≠ .notApplicableCandidateCommit ∨
          closure.acceptanceDigest ≠ evidence.safetyShield.acceptanceDigest ∨
          evidence.safetyShield.actionDigest ≠ some closure.actionDigest ∨
          evidence.performance.selection ≠ .candidate then
        .error (.atGuard .incompleteTransactionClosure .g8TransactionClosure
          "candidate commit is not bound to its accepted action, quality, and root")
      else .ok ()
    | .fallback =>
      if closure.deoptimizationExecutionReceiptDigest = none ∨
          closure.deoptimizationKernelBindingDigest ≠ some (x.request.binding.digest sha256) ∨
          closure.deoptimizationKernelAdmissionDigest ≠ some (x.request.admissionDigest sha256) ∨
          closure.restoration.attempted = 0 ∨ closure.restoration.completed ≠ closure.restoration.attempted ∨
          closure.restorationScope ≠ .declaredEffectClosure ∨
          (failure = none ∧ evidence.performance.selection ≠ .frozenBaseline) then
        .error (.atGuard .unaccountedFallback .g8TransactionClosure
          "fallback did not recover the declared baseline closure")
      else .ok ()

namespace BrokeredExecution

variable (x : BrokeredExecution)

def intoReady (closure : TransactionClosure) (failure : Option FailureCode) : Except KernelError ReadyToFinalize := do
  validateClosure sha256 x closure failure
  return {
    permitId := x.permitId
    request := x.request
    trace := x.trace.pass .g8TransactionClosure
    usage := x.usage
    verificationDigest := x.verificationDigest
    bufferedVisible := x.bufferedVisible
    stagedEffects := x.stagedEffects
    closure := closure }

def closeTransaction (closure : TransactionClosure) : Except KernelError ReadyToFinalize := do
  x.expect .closeTransaction
  let x := x.advance
  if x.nextInstruction ≠ x.request.plan.instructions.length ∨ x.verificationDigest = none then
    .error (.execution .incompleteExecution "plan or evidence closure is incomplete")
  else x.intoReady sha256 closure none

def abort (failure : FailureCode) (closure : TransactionClosure) : Except KernelError ReadyToFinalize :=
  if closure.kind ≠ .fallback then
    .error (.atGuard .incompleteTransactionClosure .g8TransactionClosure
      "aborted execution requires fallback restoration")
  else intoReady sha256 { x with trace := { x.trace with executionFailure := some failure } } closure (some failure)

end BrokeredExecution

inductive Ending where
  | closeTransaction (closure : TransactionClosure)
  | abort (failure : FailureCode) (closure : TransactionClosure)
  deriving DecidableEq

def Ending.perform (x : BrokeredExecution) : Ending → Except KernelError ReadyToFinalize
  | .closeTransaction closure => x.closeTransaction sha256 closure
  | .abort failure closure => x.abort sha256 failure closure

end Closing
end Zero.TwoPhase
