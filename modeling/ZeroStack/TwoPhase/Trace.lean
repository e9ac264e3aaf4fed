import ZeroStack.Abi
import ZeroStack.Wire.Messages

/-! The ten guards of the kernel and the trace of those that have been passed. -/

open Wire

namespace Zero.TwoPhase

def twoPhaseSchemaVersion : UInt16 := 6
def guardCount : ℕ := 10

inductive Guard where
  | g0Canonical
  | g1Coherence
  | g2FinitePlan
  | g3Attribution
  | g4Resources
  | g5RobustSnap
  | g6SafetyShield
  | g7Performance
  | g8TransactionClosure
  | g9ReceiptCommitment
  deriving DecidableEq

namespace Guard

def all : List Guard :=
  [.g0Canonical, .g1Coherence, .g2FinitePlan, .g3Attribution, .g4Resources, .g5RobustSnap, .g6SafetyShield,
    .g7Performance, .g8TransactionClosure, .g9ReceiptCommitment]

def tag (g : Guard) : UInt8 := UInt8.ofNat g.ctorIdx

def predecessor (g : Guard) : Option Guard := if g.ctorIdx = 0 then none else all[g.ctorIdx - 1]?

def debug : Guard → String
  | .g0Canonical => "G0Canonical"
  | .g1Coherence => "G1Coherence"
  | .g2FinitePlan => "G2FinitePlan"
  | .g3Attribution => "G3Attribution"
  | .g4Resources => "G4Resources"
  | .g5RobustSnap => "G5RobustSnap"
  | .g6SafetyShield => "G6SafetyShield"
  | .g7Performance => "G7Performance"
  | .g8TransactionClosure => "G8TransactionClosure"
  | .g9ReceiptCommitment => "G9ReceiptCommitment"

end Guard

inductive GuardStatus where
  | passed
  deriving DecidableEq

structure GuardEvent where
  guard : Guard
  predecessor : Option Guard
  status : GuardStatus
  deriving DecidableEq

inductive FailureCode where
  | schemaVersionMismatch
  | missingBinding
  | invalidSourceIdentity
  | canonicalDigestMismatch
  | coherenceFailure
  | invalidPlan
  | planDigestMismatch
  | reasoningContractMismatch
  | semanticCutCrossing
  | attributionChanged
  | unboundedWorker
  | boundExceeded
  | missingSnapCertificate
  | missingSafetyShield
  | irreversiblePreEvidenceEffect
  | performanceUnknown
  | executeWithoutPermit
  | expiredPermit
  | forgedPermit
  | planStepMismatch
  | bufferOverflow
  | earlyVisibleByte
  | incompleteExecution
  | incompleteTrace
  | forgedPredecessor
  | incompleteTransactionClosure
  | unaccountedFallback
  | missingApprovalGrant
  | forgedReceipt
  deriving DecidableEq

def FailureCode.tag (c : FailureCode) : UInt8 := UInt8.ofNat c.ctorIdx

def failureTag (failure : Option FailureCode) : UInt8 :=
  match failure with
  | none => 255
  | some code => code.tag

structure KernelError where
  code : FailureCode
  guard : Option Guard
  detail : String
  deriving DecidableEq

namespace KernelError

def atGuard (code : FailureCode) (guard : Guard) (detail : String) : KernelError := ⟨code, some guard, detail⟩

def execution (code : FailureCode) (detail : String) : KernelError := ⟨code, none, detail⟩

end KernelError

structure ExecutionTrace where
  events : List GuardEvent
  executedInstructions : UInt32
  workerSteps : UInt64
  bufferedVisibleBytes : UInt64
  stagedEffects : UInt32
  executionFailure : Option FailureCode
  deriving DecidableEq

namespace ExecutionTrace

def new : ExecutionTrace := ⟨[], 0, 0, 0, 0, none⟩

def event (guard : Guard) : GuardEvent := ⟨guard, guard.predecessor, .passed⟩

variable (trace : ExecutionTrace)

def pass (guard : Guard) : ExecutionTrace :=
  { trace with events := trace.events ++ [event guard] }

def verifyFrom : ℕ → List GuardEvent → Except KernelError Unit
  | _, [] => .ok ()
  | index, e :: rest =>
    match Guard.all[index]? with
    -- there are no more events than guards
    | none => .ok ()
    | some expected =>
      if e.guard ≠ expected then
        .error (.execution .incompleteTrace
          s!"expected {expected.debug} at index {index}, found {e.guard.debug}")
      else if e.predecessor ≠ expected.predecessor then
        .error (.execution .forgedPredecessor s!"invalid predecessor for {expected.debug}")
      else if e.status ≠ .passed then .error (.execution .incompleteTrace s!"{expected.debug} did not pass")
      else verifyFrom (index + 1) rest

def verifyPrefix : Except KernelError Unit :=
  if guardCount < trace.events.length then .error (.execution .incompleteTrace "guard trace exceeds G0-G9")
  else verifyFrom 0 trace.events

def verifyComplete : Except KernelError Unit := do
  trace.verifyPrefix
  if trace.events.length ≠ guardCount then
    .error (.execution .incompleteTrace s!"expected {guardCount} guards, found {trace.events.length}")
  else .ok ()

def message : List UInt8 :=
  utf8Bytes "zerostack.kernel.trace" ++ [0] ++ u16Bytes twoPhaseSchemaVersion ++
    trace.events.flatMap (fun e => [e.guard.tag, (e.predecessor.map Guard.tag).getD 255, 0]) ++
    u32Bytes trace.executedInstructions ++ u64Bytes trace.workerSteps ++ u64Bytes trace.bufferedVisibleBytes ++
    u32Bytes trace.stagedEffects ++ [failureTag trace.executionFailure]

def digest (sha256 : List UInt8 → Sha256Digest) (trace : ExecutionTrace) : Sha256Digest := sha256 trace.message

end ExecutionTrace

theorem FailureCode.ctorIdx_inj : Function.Injective FailureCode.ctorIdx := by
  intro c d h
  have hleft := FailureCode.ofNat_ctorIdx c
  rw [h, FailureCode.ofNat_ctorIdx] at hleft
  exact hleft.symm

theorem FailureCode.ctorIdx_lt (c : FailureCode) : c.ctorIdx < 29 := by
  cases c <;> decide

theorem FailureCode.toNat_tag (c : FailureCode) : c.tag.toNat = c.ctorIdx := by
  have hlt := c.ctorIdx_lt
  rw [tag, UInt8.toNat_ofNat']
  omega

theorem failureTag_inj : Function.Injective failureTag := by
  intro a b h
  have hcode : ∀ c, (failureTag (some c)).toNat = c.ctorIdx := fun c => c.toNat_tag
  have hnone : (failureTag none).toNat = 255 := rfl
  have htags := congrArg UInt8.toNat h
  cases a with
  | none =>
    cases b with
    | none => rfl
    | some d =>
      have hlt := d.ctorIdx_lt
      rw [hcode] at htags
      omega
  | some c =>
    cases b with
    | none =>
      have hlt := c.ctorIdx_lt
      rw [hcode] at htags
      omega
    | some d =>
      rw [hcode, hcode] at htags
      rw [FailureCode.ctorIdx_inj htags]

end Zero.TwoPhase
