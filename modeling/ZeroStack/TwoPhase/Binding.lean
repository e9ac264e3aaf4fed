import ZeroStack.Numeric
import ZeroStack.Reasoning.Admission
import ZeroStack.TwoPhase.Trace

/-! What an execution is bound to: its sources and identities, the plan of its instructions, and the resources that it
may use. -/

open Wire Zero.Reasoning List

namespace Zero.TwoPhase

def maxSourceRepositories : ℕ := 64
def maxControllerInstructions : ℕ := 4096

def isZero (d : Sha256Digest) : Bool := d = Sha256Digest.zero

theorem isZero_eq_false {d : Sha256Digest} : isZero d = false ↔ d ≠ Sha256Digest.zero := by
  simp [isZero]

def optionalDigest (d : Option Sha256Digest) : List UInt8 := optionBytes digestBytes d

structure SourceHead where
  repository : String
  head : String
  deriving DecidableEq

namespace SourceHead

def before (a b : SourceHead) : Bool := a.repository < b.repository || (a.repository = b.repository && a.head < b.head)

def isRepositoryByte (b : UInt8) : Bool :=
  (48 ≤ b && b ≤ 57) || (65 ≤ b && b ≤ 90) || (97 ≤ b && b ≤ 122) || b = 46 || b = 95 || b = 45

def isHeadByte (b : UInt8) : Bool := (48 ≤ b && b ≤ 57) || (97 ≤ b && b ≤ 102)

variable (s : SourceHead)

def repositoryValid : Bool :=
  s.repository ≠ "" && (utf8Bytes s.repository).length ≤ 64 && (utf8Bytes s.repository).all isRepositoryByte

def headValid : Bool :=
  40 ≤ (utf8Bytes s.head).length && (utf8Bytes s.head).length ≤ 64 && (utf8Bytes s.head).all isHeadByte

def bytes : List UInt8 := boundedBytes (utf8Bytes s.repository) ++ boundedBytes (utf8Bytes s.head)

end SourceHead

def checkSourceHeads : Option SourceHead → List SourceHead → List SourceHead → Except KernelError Unit
  | _, _, [] => .ok ()
  | previous, unique, source :: rest =>
    if !source.repositoryValid || !source.headValid || source ∈ unique then
      .error (.atGuard .invalidSourceIdentity .g1Coherence "source heads must be bounded, canonical, and unique")
    else if previous.any fun prior => !prior.before source then
      .error (.atGuard .invalidSourceIdentity .g1Coherence "source heads must be strictly sorted")
    else checkSourceHeads (some source) (source :: unique) rest

def validateSourceHeads (heads : List SourceHead) : Except KernelError Unit :=
  if heads = [] ∨ maxSourceRepositories < heads.length then
    .error (.atGuard .invalidSourceIdentity .g1Coherence "source head count is outside the frozen bound")
  else checkSourceHeads none [] heads

structure ExecutionBinding where
  schemaVersion : UInt16
  assemblyManifestDigest : Sha256Digest
  sourceTreeDigest : Sha256Digest
  sourceRepositoryHeads : List SourceHead
  imageDigest : Sha256Digest
  stateSnapshotDigest : Sha256Digest
  taskFingerprintDigest : Sha256Digest
  planDigest : Sha256Digest
  fixedModelDigest : Sha256Digest
  baselineReasoningContract : ReasoningContract
  reasoningContract : ReasoningContract
  baselineReasoningContractDigest : Sha256Digest
  reasoningContractDigest : Sha256Digest
  comparisonIdentityDigest : Sha256Digest
  semanticCutVerifierIdentityDigest : Sha256Digest
  predecessorReceiptHead : Sha256Digest
  deriving DecidableEq

namespace ExecutionBinding

def message (b : ExecutionBinding) : List UInt8 :=
  utf8Bytes "zerostack.kernel.binding" ++ [0] ++ u16Bytes b.schemaVersion ++ digestBytes b.assemblyManifestDigest ++
    digestBytes b.sourceTreeDigest ++ beBytes 8 b.sourceRepositoryHeads.length ++
    b.sourceRepositoryHeads.flatMap SourceHead.bytes ++ digestBytes b.imageDigest ++
    digestBytes b.stateSnapshotDigest ++ digestBytes b.taskFingerprintDigest ++ digestBytes b.planDigest ++
    digestBytes b.fixedModelDigest ++ digestBytes b.baselineReasoningContractDigest ++
    digestBytes b.reasoningContractDigest ++ digestBytes b.comparisonIdentityDigest ++
    digestBytes b.semanticCutVerifierIdentityDigest ++ digestBytes b.predecessorReceiptHead

def digest (sha256 : List UInt8 → Sha256Digest) (b : ExecutionBinding) : Sha256Digest := sha256 b.message

end ExecutionBinding

def candidateProtocolIdentity (sha256 : List UInt8 → Sha256Digest) (contractDigest : Sha256Digest)
    (b : ExecutionBinding) : Sha256Digest :=
  sha256 (utf8Bytes "ZERO.TWO_PHASE.CANDIDATE_PROTOCOL" ++ [0] ++ digestBytes b.assemblyManifestDigest ++
    digestBytes b.sourceTreeDigest ++ digestBytes b.imageDigest ++ digestBytes b.fixedModelDigest ++
    digestBytes b.reasoningContractDigest ++ digestBytes contractDigest)

def effectClassTag : EffectClass → UInt8
  | .readOnly => 0
  | .reversibleMutation => 1
  | .approvalRequiredMutation => 2
  | .irreversible => 3

inductive PeerOwner where
  | fsZero
  | graphZero
  | tokenZero
  | zeroStack
  deriving DecidableEq

inductive ExecutionSurface where
  | mcp
  | cli
  deriving DecidableEq

def ExecutionSurface.tag : ExecutionSurface → UInt8
  | .mcp => 0
  | .cli => 1

inductive ControllerInstruction where
  | dispatch (owner : PeerOwner)
  | deterministicTransform
  | verify
  | stageEffect
  | bufferVisible
  | closeTransaction
  deriving DecidableEq

def PeerOwner.debug : PeerOwner → String
  | .fsZero => "FsZero"
  | .graphZero => "GraphZero"
  | .tokenZero => "TokenZero"
  | .zeroStack => "ZeroStack"

namespace ControllerInstruction

def tag : ControllerInstruction → UInt8
  | .dispatch owner => 0x10 + UInt8.ofNat owner.ctorIdx
  | .deterministicTransform => 0x20
  | .verify => 0x30
  | .stageEffect => 0x40
  | .bufferVisible => 0x50
  | .closeTransaction => 0x60

def debug : ControllerInstruction → String
  | .dispatch owner => "Dispatch \x7b owner: " ++ owner.debug ++ " \x7d"
  | .deterministicTransform => "DeterministicTransform"
  | .verify => "Verify"
  | .stageEffect => "StageEffect"
  | .bufferVisible => "BufferVisible"
  | .closeTransaction => "CloseTransaction"

def isDispatch : ControllerInstruction → Bool
  | .dispatch _ => true
  | _ => false

end ControllerInstruction

structure ControllerPlan where
  instructions : List ControllerInstruction
  deriving DecidableEq

def ControllerPlan.digest (sha256 : List UInt8 → Sha256Digest) (plan : ControllerPlan) : Sha256Digest :=
  sha256 (utf8Bytes "zerostack.kernel.plan" ++ [0] ++ beBytes 8 plan.instructions.length ++
    plan.instructions.map ControllerInstruction.tag)

structure WorkerEnvelope where
  fuel : UInt64
  deadlineMs : UInt64
  ioBytes : UInt64
  outputBytes : UInt64
  memoryBytes : UInt64
  processes : UInt32
  riskUnits : UInt64
  workerSteps : UInt64
  deriving DecidableEq

namespace WorkerEnvelope

def hasZero (e : WorkerEnvelope) : Bool :=
  e.fuel = 0 || e.deadlineMs = 0 || e.ioBytes = 0 || e.outputBytes = 0 || e.memoryBytes = 0 || e.processes = 0 ||
    e.riskUnits = 0 || e.workerSteps = 0

def bytes (e : WorkerEnvelope) : List UInt8 :=
  u64Bytes e.fuel ++ u64Bytes e.deadlineMs ++ u64Bytes e.ioBytes ++ u64Bytes e.outputBytes ++ u64Bytes e.memoryBytes ++
    u32Bytes e.processes ++ u64Bytes e.riskUnits ++ u64Bytes e.workerSteps

end WorkerEnvelope

structure ResourceUsage where
  fuel : UInt64 := 0
  elapsedMs : UInt64 := 0
  ioBytes : UInt64 := 0
  memoryBytes : UInt64 := 0
  processes : UInt32 := 0
  riskUnits : UInt64 := 0
  workerSteps : UInt64 := 0
  deriving DecidableEq

namespace ResourceUsage

/-- What accumulates is added up, what is occupied at one time counts at its peak. -/
def checkedAdd (u delta : ResourceUsage) : Option ResourceUsage := do
  return {
    fuel := ← Numeric.checkedAdd u.fuel delta.fuel
    elapsedMs := ← Numeric.checkedAdd u.elapsedMs delta.elapsedMs
    ioBytes := ← Numeric.checkedAdd u.ioBytes delta.ioBytes
    memoryBytes := max u.memoryBytes delta.memoryBytes
    processes := max u.processes delta.processes
    riskUnits := ← Numeric.checkedAdd u.riskUnits delta.riskUnits
    workerSteps := ← Numeric.checkedAdd u.workerSteps delta.workerSteps }

def bytes (u : ResourceUsage) : List UInt8 :=
  u64Bytes u.fuel ++ u64Bytes u.elapsedMs ++ u64Bytes u.ioBytes ++ u64Bytes u.memoryBytes ++ u32Bytes u.processes ++
    u64Bytes u.riskUnits ++ u64Bytes u.workerSteps

end ResourceUsage

/-! Each part of a message says where it ends. -/

theorem delimited_digestBytes : Delimited digestBytes := delimited_of_length length_digestBytes digestBytes_inj

theorem delimited_optionalDigest : Delimited optionalDigest := delimited_digestBytes.optionBytes

theorem effectClassTag_inj : Function.Injective effectClassTag := by
  intro a b h
  cases a <;> cases b <;> first | rfl | exact absurd h (by decide)

theorem ExecutionSurface.tag_inj : Function.Injective ExecutionSurface.tag := by
  intro a b h
  cases a <;> cases b <;> first | rfl | exact absurd h (by decide)

theorem WorkerEnvelope.delimited_bytes : Delimited WorkerEnvelope.bytes := by
  intro a b r s h
  simp only [bytes, append_assoc, delimited_u64Bytes.append_inj, delimited_u32Bytes.append_inj] at h
  obtain ⟨hfuel, hdeadline, hio, houtput, hmemory, hprocesses, hrisk, hsteps, hrest⟩ := h
  cases a
  cases b
  cases hfuel; cases hdeadline; cases hio; cases houtput; cases hmemory; cases hprocesses; cases hrisk; cases hsteps
  exact ⟨rfl, hrest⟩

theorem ResourceUsage.delimited_bytes : Delimited ResourceUsage.bytes := by
  intro a b r s h
  simp only [bytes, append_assoc, delimited_u64Bytes.append_inj, delimited_u32Bytes.append_inj] at h
  obtain ⟨hfuel, helapsed, hio, hmemory, hprocesses, hrisk, hsteps, hrest⟩ := h
  cases a
  cases b
  cases hfuel; cases helapsed; cases hio; cases hmemory; cases hprocesses; cases hrisk; cases hsteps
  exact ⟨rfl, hrest⟩

theorem checkSourceHeads_valid {previous : Option SourceHead} {unique heads : List SourceHead}
    (h : checkSourceHeads previous unique heads = .ok ()) :
    ∀ s ∈ heads, s.repositoryValid = true ∧ s.headValid = true := by
  induction heads generalizing previous unique with
  | nil => exact fun s hs => absurd hs not_mem_nil
  | cons source rest ih =>
    obtain ⟨hvalid, h⟩ := guard_eq_ok.mp h
    obtain ⟨-, hrest⟩ := guard_eq_ok.mp h
    simp only [Bool.or_eq_true, Bool.not_eq_true', not_or, Bool.not_eq_false] at hvalid
    intro s hs
    rcases mem_cons.mp hs with rfl | hs
    · exact hvalid.1
    · exact ih hrest s hs

theorem SourceHead.bytes_append_inj {a b : SourceHead} (ha : a.repositoryValid = true ∧ a.headValid = true)
    (hb : b.repositoryValid = true ∧ b.headValid = true) {r s : List UInt8} (h : a.bytes ++ r = b.bytes ++ s) :
    a = b ∧ r = s := by
  have hsmall : ∀ c : SourceHead, c.repositoryValid = true ∧ c.headValid = true →
      (utf8Bytes c.repository).length < 2 ^ 64 ∧ (utf8Bytes c.head).length < 2 ^ 64 := by
    intro c hc
    simp only [repositoryValid, headValid, Bool.and_eq_true, decide_eq_true_eq] at hc
    have hfits : 64 < 2 ^ 64 := by decide
    exact ⟨hc.1.1.2.trans_lt hfits, hc.2.1.2.trans_lt hfits⟩
  simp only [bytes, append_assoc] at h
  obtain ⟨hrepository, h⟩ := (boundedBytes_append_inj (hsmall a ha).1 (hsmall b hb).1).mp h
  obtain ⟨hhead, hrest⟩ := (boundedBytes_append_inj (hsmall a ha).2 (hsmall b hb).2).mp h
  cases a
  cases b
  cases utf8Bytes_inj hrepository
  cases utf8Bytes_inj hhead
  exact ⟨rfl, hrest⟩

theorem ExecutionBinding.eq_of_message {a b : ExecutionBinding}
    (ha : validateSourceHeads a.sourceRepositoryHeads = .ok ())
    (hb : validateSourceHeads b.sourceRepositoryHeads = .ok ())
    (hbaseline : a.baselineReasoningContractDigest = b.baselineReasoningContractDigest →
      a.baselineReasoningContract = b.baselineReasoningContract)
    (hcontract : a.reasoningContractDigest = b.reasoningContractDigest → a.reasoningContract = b.reasoningContract)
    (h : a.message = b.message) : a = b := by
  obtain ⟨hcount, hheads⟩ := guard_eq_ok.mp ha
  obtain ⟨hcount', hheads'⟩ := guard_eq_ok.mp hb
  have hword : ∀ {n : ℕ}, ¬(maxSourceRepositories < n) → n < 256 ^ 8 := by
    intro n hn
    have hfits : maxSourceRepositories < 256 ^ 8 := by decide
    exact (not_lt.mp hn).trans_lt hfits
  simp only [message, append_assoc, append_cancel_left_eq, delimited_u16Bytes.append_inj,
    delimited_digestBytes.append_inj] at h
  obtain ⟨hschema, hassembly, htree, h⟩ := h
  obtain ⟨hlength, h⟩ := append_inj h (by simp)
  have hsame := beBytes_inj (hword fun hlt => hcount (Or.inr hlt)) (hword fun hlt => hcount' (Or.inr hlt)) hlength
  obtain ⟨hsources, h⟩ := flatMap_append_inj (fun s hs t ht r u hrest => SourceHead.bytes_append_inj
    (checkSourceHeads_valid hheads s hs) (checkSourceHeads_valid hheads' t ht) hrest) hsame h
  simp only [delimited_digestBytes.append_inj, digestBytes_inj.eq_iff] at h
  cases a
  cases b
  simp only at *
  simp only [*]

end Zero.TwoPhase
