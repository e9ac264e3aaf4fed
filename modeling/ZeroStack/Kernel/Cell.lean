import Mathlib.Data.List.Sort
import Mathlib.Data.String.Basic
import ZeroStack.Kernel.Response

/-! `zero-kernel/src/host.rs`: one cell from its first effect to its response. The guest's code calls its methods in
any order; `finish` settles what it left, `fail` takes it back, and both drop the transaction it holds. -/

open Durable

namespace Zero.Kernel

namespace StateValues

def insert (key value : String) : StateValues → StateValues
  | [] => [(key, value)]
  | (k, v) :: rest =>
    if key = k then (key, value) :: rest
    else if key < k then (key, value) :: (k, v) :: rest
    else (k, v) :: insert key value rest

def erase (values : StateValues) (key : String) : StateValues := values.filter (·.1 ≠ key)

end StateValues

structure StateSnapshot where
  root : Option ZeroHandle
  values : StateValues
  deriving DecidableEq

structure SpeculationBinding where
  stateRoot : String
  contractRoot : String
  deriving DecidableEq

/-- The sequence is that of the cell's id, which the coordinator allocates from 1 on. -/
structure Cell where
  invocation : EngineCallContext
  sequence : ℕ
  positive : 0 < sequence
  contractDigest : String
  capsuleRoot : String
  binding : SpeculationBinding
  state : StateSnapshot
  stateDirty : Bool
  transaction : Option Transaction
  handles : List ZeroHandle
  operations : List ZeroOperationTrace
  operationsTruncated : Bool

namespace Cell

variable (cell : Cell)

def stateSet (key value : String) : Cell :=
  { cell with state := ⟨cell.state.root, StateValues.insert key value cell.state.values⟩, stateDirty := true }

def stateDelete (key : String) : Cell :=
  { cell with
    state := ⟨cell.state.root, StateValues.erase cell.state.values key⟩
    stateDirty := cell.stateDirty || cell.state.values.any (·.1 = key) }

def replaceState (values : StateValues) : Cell :=
  { cell with
    state := ⟨cell.state.root, values⟩
    stateDirty := cell.stateDirty || decide (cell.state.values ≠ values) }

def pushHandles (handles : List ZeroHandle) : Cell :=
  { cell with handles := cell.handles ++ handles }

def dedupHandles : Cell := { cell with handles := cell.handles.eraseDups }

def withTransaction (tx : Option Transaction) : Cell := { cell with transaction := tx }

def receipts : List FileEffectReceipt :=
  cell.transaction.elim [] (·.receipts)

def traceProblem (capsuleRoot : String) (sequence occurrence : ℕ) : List ZeroOperationTrace → Option String
  | [] => none
  | o :: os =>
    if o.capsuleRoot = "" then some s!"operation trace {o.sequence} carries an empty capsule root"
    else if o.capsuleRoot ≠ capsuleRoot then
      some (s!"operation trace {o.sequence} capsule root {o.capsuleRoot} differs " ++
        s!"from the cell capsule root {capsuleRoot}")
    else if o.occurrence = 0 then some s!"operation trace {o.sequence} carries a nonpositive occurrence"
    else if o.sequence ≤ sequence ∨ o.occurrence ≤ occurrence then
      some s!"operation trace {o.sequence} sequence and occurrence must be strictly monotonic"
    else traceProblem capsuleRoot o.sequence o.occurrence os

def recordOperations (operations : List ZeroOperationTrace) (truncated : Bool) : Except HostError Cell :=
  match traceProblem cell.capsuleRoot 0 0 operations with
  | some detail => .error (.invalidRequest detail)
  | none => .ok { cell with operations := operations, operationsTruncated := truncated }

def turnRecord : TurnRecord := ⟨cell.sequence, min cell.operations.length (2 ^ 32 - 1)⟩

def event (outcome : ZeroKernelOutcome) (after : Option ZeroHandle) (visible : String)
    (effects : EffectFacts) : ZeroKernelEvent :=
  ⟨cell.invocation.sessionId, cell.invocation.cellId, cell.state.root, after, cell.handles, outcome, visible, effects⟩

def failure (outcome : ZeroKernelOutcome) (error : EngineError) (event : ZeroHandle) : ZeroKernelResponse where
  outcome := outcome
  value := none
  error := some error
  operations := cell.operations
  operationsTruncated := cell.operationsTruncated
  handles := cell.handles
  event := event
  state := ⟨cell.state.root, cell.state.root, true⟩
  turn := some cell.turnRecord
  effects := []

def completion (visible : String) (after : Option ZeroHandle) (event : ZeroHandle)
    (effects : List FileEffectReceipt) : ZeroKernelResponse where
  outcome := .completed
  value := some visible
  error := none
  operations := cell.operations
  operationsTruncated := cell.operationsTruncated
  handles := cell.handles
  event := event
  state := ⟨cell.state.root, after, decide (cell.state.root = after)⟩
  turn := some cell.turnRecord
  effects := effects

end Cell

/-- The checks that `validate_staged_receipts` makes before it reads: `latest` holds the last
receipt for each path so far. -/
def stagedProblem (latest : List FileEffectReceipt) : List FileEffectReceipt → Except String (List FileEffectReceipt)
  | [] => .ok latest
  | receipt :: receipts =>
    if receipt.journal.isEmpty then .error "effect receipt journal is placeholder"
    else if receipt.kind = .remove ∧ receipt.after ≠ none then
      .error "remove receipt must not carry an after handle"
    else if receipt.kind ≠ .remove ∧ receipt.after = none then
      .error "non-remove receipt is missing its after handle"
    else if latest.any fun previous => previous.path = receipt.path && previous.after ≠ receipt.before then
      .error "same-path effect receipt chain is discontinuous"
    else stagedProblem (receipt :: latest.filter (·.path ≠ receipt.path)) receipts

section Programs
variable (L : Layout) (cell : Cell)

def applyHeld (tx : Transaction) (request : FileEffectRequest) :
    KernelProgram (Cell × Except HostError FileEffectReceipt) := do
  let (tx, result) ← apply L tx request
  match result with
  | .error e => pure (cell.withTransaction (some tx), .error (.transaction e))
  | .ok receipt => pure ((cell.withTransaction (some tx)).pushHandles
      (receipt.after.toList ++ [receipt.journal]), .ok receipt)

def beginTransaction : KernelProgram (Cell × Except HostError Unit) := do
  match cell.transaction with
  | some _ => pure (cell, .ok ())
  | none =>
    match ← begin L cell.invocation with
    | .error e => pure (cell, .error (.transaction e))
    | .ok tx => pure (cell.withTransaction (some tx), .ok ())

def applyFileEffect (request : FileEffectRequest) : KernelProgram (Cell × Except HostError FileEffectReceipt) := do
  match cell.transaction with
  | some tx => applyHeld L cell tx request
  | none =>
    match ← begin L cell.invocation with
    | .error e => pure (cell, .error (.transaction e))
    | .ok tx => applyHeld L cell tx request

def applyFileEffects (cell : Cell) : List FileEffectRequest →
    KernelProgram (Cell × Except HostError (List FileEffectReceipt))
  | [] => pure (cell, .ok [])
  | request :: requests => do
    match ← applyFileEffect L cell request with
    | (cell, .error e) => pure (cell, .error e)
    | (cell, .ok receipt) =>
      match ← applyFileEffects cell requests with
      | (cell, .error e) => pure (cell, .error e)
      | (cell, .ok receipts) => pure (cell, .ok (receipt :: receipts))

def rollbackTransaction : KernelProgram (Cell × Except HostError Unit) := do
  match cell.transaction with
  | none => pure (cell, .error (.transaction (.store "no active transaction")))
  | some tx =>
    match ← rollback L tx with
    | .error e => pure (cell.withTransaction none, .error (.transaction e))
    | .ok _ => pure (cell.withTransaction none, .ok ())

/-- `effect` from its finished plan on: all of the planned effects, or none. -/
def effect (planned : List FileEffectRequest) : KernelProgram (Cell × Except HostError (List FileEffectReceipt)) := do
  if cell.transaction.isSome then pure (cell, .error (.invalidRequest
    "z.apply cannot follow z.edit in one cell; express all mutations in z.apply or start a separate ZeroKernel call"))
  else match ← beginTransaction L cell with
    | (cell, .error e) => pure (cell, .error e)
    | (cell, .ok _) =>
      match ← applyFileEffects L cell planned with
      | (cell, .ok receipts) => pure (cell, .ok receipts)
      | (cell, .error e) =>
        match ← rollbackTransaction L cell with
        | (cell, .error failed) => pure (cell, .error failed)
        | (cell, .ok _) => pure (cell, .error e)

def dropCell : KernelProgram Unit :=
  match cell.transaction with
  | some tx => drop L tx
  | none => pure ()

variable (error : EngineError)

/-- `fail` from the settled rollback on. -/
def reportFailure (effects : EffectFacts) : KernelProgram (Except HostError ZeroKernelResponse) := do
  let outcome := if error.kind = .cancelled then ZeroKernelOutcome.cancelled else .failed
  match ← publishEvent (cell.event outcome cell.state.root error.detail effects) with
  | .error publish => pure (.error (.event publish))
  | .ok event => pure (cell.failure outcome error event).checked

def rollbackFailed (rollback : TransactionError) : EngineError :=
  ⟨.corrupt, s!"{error.detail}; rollback: {rollback.display}", false⟩

def fail : KernelProgram (Except HostError ZeroKernelResponse) := do
  match cell.transaction with
  | none => reportFailure cell.dedupHandles error ⟨"no_effects", []⟩
  | some tx =>
    match ← rollback L tx with
    | .ok _ => reportFailure cell.dedupHandles error ⟨"rolled_back", tx.receipts⟩
    | .error e => reportFailure cell.dedupHandles (rollbackFailed error e) ⟨"rollback_failed", tx.receipts⟩

def readStaged : List FileEffectReceipt → KernelProgram (Except EngineError Unit)
  | [] => pure (.ok ())
  | receipt :: receipts => do
    let observed ← readFile receipt.path
    if receipt.kind = .remove then
      match observed with
      | .error e => if e.kind = .notFound then readStaged receipts else pure (.error e)
      | .ok _ => pure (.error ⟨.corrupt, "removed effect target still exists", false⟩)
    else
      match observed with
      | .error e => pure (.error e)
      | .ok content =>
        if receipt.after = some content then readStaged receipts
        else pure (.error ⟨.corrupt, "final effect receipt differs from FileEngine state", false⟩)

def pathOrder (receipts : List FileEffectReceipt) : List FileEffectReceipt :=
  receipts.insertionSort fun a b => a.path.splitOn "/" ≤ b.path.splitOn "/"

def validateStagedReceipts : KernelProgram (Except EngineError Unit) :=
  match stagedProblem [] cell.receipts with
  | .error detail => pure (.error ⟨.corrupt, detail, false⟩)
  | .ok latest => readStaged (pathOrder latest)

def compensateEffects : KernelProgram (Cell × List String) := do
  match cell.transaction with
  | none => pure (cell, [])
  | some tx =>
    match ← compensateCommitted L tx with
    | (tx, .ok _) => pure (cell.withTransaction (some tx), [])
    | (tx, .error e) => pure (cell.withTransaction (some tx), [s!"effect compensation: {e.display}"])

variable (after : Option ZeroHandle)

def compensateState : KernelProgram (List String) := do
  if after = cell.state.root then pure []
  else match ← compareAndSetRoot .publicationFailed after cell.state.root with
    | .ok _ => pure []
    | .error e => pure [s!"state compensation: {e.display}"]

def publicationError (error : String) (failures : List String) : HostError :=
  if failures.isEmpty then .event
    s!"terminal event publication failed; committed state and effects were compensated: {error}"
  else
    let incomplete := "; ".intercalate failures
    .event s!"terminal event publication failed: {error}; compensation incomplete: {incomplete}"

/-- `finish` once the terminal event could not be published. -/
def compensate (error : String) : KernelProgram (Except HostError ZeroKernelResponse) := do
  let (cell, effects) ← compensateEffects L cell
  let state ← compensateState cell after
  dropCell L cell
  pure (.error (publicationError error (effects ++ state)))

variable (visible : String)

def publishCompleted (after : Option ZeroHandle)
    (effects : List FileEffectReceipt) : KernelProgram (Except HostError ZeroKernelResponse) := do
  match ← publishEvent (cell.dedupHandles.event .completed after visible ⟨"committed", effects⟩) with
  | .error e => compensate L cell.dedupHandles after e
  | .ok event => do
    dropCell L cell.dedupHandles
    pure (cell.dedupHandles.completion visible after event effects).checked

def commitFailed (error : TransactionError) : KernelProgram (Except HostError ZeroKernelResponse) := do
  let failed : EngineError := ⟨.corrupt, s!"transaction commit: {error.display}", false⟩
  if after = cell.state.root then fail L cell failed
  else match ← compareAndSetRoot .commitFailed after cell.state.root with
    | .ok _ => fail L cell failed
    | .error e => do
      dropCell L cell
      pure (.error (.state e))

def commitEffects (after : Option ZeroHandle) : KernelProgram (Except HostError ZeroKernelResponse) := do
  match cell.transaction with
  | none => publishCompleted L cell visible after []
  | some tx =>
    match ← commit L tx with
    | (tx, .ok receipts) => publishCompleted L (cell.withTransaction (some tx)) visible after receipts
    | (tx, .error e) => commitFailed L (cell.withTransaction (some tx)) after e

/-- `finish` from the validated receipts on: first the state, then the effects. -/
def settle : KernelProgram (Except HostError ZeroKernelResponse) := do
  if cell.stateDirty then
    match ← commitState cell.state.root cell.state.values with
    | .error e => fail L cell ⟨.corrupt, s!"state commit: {e.display}", false⟩
    | .ok root => commitEffects L cell visible (some root)
  else commitEffects L cell visible cell.state.root

def Cell.drifted : Bool :=
  cell.binding.stateRoot ≠ L.effectiveStateRoot cell.state.root ||
    cell.binding.contractRoot ≠ L.contractRoot cell.contractDigest

/-- The part of `finish` that only looks: the error to fail with, or the text to show. -/
def prepare (value : String) : KernelProgram (Cell × Except EngineError String) := do
  let cancelled ← isCancelled cell.invocation.key .beforeFinish
  if cancelled then pure (cell, .error ⟨.cancelled, "cancelled before commit", false⟩)
  else if cell.drifted L then pure (cell, .error ⟨.conflict, "binding drifted before commit", false⟩)
  else match ← serializeResult value with
    | .error e => pure (cell, .error ⟨.internal, s!"result serialization: {e}", false⟩)
    | .ok raw =>
      match ← project raw with
      | .error e => pure (cell, .error e)
      | .ok projection =>
        match ← validateStagedReceipts cell with
        | .error e => pure (cell.pushHandles projection.exact.toList, .error e)
        | .ok _ => pure (cell.pushHandles projection.exact.toList, .ok projection.visible)

def finish (value : String) : KernelProgram (Except HostError ZeroKernelResponse) := do
  match ← prepare L cell.dedupHandles value with
  | (cell, .error e) => fail L cell e
  | (cell, .ok visible) => settle L cell visible

inductive GuestCall where
  | file (request : FileEffectRequest)
  | effect (planned : List FileEffectRequest)
  | stateSet (key value : String)
  | stateDelete (key : String)
  | replaceState (values : StateValues)
  deriving DecidableEq

def guestCall : GuestCall → KernelProgram Cell
  | .file request => do
    let (cell, _) ← applyFileEffect L cell request
    pure cell
  | .effect planned => do
    let (cell, _) ← effect L cell planned
    pure cell
  | .stateSet key value => pure (cell.stateSet key value)
  | .stateDelete key => pure (cell.stateDelete key)
  | .replaceState values => pure (cell.replaceState values)

def guestCalls (cell : Cell) : List GuestCall → KernelProgram Cell
  | [] => pure cell
  | call :: calls => do
    let cell ← guestCall L cell call
    guestCalls cell calls

inductive GuestResult where
  | value (v : String)
  | error (e : EngineError)
  deriving DecidableEq

structure GuestRun where
  calls : List GuestCall
  operations : List ZeroOperationTrace
  truncated : Bool
  result : GuestResult
  deriving DecidableEq

/-- A cell after the guest's code has run (`runtime.rs`). -/
def settleGuest (run : GuestRun) : KernelProgram (Except HostError ZeroKernelResponse) :=
  match cell.recordOperations run.operations run.truncated with
  | .error e => fail L cell ⟨.invalidInput, e.display, false⟩
  | .ok cell =>
    match run.result with
    | .value v => finish L cell v
    | .error e => fail L cell e

def execute (run : GuestRun) : KernelProgram (Except HostError ZeroKernelResponse) := do
  let cell ← guestCalls L cell run.calls
  settleGuest L cell run

end Programs
end Zero.Kernel
