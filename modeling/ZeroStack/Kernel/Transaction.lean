import ZeroStack.Kernel.Engine

/-! `zero-kernel/src/transaction.rs`: a transaction of file effects with its durable record. A `&mut self` method
returns the transaction beside its result: a failed call keeps what it changed in memory. -/

open Durable

namespace Zero.Kernel

inductive TransactionError where
  | engine (e : EngineError)
  | store (detail : String)
  | recoveryRequired (details : List String)
  deriving DecidableEq

def debugStrings (l : List String) : String := "[" ++ ", ".intercalate (l.map String.quote) ++ "]"

def TransactionError.display : TransactionError → String
  | .engine e => s!"transaction engine: {e.display}"
  | .store detail => s!"transaction store: {detail}"
  | .recoveryRequired details => s!"transaction rollback incomplete: {debugStrings details}"

def PersistFault.error (path : PathBuf) : PersistFault → TransactionError
  | .encode e => .store e
  | .createDir e => .store s!"create transaction dir: {e}"
  | .openTemp e => .store s!"open transaction temp: {e}"
  | .write e => .store s!"write transaction record: {e}"
  | .sync e => .store s!"sync transaction record: {e}"
  | .publish e => .store s!"publish transaction record: {e}"
  | .directorySync e =>
    .recoveryRequired [s!"transaction record directory sync failed after publish {path}: {e}"]

def isTerminal : TransactionState → Bool
  | .committed | .rolledBack | .recoveryRequired => true
  | _ => false

def transitionAllowed : TransactionState → TransactionState → Bool
  | .prepared, .applying => true
  | .applying, .applying => true
  | .prepared, .committed => true
  | .applying, .committed => true
  | .prepared, .rolledBack => true
  | .applying, .rolledBack => true
  | .prepared, .recoveryRequired => true
  | .applying, .recoveryRequired => true
  | .committed, .committed => true
  | .committed, .compensating => true
  | .compensating, .compensating => true
  | .compensating, .rolledBack => true
  | .compensating, .recoveryRequired => true
  | .rolledBack, .rolledBack => true
  | .recoveryRequired, .recoveryRequired => true
  | _, _ => false

def validateTransition (current target : TransactionState) : Except TransactionError Unit :=
  if transitionAllowed current target then .ok ()
  else .error (.store
    s!"transaction state transition {current.debug} -> {target.debug} is not allowed")

structure Transaction where
  context : EngineCallContext
  record : TransactionRecord
  settled : Bool
  deriving DecidableEq

namespace Transaction

variable (tx : Transaction)

def key : RecordKey := tx.context.key

def withRecord (r : TransactionRecord) : Transaction := { tx with record := r }

def settle : Transaction := { tx with settled := true }

def receipts : List FileEffectReceipt := tx.record.effects.filterMap (·.receipt)

end Transaction

abbrev Attempt (α : Type) := Transaction × Except TransactionError α

def PreparedEffect.rollbackReceipt (e : PreparedEffect) : FileEffectReceipt :=
  e.receipt.getD ⟨e.request.kind, e.request.path, e.before, none, e.preparation⟩

namespace TransactionRecord

variable (r : TransactionRecord)

def push (e : PreparedEffect) : TransactionRecord :=
  { r with effects := r.effects ++ [e] }

def pop : TransactionRecord :=
  { r with
    effects := r.effects.dropLast
    state := if r.effects.dropLast.isEmpty then .prepared else r.state }

def receive (receipt : FileEffectReceipt) : TransactionRecord :=
  { r with effects := r.effects.modifyLast fun e => { e with receipt := some receipt } }

/-- The end of `rollback_record`. A disallowed transition is forced into recovery, and the
error it leaves names the state after that. -/
def close (errors : List String) : TransactionRecord :=
  let target := if errors.isEmpty then TransactionState.rolledBack else .recoveryRequired
  if transitionAllowed r.state target then { r with state := target, rollbackErrors := errors }
  else { r with
    state := .recoveryRequired
    rollbackErrors := if errors.isEmpty then
        [s!"invalid transition {TransactionState.recoveryRequired.debug} -> {target.debug}"]
      else errors }

end TransactionRecord

section Programs
variable (L : Layout)

def persistRecord (k : RecordKey) (r : TransactionRecord) : KernelProgram (Except TransactionError Unit) := do
  match ← writeRecord k r with
  | none => pure (.ok ())
  | some fault => pure (.error (fault.error (L.recordPath k)))

def rollbackEffects : List PreparedEffect → KernelProgram (List PreparedEffect × List String)
  | [] => pure ([], [])
  | e :: es => do
    let (es', errors) ← rollbackEffects es
    if e.restored then pure (e :: es', errors)
    else match ← restoreFile e.rollbackReceipt with
      | .ok _ => pure ({ e with restored := true } :: es', errors)
      | .error error => pure (e :: es', errors ++ [s!"{e.rollbackReceipt.path}: {error.display}"])

def rollbackRecord (r : TransactionRecord) : KernelProgram TransactionRecord := do
  let (effects, errors) ← rollbackEffects r.effects
  pure ({ r with effects := effects }.close errors)

variable (tx : Transaction)

def rollbackAndPersist : KernelProgram (Attempt Unit) := do
  let r ← rollbackRecord tx.record
  let result ← persistRecord L tx.key r
  pure (tx.withRecord r, result)

def incomplete : TransactionError := .recoveryRequired tx.record.rollbackErrors

def afterRollback {α : Type} (tx : Transaction) (published : Except TransactionError Unit)
    (otherwise : Except TransactionError α) : Except TransactionError α :=
  match published with
  | .error e => .error e
  | .ok _ => if tx.record.state = .recoveryRequired then .error (incomplete tx) else otherwise

variable (c : EngineCallContext)

def begunRecord : TransactionRecord :=
  ⟨c.sessionId, c.cellId, c.traceId, .prepared, [], []⟩

def reopens (r : TransactionRecord) : Bool :=
  r.sessionId = c.sessionId && r.cellId = c.cellId && r.traceId = c.traceId &&
    (r.state = .prepared || r.state = .applying)

def beginExisting : KernelProgram (Except TransactionError Transaction) := do
  match ← loadRecord c.key with
  | .statFailed e => pure (.error (.store s!"read existing transaction record: {e}"))
  | .readFailed e => pure (.error (.store s!"read existing transaction record: {e}"))
  | .missing => pure (.error (.store "read existing transaction record: entity not found"))
  | .entry .notFile => pure (.error (.store "read existing transaction record: is a directory"))
  | .entry (.torn e) => pure (.error (.store e))
  | .entry (.record r) =>
    if reopens c r then pure (.ok ⟨c, r, false⟩)
    else pure (.error (.store
      s!"transaction journal already exists at {L.recordPath c.key} (state={r.state.debug} trace={r.traceId})"))

def beginNew : KernelProgram (Except TransactionError Transaction) := do
  match ← persistRecord L c.key (begunRecord c) with
  | .ok _ => pure (.ok ⟨c, begunRecord c, false⟩)
  | .error e => pure (.error e)

def beginLeased : KernelProgram (Except TransactionError Transaction) := do
  let existing ← recordExists c.key
  if existing then beginExisting L c else beginNew L c

/-- A failed `begin` drops the lease it took. -/
def begin : KernelProgram (Except TransactionError Transaction) := do
  match ← lease c with
  | .error e => pure (.error (.engine e))
  | .ok _ =>
    match ← beginLeased L c with
    | .ok tx => pure (.ok tx)
    | .error e => do
      let _ ← release
      pure (.error e)

variable (request : FileEffectRequest)

def bindPreimage (snapshot : Option ZeroHandle) : Except TransactionError FileEffectRequest :=
  match request.expectedPreimage, snapshot with
  | none, _ => .ok { request with expectedPreimage := snapshot }
  | some expected, some content =>
    if content ≠ expected then .error (.engine ⟨.conflict,
      s!"preimage mismatch for {request.path}: expected {expected} got {content}", false⟩)
    else .ok request
  | some expected, none =>
    if !request.expectAbsent then .error (.engine ⟨.conflict,
      s!"preimage mismatch for {request.path}: expected {expected} but target is absent", false⟩)
    else .ok request

def applyMismatched (detail : String) : KernelProgram (Attempt FileEffectReceipt) := do
  let (tx, published) ← rollbackAndPersist L tx
  pure (tx, afterRollback tx published (.error (.store detail)))

/-- `apply` once the engine has accepted the effect and the receipt is the prepared one. -/
def applyAccepted (receipt : FileEffectReceipt) : KernelProgram (Attempt FileEffectReceipt) := do
  let cancelled ← isCancelled tx.key .afterApply
  if cancelled then
    let (tx, published) ← rollbackAndPersist L tx
    pure (tx, afterRollback tx published
      (.error (.engine ⟨.cancelled, "transaction cancelled after apply, rolled back", false⟩)))
  else match ← persistRecord L tx.key tx.record with
    | .error e => pure (tx, .error e)
    | .ok _ => pure (tx, .ok receipt)

def receiptMismatch (e : PreparedEffect) (receipt : FileEffectReceipt) : Option String :=
  if receipt.path ≠ e.request.path then
    some s!"receipt path mismatch: expected {e.request.path} got {receipt.path}"
  else if receipt.before ≠ e.before then some s!"receipt before mismatch for {receipt.path}"
  else none

def withdraw (error : TransactionError) : KernelProgram (Attempt FileEffectReceipt) := do
  match ← persistRecord L tx.key tx.record.pop with
  | .error e => pure (tx.withRecord tx.record.pop, .error e)
  | .ok _ => pure (tx.withRecord tx.record.pop, .error error)

def applyFailed (error : EngineError) : KernelProgram (Attempt FileEffectReceipt) := do
  if error.kind.precondition then withdraw L tx (.engine error)
  else
    let cancelled ← isCancelled tx.key .afterFailure
    if cancelled then
      withdraw L tx (.engine ⟨.cancelled, s!"transaction cancelled: {error.display}", false⟩)
    else
      let (tx, published) ← rollbackAndPersist L tx
      pure (tx.settle, afterRollback tx published (.error (.engine error)))

def applyDispatch (e : PreparedEffect) : KernelProgram (Attempt FileEffectReceipt) := do
  let cancelled ← isCancelled tx.key .beforeDispatch
  if cancelled then
    withdraw L tx (.engine ⟨.cancelled, "transaction cancelled before effect dispatch", false⟩)
  else match ← applyFile e.request with
    | .error error => applyFailed L tx error
    | .ok receipt =>
      match receiptMismatch e receipt with
      | some detail => applyMismatched L (tx.withRecord (tx.record.receive receipt)) detail
      | none => applyAccepted L (tx.withRecord (tx.record.receive receipt)) receipt

/-- `apply` from the bound request on: prepare, publish, dispatch. -/
def applyPrepared (before : Option ZeroHandle) : KernelProgram (Attempt FileEffectReceipt) := do
  match ← putPreparation request before tx.context.traceId with
  | .error e => pure (tx, .error (.store e))
  | .ok preparation =>
    let e : PreparedEffect := ⟨request, before, preparation, none, false⟩
    let pushed := tx.record.push e
    match validateTransition pushed.state .applying with
    | .error error => pure (tx.withRecord pushed, .error error)
    | .ok _ =>
      let tx := tx.withRecord { pushed with state := .applying }
      match ← persistRecord L tx.key tx.record with
      | .error error => pure (tx, .error error)
      | .ok _ => applyDispatch L tx e

def applySnapshot (snapshot : Option ZeroHandle) : KernelProgram (Attempt FileEffectReceipt) :=
  match bindPreimage request snapshot with
  | .error e => pure (tx, .error e)
  | .ok request => applyPrepared L tx request snapshot

def apply (tx : Transaction) (request : FileEffectRequest) : KernelProgram (Attempt FileEffectReceipt) := do
  if tx.settled then pure (tx, .error (.store "transaction is already settled"))
  else if isTerminal tx.record.state then
    pure (tx, .error (.store
      s!"transaction already terminal in {tx.record.state.debug}, cannot apply"))
  else
    let cancelled ← isCancelled tx.key .beforeApply
    if cancelled then
      pure (tx, .error (.engine ⟨.cancelled, "transaction cancelled before apply", false⟩))
    else match ← readFile request.path with
      | .ok content => applySnapshot L tx request (some content)
      | .error e =>
        if e.kind = .notFound then applySnapshot L tx request none
        else pure (tx, .error (.engine e))

def commitMismatch (effects : List PreparedEffect) : Option TransactionError :=
  effects.findSome? fun e => e.receipt.bind fun receipt =>
    if receipt.path ≠ e.request.path then
      some (.store s!"commit receipt path mismatch for {e.request.path}")
    else if receipt.before ≠ e.before then
      some (.store s!"commit receipt before mismatch for {receipt.path}")
    else none

def commitLive : KernelProgram (Attempt (List FileEffectReceipt)) := do
  if tx.record.effects.any (·.receipt.isNone) then
    pure (tx, .error (.store
      "commit requires every effect to have a receipt; unapplied preparation exists"))
  else match commitMismatch tx.record.effects with
    | some e => pure (tx, .error e)
    | none =>
      match validateTransition tx.record.state .committed with
      | .error e => pure (tx, .error e)
      | .ok _ =>
        let tx := tx.withRecord { tx.record with state := .committed }
        match ← persistRecord L tx.key tx.record with
        | .error e => pure (tx, .error e)
        | .ok _ => pure (tx.settle, .ok tx.receipts)

/-- The idempotent path of `commit`: a committed record in memory proves itself. -/
def recommit : Attempt (List FileEffectReceipt) :=
  if tx.record.effects.any (·.receipt.isNone) then
    (tx, .error (.recoveryRequired
      [s!"committed transaction {L.recordPath tx.key} missing receipts, cannot prove"]))
  else (tx.settle, .ok tx.receipts)

def commit (tx : Transaction) : KernelProgram (Attempt (List FileEffectReceipt)) := do
  if tx.settled then pure (tx, .error (.store "transaction is already settled"))
  else
    let cancelled ← isCancelled tx.key .beforeCommit
    if cancelled then
      let (tx, published) ← rollbackAndPersist L tx
      pure (tx.settle, afterRollback tx published
        (.error (.engine ⟨.cancelled, "transaction cancelled, commit refused", false⟩)))
    else if tx.record.state = .committed then pure (recommit L tx)
    else if isTerminal tx.record.state then
      pure (tx, .error (.store s!"commit disallowed from terminal state {tx.record.state.debug}"))
    else commitLive L tx

def compensateCommitted : KernelProgram (Attempt Unit) := do
  if tx.record.state ≠ .committed ∨ tx.settled = false then
    pure (tx, .error (.store "compensation requires a durably committed transaction"))
  else match validateTransition tx.record.state .compensating with
    | .error e => pure (tx, .error e)
    | .ok _ =>
      let intent := tx.withRecord { tx.record with state := .compensating }
      match ← persistRecord L intent.key intent.record with
      -- the failed publication puts the state in memory back
      | .error e => pure (tx, .error e)
      | .ok _ =>
        let (tx, published) ← rollbackAndPersist L intent
        pure (tx.settle, afterRollback tx published (.ok ()))

def drop : KernelProgram Unit := do
  if tx.settled then release
  else
    let _ ← rollbackAndPersist L tx
    release

def rollbackOnly : KernelProgram (Attempt Unit) := do
  if tx.record.state = .rolledBack then pure (tx.settle, .ok ())
  else if tx.record.state = .recoveryRequired then pure (tx.settle, .error (incomplete tx))
  else if tx.record.state = .committed then
    pure (tx, .error (.store "transaction already committed, cannot rollback"))
  else if tx.settled then pure (tx, .error (.store "transaction is already settled"))
  else
    let (tx, published) ← rollbackAndPersist L tx
    match published with
    | .error e => pure (tx, .error e)
    | .ok _ => pure (tx.settle, afterRollback tx published (.ok ()))

def rollback : KernelProgram (Except TransactionError Unit) := do
  let (tx, result) ← rollbackOnly L tx
  drop L tx
  pure result

structure ReconcilePass where
  recovered : List PathBuf
  recoveryDetails : List String
  deriving DecidableEq

def ReconcilePass.report (p : ReconcilePass) (details : List String) : ReconcilePass :=
  { p with recoveryDetails := p.recoveryDetails ++ details }

def ReconcilePass.result (p : ReconcilePass) : Except TransactionError (List PathBuf) :=
  if p.recoveryDetails.isEmpty then .ok p.recovered
  else .error (.recoveryRequired
    (s!"{p.recoveryDetails.length} poisoned journal(s) quarantined this pass" :: p.recoveryDetails))

/-- A live record found by `reconcile`: roll it back, then publish the end or set it aside. -/
def reconcileRecord (k : RecordKey) (r : TransactionRecord) (pass : ReconcilePass) :
    KernelProgram (Except TransactionError ReconcilePass) := do
  let r ← rollbackRecord r
  if r.state = .recoveryRequired then
    match ← quarantine k with
    | some e => pure (.error (.store s!"quarantine poisoned transaction journal: {e}"))
    | none => pure (.ok (pass.report
        (r.rollbackErrors ++ [s!"quarantined poisoned journal {L.poisonedPath k}"])))
  else match ← persistRecord L k r with
    | .ok _ => pure (.ok { pass with recovered := pass.recovered ++ [L.recordPath k] })
    | .error (.recoveryRequired details) => do
      let _ ← quarantine k
      pure (.ok (pass.report
        (details ++ [s!"quarantined ambiguous transaction record {L.poisonedPath k}"])))
    | .error e => pure (.error e)

def reconcileEntry (k : RecordKey) (pass : ReconcilePass) : KernelProgram (Except TransactionError ReconcilePass) := do
  match ← loadRecord k with
  | .statFailed e => pure (.error (.store e))
  | .readFailed e => pure (.error (.store s!"read transaction record: {e}"))
  | .missing => pure (.error (.store "read transaction record: entity not found"))
  | .entry .notFile => pure (.ok pass)
  | .entry (.torn e) => do
    let _ ← quarantine k
    pure (.ok (pass.report [s!"quarantined torn transaction record {L.recordPath k}: {e}",
      s!"quarantined poisoned journal {L.poisonedPath k}"]))
  | .entry (.record r) =>
    if r.sessionId ≠ c.sessionId then do
      let _ ← quarantine k
      pure (.ok (pass.report
        [s!"quarantined foreign session binding {r.sessionId} (expected {c.sessionId})"]))
    else if r.state = .committed ∨ r.state = .rolledBack then pure (.ok pass)
    else reconcileRecord L k r pass

def reconcileEntries (c : EngineCallContext) :
    List RecordKey → ReconcilePass → KernelProgram (Except TransactionError ReconcilePass)
  | [], pass => pure (.ok pass)
  | k :: ks, pass => do
    match ← reconcileEntry L c k pass with
    | .error e => pure (.error e)
    | .ok pass => reconcileEntries c ks pass

def reconcileLeased : KernelProgram (Except TransactionError (List PathBuf)) := do
  match ← listRecords c.sessionId with
  | .error e => pure (.error (.store s!"read transaction directory: {e}"))
  | .ok keys =>
    match ← reconcileEntries L c keys ⟨[], []⟩ with
    | .error e => pure (.error e)
    | .ok pass => pure pass.result

def reconcile : KernelProgram (Except TransactionError (List PathBuf)) := do
  match ← lease c with
  | .error e => pure (.error (.engine e))
  | .ok _ =>
    let result ← reconcileLeased L c
    let _ ← release
    pure result

end Programs
end Zero.Kernel
