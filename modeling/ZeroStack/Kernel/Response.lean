import ZeroStack.Kernel.Transaction

/-! What a cell answers: the response with its own check (`zero-abi/src/zero_kernel.rs`), the
errors of the host, and the trace of guest operations that both carry. -/

namespace Zero.Kernel

inductive HostError where
  | engine (e : EngineError)
  | state (e : StateError)
  | transaction (e : TransactionError)
  | event (detail : String)
  | invalidRequest (detail : String)
  | serialization (detail : String)
  deriving DecidableEq

def debugHandle : Option ZeroHandle → String
  | some handle => s!"Some({handle.quote})"
  | none => "None"

def StateError.display : StateError → String
  | .io detail => s!"state store I/O: {detail}"
  | .conflict expected current =>
    s!"state root conflict: expected {debugHandle expected}, current {debugHandle current}"
  | .invalid detail => s!"invalid state: {detail}"

def HostError.display : HostError → String
  | .engine e => s!"engine: {e.display}"
  | .state e => s!"state: {e.display}"
  | .transaction e => s!"transaction: {e.display}"
  | .event detail => s!"event: {detail}"
  | .invalidRequest detail => s!"invalid request: {detail}"
  | .serialization detail => s!"result serialization: {detail}"

structure ZeroOperationTrace where
  sequence : ℕ
  method : String
  capsuleRoot : String
  occurrence : ℕ
  target : Option String
  detail : Option String
  deriving DecidableEq

structure StateEvidence where
  before : Option ZeroHandle
  after : Option ZeroHandle
  unchanged : Bool
  deriving DecidableEq

structure TurnRecord where
  sequence : ℕ
  operationCount : ℕ
  deriving DecidableEq

structure ZeroKernelResponse where
  outcome : ZeroKernelOutcome
  value : Option String
  error : Option EngineError
  operations : List ZeroOperationTrace
  operationsTruncated : Bool
  handles : List ZeroHandle
  event : ZeroHandle
  state : StateEvidence
  turn : Option TurnRecord
  effects : List FileEffectReceipt
  deriving DecidableEq

def guestMethods : List String := ["read", "find", "edit", "apply", "run", "state"]

def operationTraceLimit : ℕ := 128

def validRoot (root : String) : Bool :=
  root.utf8ByteSize = 64 && root.toList.all fun c => c.isDigit || ('a' ≤ c && c ≤ 'f')

def validText (text : Option String) : Bool :=
  text.all fun t => 0 < t.utf8ByteSize && t.utf8ByteSize ≤ 1024

def ZeroOperationTrace.validate (o : ZeroOperationTrace) : Except String Unit :=
  if o.sequence = 0 ∨ o.method ∉ guestMethods then
    .error "operation trace contains an invalid sequence or method"
  else if !validRoot o.capsuleRoot then .error "operation trace carries an invalid capsule root"
  else if o.occurrence = 0 then .error "operation trace occurrence must be positive"
  else if !(validText o.target && validText o.detail) then
    .error "operation trace target or detail is invalid"
  else .ok ()

def validateOperations (sequence occurrence : ℕ) : List ZeroOperationTrace → Except String Unit
  | [] => .ok ()
  | o :: os =>
    match o.validate with
    | .error e => .error e
    | .ok _ =>
      if o.sequence ≤ sequence then .error "operation trace sequence is not strictly increasing"
      else if o.occurrence ≤ occurrence then .error "operation trace occurrence is not strictly increasing"
      else validateOperations o.sequence o.occurrence os

def validateTrace (operations : List ZeroOperationTrace) : Except String Unit :=
  if operations.length > operationTraceLimit then .error "operation trace exceeds its bounded limit"
  else validateOperations 0 0 operations

def validateOutcome : ZeroKernelOutcome → Option EngineError → Except String Unit
  | .completed, none => .ok ()
  | .cancelled, some e =>
    if e.kind = .cancelled then .ok () else .error "cancelled response requires a cancelled error"
  | .failed, some _ => .ok ()
  | .completed, some _ => .error "completed response carries an error"
  | .cancelled, none => .error "cancelled response requires a cancelled error"
  | .failed, none => .error "failed response has no typed error"

def validateTurn : Option TurnRecord → Except String Unit
  | some turn => if turn.sequence = 0 then .error "turn record has invalid sequence or roots" else .ok ()
  | none => .ok ()

def validateEffects (outcome : ZeroKernelOutcome) (effects : List FileEffectReceipt) : Except String Unit :=
  if effects.isEmpty then .ok ()
  else if outcome ≠ .completed then .error "effects are only valid on a completed response"
  else if effects.any (·.journal.isEmpty) then .error "effect receipt journal must not be empty"
  else .ok ()

def StateEvidence.validate (state : StateEvidence) (outcome : ZeroKernelOutcome) : Except String Unit :=
  if state.unchanged ≠ decide (state.before = state.after) then
    .error "state unchanged flag disagrees with roots"
  else if outcome ≠ .completed ∧ state.unchanged = false then
    .error "cancelled or failed execution changed the durable state root"
  else .ok ()

def ZeroKernelResponse.validate (r : ZeroKernelResponse) : Except String Unit := do
  validateOutcome r.outcome r.error
  validateTrace r.operations
  validateTurn r.turn
  validateEffects r.outcome r.effects
  r.state.validate r.outcome

def ZeroKernelResponse.checked (r : ZeroKernelResponse) : Except HostError ZeroKernelResponse :=
  match r.validate with
  | .ok _ => .ok r
  | .error detail => .error (.serialization s!"invalid ZeroKernel response: {detail}")

theorem ZeroKernelResponse.checked_ok {r : ZeroKernelResponse}
    (houtcome : validateOutcome r.outcome r.error = .ok ()) (htrace : validateTrace r.operations = .ok ())
    (hturn : validateTurn r.turn = .ok ()) (heffects : validateEffects r.outcome r.effects = .ok ())
    (hstate : r.state.validate r.outcome = .ok ()) : r.checked = .ok r := by
  have hvalid : r.validate = .ok () := by
    simp only [validate, houtcome, htrace, hturn, heffects, hstate, bind, Except.bind]
  rw [checked, hvalid]

theorem ZeroKernelResponse.checked_eq {r r' : ZeroKernelResponse} (h : r.checked = .ok r') : r' = r := by
  unfold checked at h
  cases hv : r.validate with
  | ok u =>
    rw [hv] at h
    cases h
    rfl
  | error e =>
    rw [hv] at h
    cases h

end Zero.Kernel
