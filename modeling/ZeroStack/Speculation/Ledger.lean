import ZeroStack.Program.Tally

/-! The speculation contracts of the ABI: the permit of a call, and the ledger of a turn. -/

namespace Zero.Speculation

def validRoot (root : String) : Bool :=
  let bytes := root.toByteArray.data.toList
  bytes.length = 64 && bytes.all fun byte => (0x30 ≤ byte && byte ≤ 0x39) || (0x61 ≤ byte && byte ≤ 0x66)

structure SpeculationBinding where
  capsuleRoot : String
  stateRoot : String
  contractRoot : String
  epoch : ℕ
  deriving DecidableEq

def SpeculationBinding.validate (b : SpeculationBinding) : Except String Unit :=
  if [b.capsuleRoot, b.stateRoot, b.contractRoot].any (!validRoot ·) then
    .error "speculation binding carries an invalid root"
  else .ok ()

structure FinalizedCallProof where
  finalizedSourceRoot : String
  executionDagRoot : String
  nodeRoot : String
  verifierRoot : String
  exactInputRoots : List String
  unconditional : Bool
  deriving DecidableEq

def FinalizedCallProof.validate (p : FinalizedCallProof) : Except String Unit :=
  if [p.finalizedSourceRoot, p.executionDagRoot, p.nodeRoot, p.verifierRoot].any (!validRoot ·) then
    .error "finalized call proof carries an invalid root"
  else if p.exactInputRoots.isEmpty || p.exactInputRoots.any (!validRoot ·) then
    .error "finalized call proof requires exact input roots"
  else if !p.unconditional then .error "speculation requires an unconditional finalized DAG node"
  else .ok ()

inductive SpeculativeOperation where
  | read
  | find
  | pureExtension (operationId : String)
  deriving DecidableEq

def SpeculativeOperation.validate : SpeculativeOperation → Except String Unit
  | .pureExtension operationId =>
    if operationId.isEmpty || !operationId.toList.all fun c =>
      c.isLower || c.isDigit || c = '.' || c = '_' || c = '-' then
      .error "pure extension id must match lowercase [a-z0-9_.-]"
    else .ok ()
  | _ => .ok ()

structure SpeculationPermit (V : Type) where
  nodeId : String
  operation : SpeculativeOperation
  arguments : V
  binding : SpeculationBinding
  proof : FinalizedCallProof
  occurrence : ℕ
  certifiedPure : Bool
  cancellationBound : Bool
  workBudget : ℕ
  providerTokenBudget : ℕ
  deriving DecidableEq

def SpeculationPermit.validate {V : Type} (p : SpeculationPermit V) : Except String Unit := do
  p.operation.validate
  p.binding.validate
  p.proof.validate
  if p.nodeId.isEmpty then .error "speculation permit requires a DAG node id"
  else if p.occurrence = 0 then .error "speculation occurrence must be positive"
  else if !p.certifiedPure then .error "speculation requires a certified-pure operation"
  else if !p.cancellationBound then .error "speculation requires bounded cancellation"
  else if p.workBudget = 0 then .error "speculation work budget must be positive"
  else .ok ()

def SpeculationPermit.claimKey {V : Type} (digest : SpeculationPermit V → String) (p : SpeculationPermit V) :
    Except String String := do
  p.validate
  .ok (digest p)

inductive SpeculationAdmission where
  | ordinary
  | speculated
  deriving DecidableEq

inductive SpeculationState where
  | pending
  | running
  | ready
  | claimed
  | cancelled
  | failed
  deriving DecidableEq

@[ext] structure SpeculationLedger where
  ordinaryAdmissions : ℕ := 0
  dispatched : ℕ := 0
  claimHits : ℕ := 0
  claimInvariantFailures : ℕ := 0
  cancelled : ℕ := 0
  failed : ℕ := 0
  wastedReady : ℕ := 0
  workUnitsDispatched : ℕ := 0
  workUnitsClaimed : ℕ := 0
  providerTokensDispatched : ℕ := 0
  providerTokensClaimed : ℕ := 0
  providerTokensWastedUpperBound : ℕ := 0
  deriving DecidableEq

namespace SpeculationLedger

def validate (l : SpeculationLedger) : Except String Unit :=
  if l.claimInvariantFailures ≠ 0 then .error "speculation ledger records an exact-claim invariant failure"
  else if l.claimHits > l.dispatched ∨ l.cancelled > l.dispatched ∨ l.failed > l.dispatched ∨
      l.wastedReady > l.dispatched ∨ l.workUnitsClaimed > l.workUnitsDispatched ∨
      l.providerTokensClaimed > l.providerTokensDispatched ∨
      l.providerTokensWastedUpperBound > l.providerTokensDispatched then
    .error "speculation ledger violates conservation"
  else .ok ()

instance : Zero SpeculationLedger := ⟨{}⟩

instance : Add SpeculationLedger := ⟨fun a b => {
  ordinaryAdmissions := a.ordinaryAdmissions + b.ordinaryAdmissions
  dispatched := a.dispatched + b.dispatched
  claimHits := a.claimHits + b.claimHits
  claimInvariantFailures := a.claimInvariantFailures + b.claimInvariantFailures
  cancelled := a.cancelled + b.cancelled
  failed := a.failed + b.failed
  wastedReady := a.wastedReady + b.wastedReady
  workUnitsDispatched := a.workUnitsDispatched + b.workUnitsDispatched
  workUnitsClaimed := a.workUnitsClaimed + b.workUnitsClaimed
  providerTokensDispatched := a.providerTokensDispatched + b.providerTokensDispatched
  providerTokensClaimed := a.providerTokensClaimed + b.providerTokensClaimed
  providerTokensWastedUpperBound := a.providerTokensWastedUpperBound + b.providerTokensWastedUpperBound }⟩

theorem add_eq (a b : SpeculationLedger) : a + b = ⟨a.ordinaryAdmissions + b.ordinaryAdmissions,
    a.dispatched + b.dispatched, a.claimHits + b.claimHits, a.claimInvariantFailures + b.claimInvariantFailures,
    a.cancelled + b.cancelled, a.failed + b.failed, a.wastedReady + b.wastedReady,
    a.workUnitsDispatched + b.workUnitsDispatched, a.workUnitsClaimed + b.workUnitsClaimed,
    a.providerTokensDispatched + b.providerTokensDispatched, a.providerTokensClaimed + b.providerTokensClaimed,
    a.providerTokensWastedUpperBound + b.providerTokensWastedUpperBound⟩ := rfl

instance : AddCancelCommMonoid SpeculationLedger where
  add_assoc a b c := by ext <;> exact Nat.add_assoc ..
  zero_add a := by ext <;> exact Nat.zero_add _
  add_zero a := by ext <;> exact Nat.add_zero _
  add_comm a b := by ext <;> exact Nat.add_comm ..
  nsmul := nsmulRec
  add_left_cancel a b c h := by
    rw [SpeculationLedger.ext_iff] at h ⊢
    simpa only [add_eq, Nat.add_left_cancel_iff] using h

def saturate (l : SpeculationLedger) : SpeculationLedger where
  ordinaryAdmissions := min l.ordinaryAdmissions (2 ^ 64 - 1)
  dispatched := min l.dispatched (2 ^ 64 - 1)
  claimHits := min l.claimHits (2 ^ 64 - 1)
  claimInvariantFailures := min l.claimInvariantFailures (2 ^ 64 - 1)
  cancelled := min l.cancelled (2 ^ 64 - 1)
  failed := min l.failed (2 ^ 64 - 1)
  wastedReady := min l.wastedReady (2 ^ 64 - 1)
  workUnitsDispatched := min l.workUnitsDispatched (2 ^ 64 - 1)
  workUnitsClaimed := min l.workUnitsClaimed (2 ^ 64 - 1)
  providerTokensDispatched := min l.providerTokensDispatched (2 ^ 64 - 1)
  providerTokensClaimed := min l.providerTokensClaimed (2 ^ 64 - 1)
  providerTokensWastedUpperBound := min l.providerTokensWastedUpperBound (2 ^ 64 - 1)

def record (l delta : SpeculationLedger) : SpeculationLedger := (l + delta).saturate

theorem record_saturate (l delta : SpeculationLedger) : l.saturate.record delta = (l + delta).saturate := by
  have hmin : ∀ m n, min (min m (2 ^ 64 - 1) + n) (2 ^ 64 - 1) = min (m + n) (2 ^ 64 - 1) := by
    omega
  ext <;> exact hmin _ _

end SpeculationLedger

inductive OutcomeClass where
  | hit
  | failed
  | cancelled
  | wasted
  deriving DecidableEq

section Deltas
variable {V : Type} (permit : SpeculationPermit V)

def dispatchDelta : SpeculationLedger where
  dispatched := 1
  workUnitsDispatched := permit.workBudget
  providerTokensDispatched := permit.providerTokenBudget

def OutcomeClass.delta : OutcomeClass → SpeculationLedger
  | .hit =>
    { claimHits := 1
      workUnitsClaimed := permit.workBudget
      providerTokensClaimed := permit.providerTokenBudget }
  | .failed => { failed := 1 }
  | .cancelled =>
    { cancelled := 1
      providerTokensWastedUpperBound := permit.providerTokenBudget }
  | .wasted =>
    { cancelled := 1
      wastedReady := 1
      providerTokensWastedUpperBound := permit.providerTokenBudget }

end Deltas

structure Conserves (l : SpeculationLedger) : Prop where
  outcomes : l.claimHits + l.failed + l.cancelled ≤ l.dispatched
  wasted : l.wastedReady ≤ l.cancelled
  work : l.workUnitsClaimed ≤ l.workUnitsDispatched
  tokens : l.providerTokensClaimed + l.providerTokensWastedUpperBound ≤ l.providerTokensDispatched

def conserving : AddSubmonoid SpeculationLedger where
  carrier := {l | Conserves l}
  zero_mem' := ⟨le_rfl, le_rfl, le_rfl, le_rfl⟩
  add_mem' := by
    intro a b ha hb
    have houtcomes := Nat.add_le_add ha.outcomes hb.outcomes
    have hwasted := Nat.add_le_add ha.wasted hb.wasted
    have hwork := Nat.add_le_add ha.work hb.work
    have htokens := Nat.add_le_add ha.tokens hb.tokens
    constructor
    · simp only [SpeculationLedger.add_eq]
      omega
    · exact hwasted
    · exact hwork
    · simp only [SpeculationLedger.add_eq]
      omega

theorem Conserves.validate_saturate {l : SpeculationLedger} (h : Conserves l) (hmissed : l.claimInvariantFailures = 0) :
    l.saturate.validate = .ok () := by
  obtain ⟨houtcomes, hwasted, hwork, htokens⟩ := h
  unfold SpeculationLedger.validate
  rw [if_neg, if_neg]
  · simp only [SpeculationLedger.saturate]
    omega
  · simp only [SpeculationLedger.saturate]
    omega

end Zero.Speculation
