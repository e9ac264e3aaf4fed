import ZeroStack.Kernel.Calls
import ZeroStack.Program.Session

/-! A process that works with transactions one after another: it calls their methods in any
order, loses the transaction it holds when it dies, and finds the journal again. -/

open Durable

namespace Zero.Kernel

inductive TransactionCall where
  | begin (c : EngineCallContext)
  | apply (request : FileEffectRequest)
  | commit
  | compensateCommitted
  | rollback
  | drop
  | reconcile (c : EngineCallContext)
  deriving DecidableEq

inductive TransactionReply where
  | done (result : Except TransactionError Unit)
  | applied (result : Except TransactionError FileEffectReceipt)
  | committed (result : Except TransactionError (List FileEffectReceipt))
  | reconciled (result : Except TransactionError (List PathBuf))
  | idle

abbrev TransactionInvocation := Invocation TransactionCall KernelChoice

section System
variable (L : Layout)

def methodProg : TransactionCall → Transaction → KernelProgram (Option Transaction × TransactionReply)
  | .apply request, tx => do
    let (tx, result) ← apply L tx request
    pure (some tx, .applied result)
  | .commit, tx => do
    let (tx, result) ← commit L tx
    pure (some tx, .committed result)
  | .compensateCommitted, tx => do
    let (tx, result) ← compensateCommitted L tx
    pure (some tx, .done result)
  | .rollback, tx => do
    let result ← rollback L tx
    pure (none, .done result)
  | .drop, tx => do
    drop L tx
    pure (none, .idle)
  | _, tx => pure (some tx, .idle)

def transactionSystem : System KernelOp KernelOp.Res (Option Transaction) World TransactionCall TransactionReply where
  prog call m := match call with
    | .begin c => do
      match ← begin L c with
      | .ok tx => pure (some tx, .done (.ok ()))
      | .error e => pure (m, .done (.error e))
    | .reconcile c => do
      let result ← reconcile L c
      pure (m, .reconciled result)
    | call => match m with
      | some tx => methodProg L call tx
      | none => pure (none, .idle)
  fresh := none
  reboot := World.reboot

end System

section Invariant
variable {L : Layout} {fault : Prop} {focus : Option Focus}

def Kept (L : Layout) (fault : Prop) (focus : Option Focus) (c : Config (Option Transaction) World) : Prop :=
  match c.memory with
  | some tx => ∃ st, Held L fault focus tx st c.disk
  | none => Sound L focus c.disk

structure Focused (focus : Option Focus) (call : TransactionCall) (c : Config (Option Transaction) World) :
    Prop where
  begins : ∀ f ∈ focus, ∀ context, call = .begin context →
    context.key = f.key ∧ (c.disk.journal.slot f.key = none → c.disk.files = f.files)
  reconciles : ∀ f ∈ focus, ∀ context, call = .reconcile context →
    ∀ k : RecordKey, k.session = context.sessionId → f.settled k

theorem focused_none (call : TransactionCall) (c : Config (Option Transaction) World) :
    Focused none call c := ⟨nofun, nofun⟩

theorem Kept.sound {c : Config (Option Transaction) World} (h : Kept L fault focus c) : Sound L focus c.disk := by
  unfold Kept at h
  cases hm : c.memory with
  | some tx =>
    rw [hm] at h
    obtain ⟨st, hheld⟩ := h
    exact hheld.sound
  | none =>
    rw [hm] at h
    exact h

theorem runs_methodProg (call : TransactionCall) {tx : Transaction} {st : TransactionRecord} {s : World}
    (h : Held L fault focus tx st s) :
    Runs L fault focus (fun out t => Kept L fault focus ⟨out.1, t⟩) (methodProg L call tx) s := by
  cases call with
  | apply request => exact (runs_apply h).bind fun _ _ hkeep => hkeep.2
  | commit => exact (runs_commit h).bind fun _ _ hout => hout.keeps.2
  | compensateCommitted => exact (runs_compensateCommitted h).bind fun _ _ hout => hout.1.2
  | rollback => exact (runs_rollback h).bind fun _ _ hout => hout.1
  | drop => exact (runs_drop h).bind fun _ _ hout => hout.sound
  | begin c | reconcile c => exact ⟨st, h⟩

theorem runs_call {call : TransactionCall} {m : Option Transaction} {s : World}
    (h : Kept L fault focus ⟨m, s⟩) (hd : Focused focus call ⟨m, s⟩) :
    Runs L fault focus (fun out t => Kept L fault focus ⟨out.1, t⟩) ((transactionSystem L).prog call m) s := by
  have hs : Sound L focus s := h.sound
  cases m with
  | none =>
    cases call with
    | begin c =>
      refine (runs_begin hs fun f hf => ?_).bind fun out t hout => ?_
      · obtain ⟨hk, hfiles⟩ := hd.begins f hf c rfl
        exact ⟨hk, hk ▸ hfiles⟩
      · cases out with
        | ok tx => exact (hout.held tx rfl).2.2
        | error e => exact hout.sound
    | reconcile c =>
      exact (runs_reconcile hs fun f hf => hd.reconciles f hf c rfl).bind fun _ _ hout => hout.1
    | apply | commit | compensateCommitted | rollback | drop => exact hs
  | some tx =>
    obtain ⟨st, hheld⟩ := h
    cases call with
    | begin c =>
      refine (runs_begin_leased hs hheld.leased).bind fun out t hout => ?_
      obtain ⟨⟨e, rfl⟩, rfl⟩ := hout
      exact ⟨st, hheld⟩
    | reconcile c =>
      refine (runs_reconcile_leased hs hheld.leased).bind fun out t hout => ?_
      obtain ⟨-, rfl⟩ := hout
      exact ⟨st, hheld⟩
    | apply request => exact runs_methodProg (.apply request) hheld
    | commit => exact runs_methodProg .commit hheld
    | compensateCommitted => exact runs_methodProg .compensateCommitted hheld
    | rollback => exact runs_methodProg .rollback hheld
    | drop => exact runs_methodProg .drop hheld

theorem transaction_invariant (L : Layout) (fault : Prop) (focus : Option Focus) :
    System.Invariant (transactionSystem L) (kernel L) (Focused focus) (Allowed L fault focus)
      (Step L fault focus) (Kept L fault focus) (Sound L focus) where
  call := fun _ _ _ h hd => runs_call h hd
  disk := fun _ _ h => h.sound
  step := fun _ _ _ h => h.2
  reboot := fun _ h => h.of_eq rfl rfl rfl

theorem step_reboot {s : World} (h : Sound L focus s) : Step L fault focus s s.reboot :=
  ⟨.of_journal rfl, h.of_eq rfl rfl rfl⟩

end Invariant
end Zero.Kernel
