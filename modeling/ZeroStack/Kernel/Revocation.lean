import ZeroStack.Kernel.Calls

/-! Where no restore of a file fails, a transaction that has not been committed can be taken
back at any step: its stored record is neither committed nor given up. -/

open Durable

namespace Zero.Kernel
variable {L : Layout} {k : RecordKey} {s : World} {tx : Transaction} {α : Type} {Q : α → World → Prop}

structure Revocable (session : String) (r : TransactionRecord) : Prop where
  session : r.sessionId = session
  uncommitted : r.state ≠ .committed
  recoverable : r.state ≠ .recoveryRequired

def Filed (k : RecordKey) (s : World) : Prop :=
  ∃ r, s.journal.slot k = some (.record r) ∧ Revocable k.session r

structure Reverts (tx : Transaction) : Prop where
  record : Revocable tx.key.session tx.record
  settled : tx.settled = true → tx.record.state = .rolledBack

def Restoring (c : KernelChoice) (_ : KernelOp) (_ : World) : Prop := c.restore = none

abbrev Revokes (L : Layout) (k : RecordKey) (Q : α → World → Prop) (p : KernelProgram α) (s : World) : Prop :=
  (kernel L).Safe Restoring (fun _ t => Filed k t) Q p s

theorem Revocable.withState {session : String} {r r' : TransactionRecord} (h : Revocable session r)
    (hid : r'.sessionId = r.sessionId) (hs : r'.state = r.state ∨ r'.state = .prepared ∨
      r'.state = .applying ∨ r'.state = .compensating ∨ r'.state = .rolledBack) : Revocable session r' := by
  refine ⟨hid.trans h.session, ?_, ?_⟩
  · rcases hs with hs | hs | hs | hs | hs <;> rw [hs]
    exacts [h.uncommitted, by decide, by decide, by decide, by decide]
  · rcases hs with hs | hs | hs | hs | hs <;> rw [hs]
    exacts [h.recoverable, by decide, by decide, by decide, by decide]

variable {r : TransactionRecord}

theorem Filed.putRecord (hr : Revocable k.session r) : Filed k (s.putRecord k r) :=
  ⟨r, Directory.put_self .., hr⟩

section Rollback

theorem revokes_persist (h : Filed k s) (hr : Revocable k.session r)
    {f : Except TransactionError Unit → KernelProgram α}
    (hf : ∀ result t, Filed k t → t.files = s.files → Revokes L k Q (f result) t) :
    Revokes L k Q (persistRecord L k r >>= f) s := by
  have hput : Filed k (s.putRecord k r) := .putRecord hr
  exact safe_persistRecord ⟨hput, hf _ _ hput rfl⟩ (fun _ _ _ _ _ => ⟨h, hf _ s h rfl⟩)
    fun _ _ _ _ _ => ⟨hput, hf _ _ hput rfl⟩

theorem revokes_rollbackEffects (es : List PreparedEffect) (h : Filed k s) :
    Revokes L k (fun out t => out.2 = [] ∧ Filed k t) (rollbackEffects es) s := by
  induction es with
  | nil => exact ⟨rfl, h⟩
  | cons e es ih =>
    refine ih.bind fun ⟨es', errors⟩ t ⟨hnone, hfiled⟩ => ?_
    cases e.restored with
    | true => exact ⟨hnone, hfiled⟩
    | false =>
      refine safe_restoreFile hfiled hfiled ⟨hnone, hfiled⟩ fun c failure hc hfail => ?_
      rw [hc] at hfail
      cases hfail

theorem close_rolls {session : String} (h : Revocable session r) : (r.close []).state = .rolledBack := by
  refine close_rolledBack.mpr ⟨rfl, ?_⟩
  cases hs : r.state with
  | committed => exact absurd hs h.uncommitted
  | recoveryRequired => exact absurd hs h.recoverable
  | prepared | applying | compensating | rolledBack => rfl

structure RolledBack (session : String) (r : TransactionRecord) : Prop where
  session : r.sessionId = session
  state : r.state = .rolledBack

theorem RolledBack.revocable {session : String} (h : RolledBack session r) : Revocable session r := by
  refine ⟨h.session, ?_, ?_⟩ <;> rw [h.state] <;> decide

theorem revokes_rollbackRecord (h : Filed k s) (hr : Revocable k.session r) {f : TransactionRecord → KernelProgram α}
    (hf : ∀ r' t, RolledBack k.session r' → Filed k t → Revokes L k Q (f r') t) :
    Revokes L k Q (rollbackRecord r >>= f) s := by
  unfold rollbackRecord
  rw [Program.bind_assoc]
  refine (revokes_rollbackEffects r.effects h).bind fun ⟨effects, errors⟩ t ⟨hnone, hfiled⟩ => ?_
  have herrors : errors = [] := hnone
  subst herrors
  have hrev : Revocable k.session { r with effects := effects } := hr.withState rfl (.inl rfl)
  exact hf _ t ⟨(close_sessionId _ _).trans hr.session, close_rolls hrev⟩ hfiled

theorem revokes_rollbackAndPersist (h : Filed tx.key s) (hr : Revocable tx.key.session tx.record)
    {f : Attempt Unit → KernelProgram α} (hf : ∀ r published t, RolledBack tx.key.session r → Filed tx.key t →
      Revokes L tx.key Q (f (tx.withRecord r, published)) t) :
    Revokes L tx.key Q (rollbackAndPersist L tx >>= f) s := by
  unfold rollbackAndPersist
  rw [Program.bind_assoc]
  refine revokes_rollbackRecord h hr fun r t hrolled hfiled => ?_
  rw [Program.bind_assoc]
  exact revokes_persist hfiled hrolled.revocable fun published u hu _ => hf r published u hrolled hu

end Rollback

section Methods

structure Reverting (tx : Transaction) (out : Attempt α) (t : World) : Prop where
  context : out.1.context = tx.context
  reverts : Reverts out.1
  filed : Filed tx.key t

theorem Reverting.rolled {t : World} (result : Except TransactionError α)
    (hr : RolledBack tx.key.session r) (hf : Filed tx.key t) :
    Reverting tx (tx.withRecord r, result) t := ⟨rfl, ⟨hr.revocable, fun _ => hr.state⟩, hf⟩

theorem Reverting.open {t : World} (result : Except TransactionError α)
    (ho : tx.settled = false) (hr : Revocable tx.key.session r) (hf : Filed tx.key t) :
    Reverting tx (tx.withRecord r, result) t := by
  refine ⟨rfl, ⟨hr, fun hs => ?_⟩, hf⟩
  rw [show (tx.withRecord r).settled = tx.settled from rfl, ho] at hs
  cases hs

theorem Reverting.of_withRecord {out : Attempt α} {t : World}
    (h : Reverting (tx.withRecord r) out t) : Reverting tx out t := ⟨h.context, h.reverts, h.filed⟩

section
variable (h : Filed tx.key s) (ho : tx.settled = false) (hr : Revocable tx.key.session tx.record)
include h ho hr

theorem revokes_withdraw {error : TransactionError} : Revokes L tx.key (Reverting tx) (withdraw L tx error) s := by
  have hpop : Revocable tx.key.session tx.record.pop := by
    refine hr.withState rfl ?_
    unfold TransactionRecord.pop
    split_ifs
    · exact .inr (.inl rfl)
    · exact .inl rfl
  refine revokes_persist h hpop fun result t hfiled _ => ?_
  cases result with
  | error e | ok u => exact .open _ ho hpop hfiled

theorem revokes_applyFailed {error : EngineError} : Revokes L tx.key (Reverting tx) (applyFailed L tx error) s := by
  unfold applyFailed
  split_ifs
  · exact revokes_withdraw h ho hr
  · refine safe_isCancelled h fun c _ => ?_
    split_ifs
    · exact revokes_withdraw h ho hr
    · refine revokes_rollbackAndPersist h hr fun r published t hrolled hfiled => ?_
      exact ⟨rfl, ⟨hrolled.revocable, fun _ => hrolled.state⟩, hfiled⟩

variable (tx) in
omit ho in
theorem revokes_applyMismatched {detail : String} :
    Revokes L tx.key (Reverting tx) (applyMismatched L tx detail) s := by
  unfold applyMismatched
  exact revokes_rollbackAndPersist h hr fun r published t hrolled hfiled => .rolled _ hrolled hfiled

variable (tx) in
theorem revokes_applyAccepted {receipt : FileEffectReceipt} :
    Revokes L tx.key (Reverting tx) (applyAccepted L tx receipt) s := by
  unfold applyAccepted
  refine safe_isCancelled h fun c _ => ?_
  split_ifs
  · exact revokes_rollbackAndPersist h hr fun r published t hrolled hfiled => .rolled _ hrolled hfiled
  · refine revokes_persist h hr fun result t hfiled _ => ?_
    cases result with
    | error e | ok u => exact .open _ ho hr hfiled

variable (tx) in
theorem revokes_applyDispatch {e : PreparedEffect} : Revokes L tx.key (Reverting tx) (applyDispatch L tx e) s := by
  have hset : ∀ content, Filed tx.key (s.setFile (L.resolve e.request.path) content) := fun _ => h
  unfold applyDispatch
  refine safe_isCancelled h fun c _ => ?_
  split_ifs
  · exact revokes_withdraw h ho hr
  · refine safe_applyFile h (fun _ => h) (fun c after path journal _ _ _ => ?_)
      (fun error _ => revokes_applyFailed h ho hr)
      fun c error wrote _ _ _ => ⟨revokes_applyFailed h ho hr, fun content => revokes_applyFailed (hset content) ho hr⟩
    have hreceive : ∀ receipt, Revocable tx.key.session (tx.record.receive receipt) :=
      fun receipt => hr.withState rfl (.inl rfl)
    generalize FileEffectReceipt.mk e.request.kind (receiptPath L e.request path)
      (s.files (L.resolve e.request.path)) after journal = receipt
    cases hm : receiptMismatch e receipt with
    | some detail =>
      simp only [hm]
      exact (revokes_applyMismatched (tx.withRecord (tx.record.receive receipt)) (hset after) (hreceive receipt)).post
        fun _ _ => Reverting.of_withRecord
    | none =>
      simp only [hm]
      exact (revokes_applyAccepted (tx.withRecord (tx.record.receive receipt)) (hset after) ho (hreceive receipt)).post
        fun _ _ => Reverting.of_withRecord

theorem revokes_applySnapshot {request : FileEffectRequest} {snapshot : Option ZeroHandle} :
    Revokes L tx.key (Reverting tx) (applySnapshot L tx request snapshot) s := by
  unfold applySnapshot
  cases bindPreimage request snapshot with
  | error e => exact .open (r := tx.record) _ ho hr h
  | ok bound =>
    refine safe_putPreparation h fun preparation => ?_
    cases preparation with
    | error e => exact .open (r := tx.record) _ ho hr h
    | ok preparation =>
      have hpush : ∀ e, Revocable tx.key.session (tx.record.push e) := fun e => hr.withState rfl (.inl rfl)
      dsimp only
      split
      · exact .open _ ho (hpush _) h
      · have happly : Revocable tx.key.session
            { tx.record.push ⟨bound, snapshot, preparation, none, false⟩ with state := .applying } :=
          hr.withState rfl (.inr (.inr (.inl rfl)))
        refine revokes_persist (k := tx.key) h happly fun result t hfiled _ => ?_
        cases result with
        | error e => exact .open _ ho happly hfiled
        | ok u =>
          exact (revokes_applyDispatch (tx.withRecord { tx.record.push
            ⟨bound, snapshot, preparation, none, false⟩ with state := .applying }) hfiled ho happly).post
              fun _ _ => Reverting.of_withRecord

end

variable (h : Filed tx.key s) (hr : Reverts tx)
include h hr

theorem revokes_apply {request : FileEffectRequest} : Revokes L tx.key (Reverting tx) (apply L tx request) s := by
  have hsame : ∀ result : Except TransactionError FileEffectReceipt, Reverting tx (tx, result) s :=
    fun _ => ⟨rfl, hr, h⟩
  unfold apply
  cases ho : tx.settled with
  | true => exact hsame _
  | false =>
    simp only [Bool.false_eq_true, if_false]
    split_ifs
    · exact hsame _
    · refine safe_isCancelled h fun c _ => ?_
      split_ifs
      · exact hsame _
      · refine safe_readFile h (fun content _ => ?_) (fun e he _ => ?_) fun c e _ _ he => ?_
        · exact revokes_applySnapshot h ho hr.record
        · simp only [he, if_true]
          exact revokes_applySnapshot h ho hr.record
        · simp only [he, if_false]
          exact hsame _

theorem revokes_drop : Revokes L tx.key (fun _ t => Filed tx.key t) (drop L tx) s := by
  unfold drop
  split_ifs
  · exact safe_release (f := pure) h h
  · refine revokes_rollbackAndPersist h hr.record fun r published t hrolled hfiled => ?_
    exact safe_release (f := pure) hfiled hfiled

theorem revokes_rollbackOnly : Revokes L tx.key (fun out t => Reverting tx out t ∧ out.1.record.state = .rolledBack)
      (rollbackOnly L tx) s := by
  unfold rollbackOnly
  split_ifs with hrolled hrequired hcommitted hsettled
  · exact ⟨⟨rfl, ⟨hr.record, fun _ => hrolled⟩, h⟩, hrolled⟩
  · exact absurd hrequired hr.record.recoverable
  · exact absurd hcommitted hr.record.uncommitted
  · exact absurd (hr.settled hsettled) hrolled
  · refine revokes_rollbackAndPersist h hr.record fun r published t hrolled' hfiled => ?_
    cases published with
    | error e => exact ⟨.rolled _ hrolled' hfiled, hrolled'.state⟩
    | ok u => exact ⟨⟨rfl, ⟨hrolled'.revocable, fun _ => hrolled'.state⟩, hfiled⟩, hrolled'.state⟩

end Methods
end Zero.Kernel
