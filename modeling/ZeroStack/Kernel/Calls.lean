import ZeroStack.Kernel.Rules

/-! One specification for each method of a transaction and for the coordinator: what it may
do to the stored records at any step, and what it leaves in memory and on disk. -/

open Durable List

namespace Zero.Kernel
variable {L : Layout} {fault : Prop} {focus : Option Focus} {s : World} {tx : Transaction}
variable {st : TransactionRecord}

def Keeps (L : Layout) (fault : Prop) (focus : Option Focus) (tx : Transaction) {α : Type}
    (out : Attempt α) (t : World) : Prop :=
  out.1.context = tx.context ∧ ∃ st, Held L fault focus out.1 st t

theorem Live.held (h : Live L fault focus tx st s) (hc : ¬ fault → tx.record.state ≠ .committed) :
    Held L fault focus tx st s := ⟨h, fun hf _ => hc hf⟩

theorem Live.held_of_fault (h : Live L fault focus tx st s) (hf : fault) :
    Held L fault focus tx st s := h.held fun hnf => absurd hf hnf

theorem Live.edge {r : TransactionRecord} (h : Live L fault focus tx st s)
    (hallowed : transitionAllowed tx.record.state r.state = true) (hnf : ¬ fault) : Edge st r := by
  left
  rw [h.same hnf]
  exact hallowed

theorem allowed_of_validate {a b : TransactionState} {u : Unit} (h : validateTransition a b = .ok u) :
    transitionAllowed a b = true := by
  by_contra hno
  rw [validateTransition, if_neg hno] at h
  cases h

theorem Closed.ne_committed {m r : TransactionRecord} (h : Closed m r) : r.state ≠ .committed := by
  intro hc
  have hd := h.dead
  rw [hc] at hd
  cases hd

theorem afterRollback_ok {α : Type} {published : Except TransactionError Unit}
    {otherwise : Except TransactionError α} {a : α} (h : afterRollback tx published otherwise = .ok a) :
    tx.record.state ≠ .recoveryRequired ∧ otherwise = .ok a := by
  unfold afterRollback at h
  cases published with
  | error e => cases h
  | ok u =>
    by_cases hs : tx.record.state = .recoveryRequired
    · simp only [hs, if_true] at h
      cases h
    · simp only [hs, if_false] at h
      exact ⟨hs, h⟩

theorem Closed.rolledBack {m r : TransactionRecord} (h : Closed m r) (hr : r.state ≠ .recoveryRequired) :
    r.state = .rolledBack := by
  have hd := h.dead
  cases hs : r.state <;> simp_all [TransactionState.live]

section Apply

structure Dispatching (L : Layout) (tx : Transaction) (es : List PreparedEffect) (e : PreparedEffect) :
    Prop where
  effects : tx.record.effects = es ++ [e]
  state : tx.record.state = .applying
  fresh : e.restored = false
  receipt : e.receipt = none

variable {es : List PreparedEffect} {e : PreparedEffect}

theorem Dispatching.preimage (h : Dispatching L tx es e) : e.preimage L = ⟨L.resolve e.request.path, e.before⟩ := by
  rw [PreparedEffect.preimage, PreparedEffect.rollbackReceipt, h.receipt]
  rfl

theorem Dispatching.live (h : Dispatching L tx es e) : tx.record.state.live = true := by
  rw [h.state]
  rfl

theorem Dispatching.open (h : Dispatching L tx es e) : tx.record.state ≠ .committed := by
  rw [h.state]
  decide

theorem runs_withdraw {error : TransactionError} (h : Live L fault focus tx st s) (hd : Dispatching L tx es e)
    (hundo : ∀ f ∈ focus, Preimage.undo (undoLog L es) s.files = f.files) :
    Runs L fault focus (Keeps L fault focus tx) (withdraw L tx error) s := by
  have hpop : tx.record.pop.effects = es := by
    simp [TransactionRecord.pop, hd.effects]
  have hstate : tx.record.pop.state = .prepared ∨ tx.record.pop.state = .applying := by
    unfold TransactionRecord.pop
    split_ifs
    · exact .inl rfl
    · exact .inr hd.state
  have hlive : tx.record.pop.state.live = true := by
    rcases hstate with hs | hs <;> rw [hs] <;> rfl
  have hmem : ∀ e' ∈ tx.record.pop.effects, e' ∈ tx.record.effects := by
    intro e' he'
    rw [hpop] at he'
    exact hd.effects ▸ mem_append_left _ he'
  have hpend : Pending L focus (tx.withRecord tx.record.pop) st s :=
    h.withRecord hd.live hlive (fun f hf e' he' => (h.fits f hf).fresh hd.live e' (hmem e' he'))
      (hpop ▸ hundo) fun f hf e' he' => h.backed f hf e' (hmem e' he')
  have hedge : ¬ fault → Edge st tx.record.pop := by
    intro hnf
    have hst : st.state = .applying := (h.same hnf).trans hd.state
    unfold Edge
    rw [hst]
    unfold TransactionRecord.pop
    split_ifs with hempty
    · exact .inr ⟨rfl, rfl, isEmpty_iff.mp hempty⟩
    · left
      rw [hd.state]
      rfl
  have hopen : tx.record.pop.state ≠ .committed := by
    rcases hstate with hs | hs <;> rw [hs] <;> decide
  refine hpend.runs_persist hedge (fun hok => ?_) fun err t st' hf hfail _ => ?_
  · exact ⟨rfl, _, hok.held fun _ => hopen⟩
  · exact ⟨rfl, st', hfail.held_of_fault hf⟩

theorem Live.undo_last {f : Focus} (h : Live L fault focus tx st s) (hd : Dispatching L tx es e) (hf : f ∈ focus)
    (hkeep : s.files (L.resolve e.request.path) = e.before ∨ L.resolve e.request.path ∈ Preimage.keys (undoLog L es)) :
    Preimage.undo (undoLog L es) s.files = f.files := by
  have hundo := (h.fits f hf).undo hd.live
  rw [hd.effects, undoLog_append] at hundo
  change Preimage.undo (undoLog L es ++ [e.preimage L]) s.files = f.files at hundo
  rw [hd.preimage, Preimage.undo_concat] at hundo
  rcases hkeep with hsame | hmem
  · rwa [← hsame, Function.update_eq_self] at hundo
  · rwa [Preimage.undo_update hmem] at hundo

theorem runs_applyFailed {error : EngineError} (h : Live L fault focus tx tx.record s) (hd : Dispatching L tx es e)
    (hkept : error.kind.precondition = true → s.files (L.resolve e.request.path) = e.before) :
    Runs L fault focus (Keeps L fault focus tx) (applyFailed L tx error) s := by
  unfold applyFailed
  cases hp : error.kind.precondition with
  | true =>
    exact runs_withdraw h hd fun f hf => h.undo_last hd hf (.inl (hkept hp))
  | false =>
    refine safe_isCancelled (.still h.sound) fun c hc => ?_
    cases hcan : c.cancelled with
    | true =>
      apply runs_withdraw h hd
      intro f hf
      have hne : focus ≠ none := by
        intro hnone
        rw [hnone] at hf
        cases hf
      exact h.undo_last hd hf (hc.2 hne tx.key tx.record es e rfl hcan h.stored hd.effects)
    | false =>
      refine h.runs_rollbackAndPersist (fun _ => hd.open) fun r st' published t hlive _ _ _ => ?_
      exact ⟨rfl, st', hlive.settle⟩

theorem Dispatching.receive_effects (hd : Dispatching L tx es e) (receipt : FileEffectReceipt) :
    (tx.record.receive receipt).effects = es ++ [{ e with receipt := some receipt }] := by
  rw [TransactionRecord.receive, hd.effects, modifyLast_concat]

theorem Dispatching.receive {receipt : FileEffectReceipt} (hd : Dispatching L tx es e)
    (hpath : L.resolve receipt.path = L.resolve e.request.path) (hbefore : receipt.before = e.before) :
    undoLog L (tx.record.receive receipt).effects = undoLog L tx.record.effects := by
  rw [hd.receive_effects, hd.effects, undoLog_append, undoLog_append]
  congr 1
  change [PreparedEffect.preimage L _] = [e.preimage L]
  rw [hd.preimage, ← hpath, ← hbefore]
  rfl

theorem Live.receive (receipt : FileEffectReceipt) (h : Live L fault focus tx tx.record s) (hd : Dispatching L tx es e)
    (hpath : L.resolve receipt.path = L.resolve e.request.path) (hbefore : receipt.before = e.before) :
    Live L fault focus (tx.withRecord (tx.record.receive receipt)) tx.record s := by
  have hlog := hd.receive hpath hbefore
  refine ⟨h.withRecord hd.live hd.live (fun f hf e' he' => ?_)
    (fun f hf => hlog ▸ (h.fits f hf).undo hd.live) fun f hf e' he' => .inl ?_, fun _ => rfl⟩
  · rw [hd.receive_effects] at he'
    rcases mem_append.mp he' with hmem | hmem
    · exact (h.fits f hf).fresh hd.live e' (hd.effects ▸ mem_append_left _ hmem)
    · rw [mem_singleton.mp hmem]
      exact hd.fresh
  · rw [← hlog]
    exact mem_keys_undoLog he'

theorem runs_applyMismatched {detail : String} (h : Live L fault focus tx st s) (hopen : tx.record.state ≠ .committed) :
    Runs L fault focus (Keeps L fault focus tx) (applyMismatched L tx detail) s := by
  refine h.runs_rollbackAndPersist (fun _ => hopen) fun r st' published t hl hc _ _ => ?_
  exact ⟨rfl, st', hl.held fun _ => hc.ne_committed⟩

theorem runs_applyAccepted {receipt : FileEffectReceipt} (h : Live L fault focus tx st s)
    (hopen : tx.record.state ≠ .committed) (hstate : transitionAllowed tx.record.state tx.record.state = true) :
    Runs L fault focus (Keeps L fault focus tx) (applyAccepted L tx receipt) s := by
  refine safe_isCancelled (.still h.sound) fun c _ => ?_
  cases c.cancelled with
  | true =>
    refine h.runs_rollbackAndPersist (fun _ => hopen) fun r st' published t hl hc _ _ => ?_
    exact ⟨rfl, st', hl.held fun _ => hc.ne_committed⟩
  | false =>
    refine h.toPending.runs_persist (h.edge hstate) (fun hok => ?_) fun err t st' hf hfail _ => ?_
    · exact ⟨rfl, _, hok.held fun _ => hopen⟩
    · exact ⟨rfl, st', hfail.held_of_fault hf⟩

theorem runs_applyDispatch (h : Live L fault focus tx tx.record s) (hd : Dispatching L tx es e)
    (hbefore : s.files (L.resolve e.request.path) = e.before) :
    Runs L fault focus (Keeps L fault focus tx) (applyDispatch L tx e) s := by
  have hkey : L.resolve e.request.path ∈ Preimage.keys (undoLog L tx.record.effects) := by
    have hmem : e ∈ tx.record.effects := hd.effects ▸ mem_append_right _ (mem_singleton_self e)
    have := mem_keys_undoLog (L := L) hmem
    rwa [hd.preimage] at this
  have hwrite : ∀ content, Live L fault focus tx tx.record (s.setFile (L.resolve e.request.path) content) :=
    fun content => ⟨h.toPending.write content hd.live hkey hkey, h.same⟩
  refine safe_isCancelled (.still h.sound) fun c _ => ?_
  cases c.cancelled with
  | true =>
    exact runs_withdraw h hd fun f hf => h.undo_last hd hf (.inl hbefore)
  | false =>
    -- the one step that changes a file of the workspace
    refine safe_applyFile (.still h.sound) (fun content => ⟨.of_journal rfl, (hwrite content).sound⟩)
      (fun c after path journal _ _ hpath => ?_)
      (fun error _ => runs_applyFailed h hd fun _ => hbefore)
      fun c error wrote _ _ hp => ⟨runs_applyFailed h hd fun _ => hbefore,
        fun content => runs_applyFailed (hwrite content) hd fun hpre => ?_⟩
    · have hlive := (hwrite after).receive ⟨e.request.kind, receiptPath L e.request path,
        s.files (L.resolve e.request.path), after, journal⟩ hd hpath hbefore
      dsimp only
      split
      · exact runs_applyMismatched hlive hd.open
      · have hself : transitionAllowed tx.record.state tx.record.state = true := by
          rw [hd.state]
          rfl
        exact runs_applyAccepted hlive hd.open hself
    · rw [hp] at hpre
      cases hpre

theorem Pending.push (h : Pending L focus tx st s) (request : FileEffectRequest)
    (preparation : ZeroHandle) {r : TransactionRecord} (hl : tx.record.state.live = true)
    (hr : r.state.live = true) (heff : r.effects = tx.record.effects ++
      [⟨request, s.files (L.resolve request.path), preparation, none, false⟩]) :
    Pending L focus (tx.withRecord r) st s := by
  apply h.withRecord hl hr
  · intro f hf e he
    rw [heff] at he
    rcases mem_append.mp he with hmem | hmem
    · exact (h.fits f hf).fresh hl e hmem
    · rw [mem_singleton.mp hmem]
  · intro f hf
    rw [heff, undoLog_append]
    exact (Preimage.undo_record _ _ _).trans ((h.fits f hf).undo hl)
  · intro f hf e he
    rw [heff] at he
    rcases mem_append.mp he with hmem | hmem
    · exact h.backed f hf e hmem
    · -- the stored record either knows the file or has left it alone
      rw [mem_singleton.mp hmem]
      by_cases hk : L.resolve request.path ∈ Preimage.keys (undoLog L st.effects)
      · exact .inl hk
      · right
        have hstored : Fits L f.files s.files st := (h.sound f hf).fits st (h.key f hf ▸ h.stored)
        change s.files (L.resolve request.path) = f.files (L.resolve request.path)
        rw [← hstored.undo (h.stored_live hl), Preimage.undo_of_notMem hk]

theorem runs_applyPrepared {request : FileEffectRequest} (h : Held L fault focus tx st s)
    (hl : tx.record.state.live = true) (hc : tx.record.state ≠ .committed) : Runs L fault focus (Keeps L fault focus tx)
      (applyPrepared L tx request (s.files (L.resolve request.path))) s := by
  refine safe_putPreparation (.still h.sound) fun preparation => ?_
  cases preparation with
  | error e => exact ⟨rfl, st, h⟩
  | ok preparation =>
    cases hv : validateTransition tx.record.state .applying with
    | error e =>
      -- the pushed effect stays in memory, in the state the record had
      simp only [TransactionRecord.push, hv]
      have hpend := h.toPending.push request preparation
        (r := tx.record.push ⟨request, s.files (L.resolve request.path), preparation, none, false⟩)
        hl hl rfl
      exact ⟨rfl, st, ⟨hpend, h.same⟩, fun _ _ => hc⟩
    | ok u =>
      simp only [TransactionRecord.push, hv]
      have hpend := h.toPending.push request preparation
        (r := { tx.record.push ⟨request, s.files (L.resolve request.path), preparation, none, false⟩ with
          state := .applying }) hl rfl rfl
      refine hpend.runs_persist (h.edge (allowed_of_validate hv)) (fun hok => ?_) fun err t st' hf hfail _ => ?_
      · exact runs_applyDispatch hok ⟨rfl, rfl, rfl, rfl⟩ rfl
      · exact ⟨rfl, st', hfail.held_of_fault hf⟩

theorem bindPreimage_path {request bound : FileEffectRequest} {snapshot : Option ZeroHandle}
    (h : bindPreimage request snapshot = .ok bound) : bound.path = request.path := by
  unfold bindPreimage at h
  split at h
  · cases h
    rfl
  · split_ifs at h
    cases h
    rfl
  · split_ifs at h
    cases h
    rfl

theorem runs_applySnapshot (request : FileEffectRequest) (h : Held L fault focus tx st s)
    (hl : tx.record.state.live = true) (hc : tx.record.state ≠ .committed) : Runs L fault focus (Keeps L fault focus tx)
      (applySnapshot L tx request (s.files (L.resolve request.path))) s := by
  unfold applySnapshot
  cases hb : bindPreimage request (s.files (L.resolve request.path)) with
  | error e => exact ⟨rfl, st, h⟩
  | ok bound =>
    rw [← bindPreimage_path hb]
    exact runs_applyPrepared h hl hc

theorem runs_apply {request : FileEffectRequest} (h : Held L fault focus tx st s) :
    Runs L fault focus (Keeps L fault focus tx) (apply L tx request) s := by
  unfold apply
  cases tx.settled with
  | true => exact ⟨rfl, st, h⟩
  | false =>
    cases ht : isTerminal tx.record.state with
    | true => exact ⟨rfl, st, h⟩
    | false =>
      have hl : tx.record.state.live = true ∧ tx.record.state ≠ .committed := by
        cases hs : tx.record.state <;> simp_all [isTerminal, TransactionState.live]
      refine safe_isCancelled (.still h.sound) fun c _ => ?_
      cases c.cancelled with
      | true => exact ⟨rfl, st, h⟩
      | false =>
        refine safe_readFile (.still h.sound) (fun content hcontent => ?_) (fun e he hmissing => ?_)
          fun c e _ _ he => ?_
        · have := runs_applySnapshot request h hl.1 hl.2
          rwa [hcontent] at this
        · simp only [he]
          have := runs_applySnapshot request h hl.1 hl.2
          rwa [hmissing] at this
        · simp only [he]
          exact ⟨rfl, st, h⟩

end Apply

section Settlement

def Recommits (tx : Transaction) : Prop :=
  tx.settled = false ∧ tx.record.state = .committed ∧ tx.record.effects.all (·.receipt.isSome) = true

structure Committing (L : Layout) (fault : Prop) (focus : Option Focus) (tx : Transaction) (s : World)
    (out : Attempt (List FileEffectReceipt)) (t : World) : Prop where
  keeps : Keeps L fault focus tx out t
  memory : ∀ receipts, out.2 = .ok receipts →
    out.1 = (tx.withRecord { tx.record with state := .committed }).settle ∧ receipts = tx.receipts
  files : ∀ receipts, out.2 = .ok receipts → t.files = s.files
  receipted : ∀ receipts, out.2 = .ok receipts → tx.record.effects.all (·.receipt.isSome) = true
  stored : ∀ receipts, out.2 = .ok receipts → t.journal.slot tx.key = some (.record out.1.record) ∨ Recommits tx ∧ t = s

theorem Committing.refused {e : TransactionError} {tx' : Transaction} {t : World}
    (hk : Keeps L fault focus tx ((tx', .error e) : Attempt (List FileEffectReceipt)) t) :
    Committing L fault focus tx s (tx', .error e) t :=
  ⟨hk, nofun, nofun, nofun, nofun⟩

theorem all_receipted {effects : List PreparedEffect} (h : ¬ effects.any (·.receipt.isNone) = true) :
    effects.all (·.receipt.isSome) = true := by
  simpa [Option.isSome_iff_ne_none] using h

variable (h : Held L fault focus tx st s)
include h

theorem runs_commitLive : Runs L fault focus (Committing L fault focus tx s) (commitLive L tx) s := by
  unfold commitLive
  split_ifs with hmissing
  · exact .refused ⟨rfl, st, h⟩
  · cases commitMismatch tx.record.effects with
    | some e => exact .refused ⟨rfl, st, h⟩
    | none =>
      cases hv : validateTransition tx.record.state .committed with
      | error e => exact .refused ⟨rfl, st, h⟩
      | ok u =>
        have hallowed := allowed_of_validate hv
        have hl : tx.record.state.live = true := by
          cases hs : tx.record.state <;> simp_all [transitionAllowed, TransactionState.live]
        have hpend := h.toPending.withState (r := { tx.record with state := .committed }) hl rfl rfl
        refine hpend.runs_persist (h.edge hallowed) (fun hok => ?_) fun err t st' hf hfail _ => ?_
        · refine ⟨⟨rfl, _, hok.settle⟩, fun receipts he => ?_, fun _ _ => rfl,
            fun _ _ => all_receipted hmissing, fun _ _ => .inl hok.stored⟩
          cases he
          exact ⟨rfl, rfl⟩
        · exact .refused ⟨rfl, st', hfail.held_of_fault hf⟩

theorem runs_commit : Runs L fault focus (Committing L fault focus tx s) (commit L tx) s := by
  unfold commit
  cases hset : tx.settled with
  | true => exact .refused ⟨rfl, st, h⟩
  | false =>
    refine safe_isCancelled (.still h.sound) fun c _ => ?_
    cases c.cancelled with
    | true =>
      refine h.toLive.runs_rollbackAndPersist (fun hnf => h.open_ hnf hset) fun r st' published t hlive _ _ _ => ?_
      have hnot : ∀ receipts, afterRollback (tx.withRecord r) published
          (.error (.engine ⟨.cancelled, "transaction cancelled, commit refused", false⟩)) ≠
            .ok (receipts : List FileEffectReceipt) := by
        intro receipts he
        cases (afterRollback_ok he).2
      exact ⟨⟨rfl, st', hlive.settle⟩, fun _ he => absurd he (hnot _),
        fun _ he => absurd he (hnot _), fun _ he => absurd he (hnot _), fun _ he => absurd he (hnot _)⟩
    | false =>
      simp only [Bool.false_eq_true, if_false]
      by_cases hc : tx.record.state = .committed
      · unfold recommit
        split_ifs with hmissing
        · exact .refused ⟨rfl, st, h⟩
        · have hall := all_receipted hmissing
          have hrec : { tx.record with state := .committed } = tx.record := by rw [← hc]
          refine ⟨⟨rfl, st, h.toLive.settle⟩, fun receipts he => ?_, fun _ _ => rfl,
            fun _ _ => hall, fun _ _ => .inr ⟨⟨hset, hc, hall⟩, rfl⟩⟩
          cases he
          rw [hrec]
          exact ⟨rfl, rfl⟩
      · split_ifs
        · exact .refused ⟨rfl, st, h⟩
        · exact runs_commitLive h

theorem runs_compensateCommitted : Runs L fault focus (fun out t => Keeps L fault focus tx out t ∧
      (out.2 = .ok () → out.1.record.state = .rolledBack)) (compensateCommitted L tx) s := by
  unfold compensateCommitted
  split_ifs with hcond
  · exact ⟨⟨rfl, st, h⟩, nofun⟩
  · rw [not_or, not_not] at hcond
    obtain ⟨hc, -⟩ := hcond
    have hv : validateTransition tx.record.state .compensating = .ok () := by
      rw [hc]
      rfl
    have hl : tx.record.state.live = true := by
      rw [hc]
      rfl
    simp only [hv]
    have hpend := h.toPending.withState (r := { tx.record with state := .compensating }) hl rfl rfl
    refine hpend.runs_persist (h.edge (allowed_of_validate hv)) (fun hok => ?_) fun err t st' hf hfail _ => ?_
    · refine hok.runs_rollbackAndPersist nofun fun r st' published t hlive hclosed _ _ => ?_
      refine ⟨⟨rfl, st', hlive.settle⟩, fun he => ?_⟩
      exact hclosed.rolledBack (afterRollback_ok he).1
    · -- the state in memory is put back to what it was
      have hback := hfail.toPending.withState rfl hl rfl
      exact ⟨⟨rfl, st', ⟨hback, fun hnf => absurd hf hnf⟩, fun hnf => absurd hf hnf⟩, nofun⟩

theorem runs_rollbackOnly : Runs L fault focus (fun out t => Keeps L fault focus tx out t ∧
      (out.2 = .ok () → out.1.record.state = .rolledBack ∧ out.1.settled = true)) (rollbackOnly L tx) s := by
  unfold rollbackOnly
  split_ifs with hr hq hc hset
  · exact ⟨⟨rfl, st, h.toLive.settle⟩, fun _ => ⟨hr, rfl⟩⟩
  · exact ⟨⟨rfl, st, h.toLive.settle⟩, nofun⟩
  · exact ⟨⟨rfl, st, h⟩, nofun⟩
  · exact ⟨⟨rfl, st, h⟩, nofun⟩
  · refine h.toLive.runs_rollbackAndPersist (fun _ => hc) fun r st' published t hlive hclosed _ hfault => ?_
    cases published with
    | error e => exact ⟨⟨rfl, st', hlive.held_of_fault (hfault e rfl)⟩, nofun⟩
    | ok u =>
      refine ⟨⟨rfl, st', hlive.settle⟩, fun he => ?_⟩
      have hend : afterRollback (tx.withRecord r) (.ok u) (.ok ()) = .ok () := he
      exact ⟨hclosed.rolledBack (afterRollback_ok hend).1, rfl⟩

structure Drops (L : Layout) (focus : Option Focus) (tx : Transaction) (s t : World) : Prop where
  sound : Sound L focus t
  settled : tx.settled = true → t.files = s.files
  undone : tx.record.state = .rolledBack → ∀ f ∈ focus, t.files = f.files

theorem runs_drop : Runs L fault focus (fun _ t => Drops L focus tx s t) (drop L tx) s := by
  unfold drop
  cases hset : tx.settled with
  | true =>
    have hfree : Drops L focus tx s { s with leased := false } :=
      ⟨h.sound.of_eq rfl rfl rfl, fun _ => rfl, fun hr f hf => (h.fits f hf).undone hr⟩
    exact safe_release (.lease h.sound false) hfree
  | false =>
    refine h.toLive.runs_rollbackAndPersist (fun hnf => h.open_ hnf hset) fun r st' published t hlive hclosed _ _ => ?_
    refine safe_release (.lease hlive.sound false) ⟨hlive.sound.of_eq rfl rfl rfl, fun hs => ?_, fun hr f hf => ?_⟩
    · rw [hset] at hs
      cases hs
    · -- a record that is rolled back stays so
      have hallowed := hclosed.allowed (by rw [hr]; decide)
      rw [hr] at hallowed
      have hrolled : r.state = .rolledBack := by
        cases hs : r.state <;> rw [hs] at hallowed <;> first | rfl | cases hallowed
      exact (hlive.fits f hf).undone hrolled

theorem runs_rollback : Runs L fault focus (fun result t => Sound L focus t ∧
      (result = .ok () → ∀ f ∈ focus, t.files = f.files)) (rollback L tx) s := by
  refine (runs_rollbackOnly h).bind fun ⟨tx', result⟩ t ⟨⟨_, st', hheld⟩, hok⟩ => ?_
  refine (runs_drop hheld).bind fun _ u hdrop => ⟨hdrop.sound, fun hres f hf => ?_⟩
  exact hdrop.undone (hok hres).1 f hf

end Settlement

section Coordinator
variable {c : EngineCallContext}

structure Begins (L : Layout) (fault : Prop) (focus : Option Focus) (c : EngineCallContext) (s : World)
    (out : Except TransactionError Transaction) (t : World) : Prop where
  sound : Sound L focus t
  files : t.files = s.files
  held : ∀ tx, out = .ok tx → tx.context = c ∧ tx.settled = false ∧ ∃ st, Held L fault focus tx st t

theorem Begins.refused {c : EngineCallContext} {e : TransactionError} {t : World} (hs : Sound L focus t)
    (hf : t.files = s.files) : Begins L fault focus c s (.error e) t := ⟨hs, hf, nofun⟩

theorem Begins.begun {c : EngineCallContext} {t : World} (hf : t.files = s.files)
    (hc : tx.context = c) (ho : tx.settled = false) (h : Held L fault focus tx st t) :
    Begins L fault focus c s (.ok tx) t := by
  refine ⟨h.sound, hf, fun tx' he => ?_⟩
  cases he
  exact ⟨hc, ho, st, h⟩

inductive Quiet (session : String) : Option JournalEntry → Prop where
  | absent : Quiet session none
  | notFile : Quiet session (some .notFile)
  | settled (r : TransactionRecord) (hs : r.sessionId = session)
    (hr : r.state = .committed ∨ r.state = .rolledBack) : Quiet session (some (.record r))

structure Reconciles (L : Layout) (focus : Option Focus) (k : RecordKey) (pass : ReconcilePass)
    (s : World) (out : Except TransactionError ReconcilePass) (t : World) : Prop where
  sound : Sound L focus t
  leased : t.leased = s.leased
  others : ∀ j, j ≠ k → t.journal.slot j = s.journal.slot j
  quiet : ∀ pass', out = .ok pass' → pass'.recoveryDetails = [] →
    pass.recoveryDetails = [] ∧ Quiet k.session (t.journal.slot k)

variable {pass : ReconcilePass}

theorem quarantine_others (s : World) (k : RecordKey) :
    ∀ j, j ≠ k → (s.quarantine k).journal.slot j = s.journal.slot j :=
  fun _ hj => Directory.remove_of_ne _ hj

theorem ReconcilePass.result_ok {paths : List PathBuf} (h : pass.result = .ok paths) : pass.recoveryDetails = [] := by
  unfold ReconcilePass.result at h
  split_ifs at h with hd
  exact isEmpty_iff.mp hd

variable (hs : Sound L focus s)
include hs

theorem runs_beginExisting (hl : s.leased = true) (hkey : ∀ f ∈ focus, c.key = f.key) :
    Runs L fault focus (Begins L fault focus c s) (beginExisting L c) s := by
  have hkeep : ∀ e, Begins L fault focus c s (.error e) s := fun _ => .refused hs rfl
  refine safe_loadRecord (.still hs) (fun _ _ _ _ => hkeep _) (fun _ _ _ _ => hkeep _) (fun _ => hkeep _) fun e he => ?_
  rcases e with r | e | _
  · dsimp only
    split_ifs with hre
    · have hstate : r.state = .prepared ∨ r.state = .applying := by
        simp only [reopens, Bool.and_eq_true, Bool.or_eq_true, decide_eq_true_eq] at hre
        exact hre.2
      have hne : r.state ≠ .rolledBack ∧ r.state ≠ .committed := by
        rcases hstate with h | h <;> rw [h] <;> decide
      have hpend : Pending L focus ⟨c, r, false⟩ r s :=
        ⟨hl, he, hs, hkey, fun f hf => (hs f hf).fits r (hkey f hf ▸ he),
          fun _ _ _ he => .inl (mem_keys_undoLog he), fun h => absurd h hne.1, fun _ => rfl⟩
      exact .begun rfl rfl rfl ⟨⟨hpend, fun _ => rfl⟩, fun _ _ => hne.2⟩
    · exact hkeep _
  · exact hkeep _
  · exact hkeep _

theorem runs_beginNew (hl : s.leased = true)
    (hkey : ∀ f ∈ focus, c.key = f.key ∧ s.files = f.files) (hslot : s.journal.slot c.key = none) :
    Runs L fault focus (Begins L fault focus c s) (beginNew L c) s := by
  have hfits : ∀ f ∈ focus, Fits L f.files s.files (begunRecord c) := by
    intro f hf
    rw [(hkey f hf).2]
    exact ⟨nofun, fun _ _ he => (not_mem_nil he).elim, fun _ => rfl⟩
  have hput : Sound L focus (s.putRecord c.key (begunRecord c)) :=
    hs.putRecord fun f hf => ⟨(hkey f hf).1, hfits f hf⟩
  have hmoves : Moves fault s (s.putRecord c.key (begunRecord c)) := by
    intro _ k
    by_cases hk : k = c.key
    · rw [hk, hslot]
      change SlotStep _ none ((s.journal.put c.key _).slot c.key)
      rw [Directory.put_self]
      exact .create _ rfl rfl
    · change SlotStep _ _ ((s.journal.put c.key _).slot k)
      rw [Directory.put_of_ne _ _ hk]
      exact .keep _
  have hlive : Live L fault focus ⟨c, begunRecord c, false⟩ (begunRecord c)
      (s.putRecord c.key (begunRecord c)) :=
    ⟨⟨hl, Directory.put_self .., hput, fun f hf => (hkey f hf).1, hfits,
      fun _ _ _ he => (not_mem_nil he).elim, nofun, fun _ => rfl⟩, fun _ => rfl⟩
  refine safe_persistRecord ⟨⟨hmoves, hput⟩, ?_⟩ (fun _ _ _ _ _ => ⟨.still hs, .refused hs rfl⟩)
    fun _ _ _ _ _ => ⟨⟨hmoves, hput⟩, .refused hput rfl⟩
  exact .begun rfl rfl rfl ⟨hlive, nofun⟩

theorem runs_begin (hkey : ∀ f ∈ focus, c.key = f.key ∧ (s.journal.slot c.key = none → s.files = f.files)) :
    Runs L fault focus (Begins L fault focus c s) (begin L c) s := by
  refine safe_lease (.still hs) (.lease hs true) (fun _ _ => .refused hs rfl) fun _ => ?_
  have hleased : Sound L focus { s with leased := true } := hs.of_eq rfl rfl rfl
  have hbody : Runs L fault focus (Begins L fault focus c { s with leased := true }) (beginLeased L c)
      { s with leased := true } := by
    refine safe_recordExists (.still hleased) ?_
    cases hslot : s.journal.slot c.key with
    | some e => exact runs_beginExisting hleased rfl fun f hf => (hkey f hf).1
    | none =>
      exact runs_beginNew hleased rfl (fun f hf => ⟨(hkey f hf).1, (hkey f hf).2 hslot⟩) hslot
  refine hbody.bind fun out t hout => ?_
  cases out with
  | ok tx => exact ⟨hout.sound, hout.files, hout.held⟩
  | error e =>
    exact safe_release (.lease hout.sound false) (.refused (hout.sound.of_eq rfl rfl rfl) hout.files)

theorem runs_begin_leased (hl : s.leased = true) :
    Runs L fault focus (fun out t => (∃ e, out = .error e) ∧ t = s) (begin L c) s := by
  refine safe_lease (.still hs) (.lease hs true) (fun e _ => ⟨⟨_, rfl⟩, rfl⟩) fun hfree => ?_
  rw [hl] at hfree
  cases hfree

theorem runs_setAside {k : RecordKey} (pass : ReconcilePass) {pass' : ReconcilePass}
    (hstored : ¬ fault → ∀ r, s.journal.slot k = some (.record r) → r.sessionId = k.session →
      r.state ≠ .committed ∧ r.state ≠ .rolledBack) (hreport : pass'.recoveryDetails ≠ []) :
    Runs L fault focus (Reconciles L focus k pass s) (quarantine k >>= fun _ => pure (.ok pass')) s := by
  have hquiet : ∀ t : World, ∀ p, (.ok pass' : Except TransactionError _) = .ok p → p.recoveryDetails = [] →
      pass.recoveryDetails = [] ∧ Quiet k.session (t.journal.slot k) := by
    intro t p hp hd
    cases hp
    exact absurd hd hreport
  refine safe_quarantine (.still hs) ⟨.quarantine hstored, hs.quarantine⟩ (fun _ => ?_) ?_
  · exact ⟨hs, rfl, fun _ _ => rfl, hquiet s⟩
  · exact ⟨hs.quarantine, rfl, quarantine_others s k, hquiet _⟩

theorem runs_reconcileRecord {k : RecordKey} {r : TransactionRecord} (hfocus : ∀ f ∈ focus, f.settled k)
    (hl : s.leased = true)
    (hslot : s.journal.slot k = some (.record r))
    (hsession : r.sessionId = k.session) (hopen : ¬ (r.state = .committed ∨ r.state = .rolledBack)) :
    Runs L fault focus (Reconciles L focus k pass s) (reconcileRecord L k r pass) s := by
  obtain ⟨hc, hr⟩ := not_or.mp hopen
  -- the record on disk is treated like a transaction that was just reopened
  have hpend : Pending L focus ⟨⟨k.session, k.cell, r.traceId⟩, r, false⟩ r s := by
    have hkey : ∀ f ∈ focus, k = f.key := by
      intro f hf
      by_contra hk
      exact hopen ((hs f hf).others k (hfocus f hf) hk r hslot)
    exact ⟨hl, hslot, hs, hkey, fun f hf => (hs f hf).fits r (hkey f hf ▸ hslot),
      fun _ _ _ he => .inl (mem_keys_undoLog he), fun h => absurd h hr, fun _ => rfl⟩
  refine hpend.runs_rollbackRecord fun r' F hpend' hclosed => ?_
  have hkeep : ∀ q, s.journal.slot k = some (.record q) → q.sessionId = k.session →
      q.state ≠ .committed ∧ q.state ≠ .rolledBack := by
    intro q hq _
    rw [hslot] at hq
    cases hq
    exact ⟨hc, hr⟩
  split_ifs with hrec
  · refine safe_quarantine (.still hpend'.sound) ⟨.quarantine fun _ => hkeep, hpend'.sound.quarantine⟩ (fun e => ?_) ?_
    · exact ⟨hpend'.sound, rfl, fun _ _ => rfl, nofun⟩
    · refine ⟨hpend'.sound.quarantine, rfl, quarantine_others _ k, fun p hp hd => ?_⟩
      cases hp
      exact absurd hd (by simp [ReconcilePass.report])
  · have hrolled := hclosed.rolledBack hrec
    have hothers : ∀ j, j ≠ k → (World.putRecord { s with files := F } k r').journal.slot j =
        s.journal.slot j := fun j hj => Directory.put_of_ne _ _ hj
    refine hpend'.runs_persist (fun _ => .inl (hclosed.allowed hc)) (fun hok => ?_) fun e t st' hf hfail ht => ?_
    · refine ⟨hok.sound, rfl, hothers, fun p hp hd => ?_⟩
      cases hp
      refine ⟨hd, ?_⟩
      have hput : (World.putRecord { s with files := F } k r').journal.slot k = some (.record r') :=
        Directory.put_self ..
      change Quiet k.session ((World.putRecord { s with files := F } k r').journal.slot k)
      rw [hput]
      exact .settled r' (hclosed.session.trans hsession) (.inr hrolled)
    · have hframe : t.leased = s.leased ∧ ∀ j, j ≠ k → t.journal.slot j = s.journal.slot j := by
        rcases ht with rfl | rfl
        · exact ⟨rfl, fun _ _ => rfl⟩
        · exact ⟨rfl, hothers⟩
      rcases e with e | detail | details
      · exact ⟨hfail.sound, hframe.1, hframe.2, nofun⟩
      · exact ⟨hfail.sound, hframe.1, hframe.2, nofun⟩
      · -- the ambiguous publication is set aside
        refine (runs_setAside hfail.sound pass (fun hnf => absurd hf hnf) (by simp [ReconcilePass.report])).post ?_
        intro out u hu
        exact ⟨hu.sound, hu.leased.trans hframe.1, fun j hj => (hu.others j hj).trans (hframe.2 j hj), hu.quiet⟩

theorem runs_reconcileEntry {k : RecordKey}
    (hfocus : ∀ f ∈ focus, f.settled k) (hl : s.leased = true) (hk : k.session = c.sessionId) :
    Runs L fault focus (Reconciles L focus k pass s) (reconcileEntry L c k pass) s := by
  have herror : ∀ e, Reconciles L focus k pass s (.error e) s :=
    fun e => ⟨hs, rfl, fun _ _ => rfl, nofun⟩
  refine safe_loadRecord (.still hs) (fun _ _ _ _ => herror _) (fun _ _ _ _ => herror _)
    (fun _ => herror _) fun e he => ?_
  rcases e with r | e | _
  · dsimp only
    split_ifs with hsession hdone
    · refine runs_setAside hs pass (fun _ q hq hqs => ?_) (by simp [ReconcilePass.report])
      rw [he] at hq
      cases hq
      exact absurd (hqs.trans hk) hsession
    · refine ⟨hs, rfl, fun _ _ => rfl, fun p hp hd => ?_⟩
      cases hp
      rw [he]
      exact ⟨hd, .settled r ((not_not.mp hsession).trans hk.symm) hdone⟩
    · exact runs_reconcileRecord hs hfocus hl he ((not_not.mp hsession).trans hk.symm) hdone
  · refine runs_setAside hs pass (fun _ q hq => ?_) (by simp [ReconcilePass.report])
    rw [he] at hq
    cases hq
  · refine ⟨hs, rfl, fun _ _ => rfl, fun p hp hd => ?_⟩
    cases hp
    rw [he]
    exact ⟨hd, .notFile⟩

theorem runs_reconcile (hfocus : ∀ f ∈ focus, ∀ k, k.session = c.sessionId → f.settled k) :
    Runs L fault focus (fun out t => Sound L focus t ∧ ∀ paths, out = .ok paths →
      ∀ k, k.session = c.sessionId → Quiet c.sessionId (t.journal.slot k)) (reconcile L c) s := by
  have hleased : Sound L focus { s with leased := true } := hs.of_eq rfl rfl rfl
  -- a pass without reports leaves every entry quiet that is not still to come
  refine safe_reconcile (fun ks out t => Sound L focus t ∧ t.leased = true ∧ (∀ k ∈ ks, k.session = c.sessionId) ∧
    ∀ pass, out = .ok pass → pass.recoveryDetails = [] → ∀ k, k.session = c.sessionId → k ∉ ks →
      Quiet c.sessionId (t.journal.slot k)) (.still hs) (.lease hs true) (.still hleased)
    (fun _ _ => ⟨hs, nofun⟩)
    (fun _ _ _ _ _ => ⟨hleased, rfl, fun _ hk => absurd hk not_mem_nil, nofun⟩)
    (fun ks _ hks => ⟨hleased, rfl, fun k hk => ((hks k).mp hk).2, fun _ _ _ k hk hmem => ?_⟩)
    (fun k ks pass t ⟨hsound, hl, hsession, hquiet⟩ => ?_) fun ks out t ⟨hsound, _, _, hquiet⟩ hks => ?_
  · have hnone : s.journal.slot k = none := by
      by_contra hne
      exact hmem ((hks k).mpr ⟨hne, hk⟩)
    rw [hnone]
    exact .absent
  · obtain ⟨hk, htail⟩ := forall_mem_cons.mp hsession
    refine (runs_reconcileEntry hsound (fun f hf => hfocus f hf k hk) hl hk).post fun out u hout => ?_
    refine ⟨hout.sound, hout.leased.trans hl, htail, fun pass' hpass' hd j hj hmem => ?_⟩
    obtain ⟨hpass, hquietk⟩ := hout.quiet pass' hpass' hd
    by_cases hjk : j = k
    · rw [hjk, ← hk]
      exact hquietk
    · rw [hout.others j hjk]
      refine hquiet pass rfl hpass j hj ?_
      rw [mem_cons]
      exact not_or.mpr ⟨hjk, hmem⟩
  · refine ⟨.lease hsound false, hsound.of_eq rfl rfl rfl, fun paths he k hk => ?_⟩
    cases out with
    | error e => cases he
    | ok pass =>
      refine hquiet pass rfl (ReconcilePass.result_ok he) k hk ?_
      rw [hks pass rfl]
      exact not_mem_nil

theorem runs_reconcile_leased (hl : s.leased = true) :
    Runs L fault focus (fun out t => (∃ e, out = .error e) ∧ t = s) (reconcile L c) s := by
  refine safe_lease (.still hs) (.lease hs true) (fun e _ => ⟨⟨_, rfl⟩, rfl⟩) fun hfree => ?_
  rw [hl] at hfree
  cases hfree

end Coordinator
end Zero.Kernel
