import ZeroStack.Kernel.Restart

/-! `finish` first publishes the state root and then the committed record of the effects. A restart takes uncommitted
effects back but leaves the root, so a crash between the two leaves the new root over the old files. -/

open Durable

namespace Zero.Kernel
variable {L : Layout} {f : Focus} {s : World} {cell : Cell} {files : FileTree} {root : Option ZeroHandle}
variable {α : Type} {Q : α → World → Prop}

def Cell.nextRoot (L : Layout) (cell : Cell) : Option ZeroHandle :=
  if cell.stateDirty then some (L.rootOf cell.state.values) else cell.state.root

def Phase (L : Layout) (f : Focus) (root : Option ZeroHandle) (files : FileTree) (s : World) : Prop :=
  Recovers L f s ∨ Recovers L (f.withRoot root) s ∨ Stands f files root s

abbrev Settling (L : Layout) (f : Focus) (root : Option ZeroHandle) (files : FileTree)
    (Q : α → World → Prop) (p : KernelProgram α) (s : World) : Prop :=
  (kernel L).Safe (Steady L False) (fun _ t => Phase L f root files t) Q p s

theorem Machine.Safe.settling {p : KernelProgram α} (h : Hosting L False f Q p s) : Settling L f root files Q p s :=
  h.mono (fun _ _ _ hc => hc) (fun _ _ hg => .inl hg) fun _ _ hq => hq

theorem settling_new {p : KernelProgram α} (h : Hosting L False (f.withRoot root) Q p s) :
    Settling L f root files Q p s :=
  h.mono (fun _ _ _ hc => hc) (fun _ _ hg => .inr (.inl hg)) fun _ _ hq => hq

theorem Recovers.withRoot (h : Recovers L f s) (root : Option ZeroHandle) :
    Recovers L (f.withRoot root) { s with stateRoot := root } :=
  ⟨h.sound.withRoot root, h.idle, h.files⟩

theorem Attends.withRoot (h : Attends L False f cell s) (root : Option ZeroHandle) :
    Attends L False (f.withRoot root) cell { s with stateRoot := root } := by
  refine ⟨h.recovers.withRoot root, h.idle, fun tx ht => ?_⟩
  obtain ⟨⟨st, hheld⟩, hrev⟩ := h.held tx ht
  exact ⟨⟨st, hheld.withRoot root⟩, hrev⟩

theorem Attends.of_eq {cell' : Cell} (h : Attends L False f cell s)
    (ht : cell'.transaction = cell.transaction) : Attends L False f cell' s :=
  ⟨h.recovers, ht ▸ h.idle, ht ▸ h.held⟩

theorem Attends.back (h : Attends L False (f.withRoot root) cell s) (hroot : cell.state.root = f.root) :
    Attends L False f cell { s with stateRoot := cell.state.root } := by
  have hback := h.withRoot cell.state.root
  rw [hroot] at hback ⊢
  exact hback

section Failure

theorem safe_reportFailure {C : KernelChoice → KernelOp → World → Prop} {G : World → World → Prop}
    {error : EngineError} {effects : EffectFacts} (hG : ∀ es, G s { s with events := es }) :
    (kernel L).Safe C G (fun out _ => ¬ Completed out) (reportFailure cell error effects) s := by
  refine safe_publishEvent hG (fun handle es hdone => ?_) fun _ _ _ _ _ hdone => hdone
  cases hchecked : (cell.failure (if error.kind = .cancelled then ZeroKernelOutcome.cancelled else .failed)
      error handle).checked with
  | error e =>
    rw [hchecked] at hdone
    exact hdone
  | ok r =>
    rw [hchecked] at hdone
    have hcompleted : r.outcome = .completed := hdone
    rw [ZeroKernelResponse.checked_eq hchecked] at hcompleted
    change (if error.kind = .cancelled then ZeroKernelOutcome.cancelled else .failed) = .completed at hcompleted
    split_ifs at hcompleted

theorem hosting_fail {error : EngineError} (h : Attends L False f cell s) :
    Hosting L False f (fun out _ => ¬ Completed out) (fail L cell error) s := by
  have hreport : ∀ (t : World) (error : EngineError) (effects : EffectFacts), Recovers L f t →
      Hosting L False f (fun out _ => ¬ Completed out) (reportFailure cell.dedupHandles error effects) t :=
    fun t error effects ht => safe_reportFailure fun es =>
      ⟨⟨ht.sound.root, ht.sound.fits, ht.sound.others⟩, ht.idle, ht.files⟩
  unfold fail
  cases ht : cell.transaction with
  | none => exact hreport s _ _ h.recovers
  | some tx =>
    obtain ⟨⟨st, hheld⟩, hrev⟩ := h.held tx ht
    refine (hosting_rollback hheld hrev (h.filed ht)).bind fun result t hout => ?_
    cases result with
    | ok u | error e => exact hreport t _ _ hout.1

theorem hosting_dropCell (h : Attends L False f cell s) : Hosting L False f (fun _ _ => True) (dropCell L cell) s := by
  unfold dropCell
  cases ht : cell.transaction with
  | none => trivial
  | some tx =>
    obtain ⟨⟨st, hheld⟩, hrev⟩ := h.held tx ht
    have hkey : tx.key = f.key := hheld.key f rfl
    have hdrop : Revokes L f.key (fun _ _ => True) (drop L tx) s := by
      have hfiled := h.filed ht
      rw [← hkey] at hfiled ⊢
      exact (revokes_drop hfiled hrev).post fun _ _ _ => trivial
    exact (hosting_of (runs_drop hheld) hdrop).post fun _ _ _ => trivial

end Failure

section Commit
variable {tx : Transaction} {st : TransactionRecord}

structure Commits (tx : Transaction) (s : World) (out : Attempt (List FileEffectReceipt)) (t : World) :
    Prop where
  stored : ∀ receipts, out.2 = .ok receipts → storedState tx.key t = some .committed ∧ t.files = s.files
  refused : ∀ e, out.2 = .error e → Reverting tx out t

theorem Commits.kept {tx' : Transaction} {e : TransactionError} {t : World}
    (h : Reverting tx ((tx', .error e) : Attempt (List FileEffectReceipt)) t) :
    Commits tx s (tx', .error e) t := ⟨nofun, fun _ _ => h⟩

theorem storedState_putRecord (s : World) (k : RecordKey) (r : TransactionRecord) :
    storedState k (s.putRecord k r) = some r.state := by
  have hput : (s.putRecord k r).journal.slot k = some (.record r) := Directory.put_self ..
  rw [storedState, hput]

theorem commits_commitLive (h : Filed tx.key s) (hr : Reverts tx) : (kernel L).Safe (Steady L False)
      (fun _ t => Filed tx.key t ∨ storedState tx.key t = some .committed ∧ t.files = s.files)
      (Commits tx s) (commitLive L tx) s := by
  have hkept : ∀ e : TransactionError, Commits tx s (tx, .error e) s := fun e => .kept ⟨rfl, hr, h⟩
  unfold commitLive
  split_ifs
  · exact hkept _
  · cases commitMismatch tx.record.effects with
    | some e => exact hkept _
    | none =>
      cases validateTransition tx.record.state .committed with
      | error e => exact hkept _
      | ok u =>
        have hput : storedState tx.key (s.putRecord tx.key { tx.record with state := .committed }) =
            some .committed := storedState_putRecord ..
        refine safe_persistRecord (k := tx.key) ⟨.inr ⟨hput, rfl⟩, fun _ _ => ⟨hput, rfl⟩, fun e he => ?_⟩
          (fun c e hc hp _ => ?_) fun c e hc hp _ => ?_
        · cases he
        · rw [hc.1 id] at hp
          cases hp
        · rw [hc.1 id] at hp
          cases hp

theorem commits_commit (h : Filed tx.key s) (hr : Reverts tx) : (kernel L).Safe (Steady L False)
      (fun _ t => Filed tx.key t ∨ storedState tx.key t = some .committed ∧ t.files = s.files)
      (Commits tx s) (commit L tx) s := by
  have hkept : ∀ e : TransactionError, Commits tx s (tx, .error e) s := fun e => .kept ⟨rfl, hr, h⟩
  unfold commit
  cases tx.settled with
  | true => exact hkept _
  | false =>
    refine safe_isCancelled (.inl h) fun c _ => ?_
    cases c.cancelled with
    | true =>
      -- a cancelled commit is a rollback
      have hroll : Revokes L tx.key (Commits tx s) (rollbackAndPersist L tx >>= fun x =>
          pure (x.1.settle, afterRollback x.1 x.2
            (.error (.engine ⟨.cancelled, "transaction cancelled, commit refused", false⟩)))) s := by
        refine revokes_rollbackAndPersist h hr.record fun r published t hrolled hfiled => ?_
        refine ⟨fun receipts he => ?_, fun _ _ => ⟨rfl, ⟨hrolled.revocable, fun _ => hrolled.state⟩, hfiled⟩⟩
        cases (afterRollback_ok he).2
      exact hroll.mono (fun _ _ _ hc => hc.2.2) (fun _ _ hf => .inl hf) fun _ _ hq => hq
    | false =>
      simp only [Bool.false_eq_true, if_false, hr.record.uncommitted]
      split_ifs
      · exact hkept _
      · exact commits_commitLive h hr

theorem revokes_compensateCommitted (hid : tx.record.sessionId = tx.key.session)
    (hc : tx.record.state = .committed) (hset : tx.settled = true) :
    (kernel L).Safe (Steady L False) (fun _ t => Filed tx.key t)
      (fun out t => Reverting tx out t ∧ out.1.settled = true) (compensateCommitted L tx) s := by
  have hrev : Revocable tx.key.session { tx.record with state := .compensating } := by
    refine ⟨hid, ?_, ?_⟩
    · exact nofun
    · exact nofun
  have hput : Filed tx.key (s.putRecord tx.key { tx.record with state := .compensating }) := .putRecord hrev
  have hv : validateTransition tx.record.state .compensating = .ok () := by
    rw [hc]
    rfl
  unfold compensateCommitted
  rw [if_neg (by simp [hc, hset])]
  simp only [hv]
  refine safe_persistRecord (k := tx.key) ⟨hput, ?_⟩ (fun c e hcc hp _ => ?_) fun c e hcc hp _ => ?_
  · have hroll : Revokes L tx.key (fun out t => Reverting tx out t ∧ out.1.settled = true)
        (rollbackAndPersist L (tx.withRecord { tx.record with state := .compensating }) >>= fun x =>
          pure (x.1.settle, afterRollback x.1 x.2 (.ok ())))
        (s.putRecord tx.key { tx.record with state := .compensating }) := by
      have hintent : Filed (tx.withRecord { tx.record with state := .compensating }).key
          (s.putRecord tx.key { tx.record with state := .compensating }) := hput
      refine revokes_rollbackAndPersist hintent hrev fun r published t hrolled hfiled => ?_
      exact ⟨⟨rfl, ⟨hrolled.revocable, fun _ => hrolled.state⟩, hfiled⟩, rfl⟩
    exact hroll.mono (fun _ _ _ hs => hs.2.2) (fun _ _ hf => hf) fun _ _ hq => hq
  · rw [hcc.1 id] at hp
    cases hp
  · rw [hcc.1 id] at hp
    cases hp

end Commit

section Publication
variable {after : Option ZeroHandle}

theorem Attends.events (h : Attends L False f cell s) (es : List ZeroKernelEvent) :
    Attends L False f cell { s with events := es } := by
  refine ⟨⟨⟨h.recovers.sound.root, h.recovers.sound.fits, h.recovers.sound.others⟩, h.recovers.idle,
    h.recovers.files⟩, h.idle, fun tx ht => ?_⟩
  obtain ⟨⟨st, hheld⟩, hrev⟩ := h.held tx ht
  exact ⟨⟨st, hheld.events es⟩, hrev⟩

structure Booked (L : Layout) (f : Focus) (tx : Transaction) (s : World) : Prop where
  held : ∃ st, Held L False (some f) tx st s
  session : tx.record.sessionId = tx.key.session
  committed : tx.record.state = .committed
  settled : tx.settled = true

structure Closes (L : Layout) (f : Focus) (cell : Cell) (s : World) : Prop where
  idle : cell.transaction = none → Attends L False f cell s
  booked : ∀ tx, cell.transaction = some tx → Booked L f tx s

theorem Booked.events {tx : Transaction} (h : Booked L f tx s) (es : List ZeroKernelEvent) :
    Booked L f tx { s with events := es } := by
  obtain ⟨st, hheld⟩ := h.held
  exact ⟨⟨st, hheld.events es⟩, h.session, h.committed, h.settled⟩

theorem Booked.stands {tx : Transaction} (h : Booked L (f.withRoot after) tx s) : Stands f s.files after s := by
  obtain ⟨st, hheld⟩ := h.held
  have hkey : tx.key = f.key := hheld.key (f.withRoot after) rfl
  refine ⟨?_, hheld.sound.holds.others, rfl, hheld.sound.holds.root⟩
  rw [storedState, ← hkey, hheld.stored]
  exact congrArg some ((hheld.same id).trans h.committed)

theorem Closes.phase (h : Closes L (f.withRoot after) cell s) : Phase L f after s.files s := by
  cases ht : cell.transaction with
  | none => exact .inr (.inl (h.idle ht).recovers)
  | some tx => exact .inr (.inr (h.booked tx ht).stands)

theorem hosting_compensateEffects (h : Closes L f cell s) :
    Hosting L False f (fun out t => out.1.state = cell.state ∧ Attends L False f out.1 t)
      (compensateEffects L cell) s := by
  unfold compensateEffects
  cases ht : cell.transaction with
  | none => exact ⟨rfl, h.idle ht⟩
  | some tx =>
    obtain ⟨⟨st, hheld⟩, hid, hc, hset⟩ := h.booked tx ht
    have hkey : tx.key = f.key := hheld.key f rfl
    have hboth : Hosting L False f (fun out t => (Keeps L False (some f) tx out t ∧
        (out.2 = .ok () → out.1.record.state = .rolledBack)) ∧ Reverting tx out t ∧ out.1.settled = true)
        (compensateCommitted L tx) s := by
      refine ((runs_compensateCommitted hheld).and (revokes_compensateCommitted hid hc hset)).mono
        (fun c o s hs => ⟨⟨hs.1, fun _ => hs.2.1⟩, hs⟩) (fun u t hst => ?_) fun _ _ hq => hq
      exact .filed hst.1.2.holds (hkey ▸ hst.2)
    refine hboth.bind fun ⟨tx', result⟩ t hout => ?_
    obtain ⟨⟨⟨-, st', hheld'⟩, -⟩, hrev, -⟩ := hout
    have hfiled : Filed f.key t := hkey ▸ hrev.filed
    cases result with
    | ok u | error e => exact ⟨rfl, .take rfl hheld' hrev.reverts hfiled⟩

theorem settling_compensate {error : String} (hroot : cell.state.root = f.root)
    (h : Closes L (f.withRoot after) cell s) :
    Settling L f after files (fun out _ => ¬ Completed out) (compensate L cell after error) s := by
  refine (settling_new (hosting_compensateEffects h)).bind fun ⟨cell', effects⟩ t ⟨hstate, hattends⟩ => ?_
  have hroot' : cell'.state.root = f.root := by rw [hstate, hroot]
  have hold : ∀ u failures, Attends L False f cell' u → Settling L f after files
      (fun out _ => ¬ Completed out) (dropCell L cell' >>= fun _ =>
        pure (.error (publicationError error failures))) u :=
    fun u failures hu => (Machine.Safe.settling (hosting_dropCell hu)).bind fun _ _ _ hc => hc
  have hnew : ∀ failures, Settling L f after files (fun out _ => ¬ Completed out)
      (dropCell L cell' >>= fun _ => pure (.error (publicationError error failures))) t :=
    fun failures => (settling_new (hosting_dropCell hattends)).bind fun _ _ _ hc => hc
  unfold compensateState
  dsimp only
  split_ifs with hsame
  · exact hnew _
  · have hback := hattends.back hroot'
    exact safe_compareAndSetRoot (.inr (.inl hattends.recovers)) (fun _ _ _ _ => hnew _)
      ⟨.inl hback.recovers, hold _ _ hback⟩

theorem settling_commitFailed {error : TransactionError} (hroot : cell.state.root = f.root)
    (h : Attends L False (f.withRoot after) cell s) :
    Settling L f after files (fun out _ => ¬ Completed out) (commitFailed L cell after error) s := by
  unfold commitFailed
  split_ifs with hsame
  · exact settling_new (hosting_fail h)
  · have hback := h.back hroot
    refine safe_compareAndSetRoot (.inr (.inl h.recovers)) (fun _ _ _ _ => ?_)
      ⟨.inl hback.recovers, Machine.Safe.settling (hosting_fail hback)⟩
    exact (settling_new (hosting_dropCell h)).bind fun _ _ _ hc => hc

def Settles (files : FileTree) (root : Option ZeroHandle) (out : Except HostError ZeroKernelResponse)
    (t : World) : Prop := Completed out → t.files = files ∧ t.stateRoot = root

theorem settles_of_unfinished {p : KernelProgram (Except HostError ZeroKernelResponse)} {F F' : FileTree}
    {root' : Option ZeroHandle} (h : Settling L f root F (fun out _ => ¬ Completed out) p s) :
    Settling L f root F (Settles F' root') p s := h.post fun _ _ hn hc => absurd hc hn

theorem settling_publishCompleted {visible : String} {effects : List FileEffectReceipt}
    (hroot : cell.state.root = f.root) (h : Closes L (f.withRoot after) cell s) (hs : s.stateRoot = after) :
    Settling L f after s.files (Settles s.files after) (publishCompleted L cell visible after effects) s := by
  have hevents : ∀ es, Closes L (f.withRoot after) cell.dedupHandles { s with events := es } :=
    fun es => ⟨fun ht => ((h.idle ht).events es).of_eq rfl, fun tx ht => (h.booked tx ht).events es⟩
  refine safe_publishEvent (fun es => (hevents es).phase) (fun handle es => ?_) fun c e es _ _ => ?_
  · have hdrop : Settling L f after s.files (fun _ t => t.files = s.files ∧ t.stateRoot = after)
        (dropCell L cell.dedupHandles) { s with events := es } := by
      unfold dropCell
      cases ht : cell.dedupHandles.transaction with
      | none => exact ⟨rfl, hs⟩
      | some tx =>
        have hbooked := (hevents es).booked tx ht
        -- a settled transaction only gives its lease back
        have hrelease : drop L tx = release >>= pure := by
          rw [drop, if_pos hbooked.settled]
          rfl
        dsimp only
        rw [hrelease]
        have hstands := hbooked.stands
        exact safe_release (.inr (.inr ⟨hstands.stored, hstands.others, rfl, hs⟩)) ⟨rfl, hs⟩
    exact hdrop.bind fun _ t ht _ => ht
  · exact settles_of_unfinished (settling_compensate hroot (hevents es))

theorem settling_commitEffects {visible : String} (hroot : cell.state.root = f.root)
    (h : Attends L False (f.withRoot after) cell s) :
    Settling L f after s.files (Settles s.files after) (commitEffects L cell visible after) s := by
  have hs : s.stateRoot = after := h.recovers.sound.root
  unfold commitEffects
  cases ht : cell.transaction with
  | none =>
    refine settling_publishCompleted hroot ⟨fun _ => h, fun tx htx => ?_⟩ hs
    rw [ht] at htx
    cases htx
  | some tx =>
    obtain ⟨⟨st, hheld⟩, hrev⟩ := h.held tx ht
    have hkey : tx.key = f.key := hheld.key (f.withRoot after) rfl
    have hfiled : Filed tx.key s := hkey ▸ h.filed ht
    have hboth : Settling L f after s.files (fun out t =>
        Committing L False (some (f.withRoot after)) tx s out t ∧ Commits tx s out t) (commit L tx) s := by
      refine ((runs_commit hheld).and (commits_commit hfiled hrev)).mono
        (fun c o s hs => ⟨⟨hs.1, fun _ => hs.2.1⟩, hs⟩) (fun u t hst => ?_) fun _ _ hq => hq
      obtain ⟨⟨-, hsound⟩, hfiled' | ⟨hstored, hfiles⟩⟩ := hst
      · exact .inr (.inl (.filed hsound.holds (show Filed f.key t from hkey ▸ hfiled')))
      · exact .inr (.inr ⟨hkey ▸ hstored, hsound.holds.others, hfiles, hsound.holds.root⟩)
    refine hboth.bind fun ⟨tx', result⟩ t ⟨hout, hcommits⟩ => ?_
    obtain ⟨-, st', hheld'⟩ := hout.keeps
    cases result with
    | error e =>
      have hreverting := hcommits.refused e rfl
      have hfiled' : Filed f.key t := hkey ▸ hreverting.filed
      have hcell : (cell.withTransaction (some tx')).state.root = f.root := hroot
      exact settles_of_unfinished (settling_commitFailed hcell (.take rfl hheld' hreverting.reverts hfiled'))
    | ok receipts =>
      have hfiles : t.files = s.files := hout.files receipts rfl
      have hmem : tx' = (tx.withRecord { tx.record with state := .committed }).settle :=
        (hout.memory receipts rfl).1
      have hbooked : Booked L (f.withRoot after) tx' t := by
        refine ⟨⟨st', hheld'⟩, ?_, ?_, ?_⟩
        · rw [hmem]
          exact hrev.record.session
        · rw [hmem]
          rfl
        · rw [hmem]
          rfl
      rw [← hfiles]
      have hcell : (cell.withTransaction (some tx')).state.root = f.root := hroot
      refine settling_publishCompleted hcell
        ⟨nofun, fun tx'' htx'' => ?_⟩ hheld'.sound.holds.root
      cases htx''
      exact hbooked

abbrev Concludes (L : Layout) (f : Focus) (cell : Cell) (p : KernelProgram (Except HostError ZeroKernelResponse))
    (s : World) : Prop := Settling L f (cell.nextRoot L) s.files (Settles s.files (cell.nextRoot L)) p s

variable (h : Attends L False f cell s) (hroot : cell.state.root = f.root)
include h hroot

theorem settling_settle {visible : String} : Concludes L f cell (settle L cell visible) s := by
  unfold settle Concludes Cell.nextRoot
  split_ifs
  · have hnew := h.withRoot (some (L.rootOf cell.state.values))
    refine safe_commitState (.inl h.recovers) (fun e => ?_) ⟨.inr (.inl hnew.recovers), ?_⟩
    · exact settles_of_unfinished (Machine.Safe.settling (hosting_fail h))
    · exact settling_commitEffects hroot hnew
  · have hsame : Attends L False (f.withRoot cell.state.root) cell s := by
      rw [hroot]
      exact h
    exact settling_commitEffects hroot hsame

theorem settling_finish {value : String} : Concludes L f cell (finish L cell value) s := by
  -- the checks leave the state and the transaction of the cell alone
  have hsettle : ∀ (cell' : Cell) (visible : String), cell'.state = cell.state →
      cell'.stateDirty = cell.stateDirty → cell'.transaction = cell.transaction →
      Concludes L f cell (settle L cell' visible) s := by
    intro cell' visible hstate hdirty ht
    have hnext : cell'.nextRoot L = cell.nextRoot L := by
      unfold Cell.nextRoot
      rw [hstate, hdirty]
    rw [Concludes, ← hnext]
    exact settling_settle (h.of_eq ht) (by rw [hstate, hroot])
  refine safe_prepare (.inl h.recovers) fun handles result _ => ?_
  cases result with
  | error e => exact settles_of_unfinished (Machine.Safe.settling (hosting_fail (h.of_eq rfl)))
  | ok visible => exact hsettle _ visible rfl rfl rfl

theorem settling_settleGuest (run : GuestRun) : Concludes L f cell (settleGuest L cell run) s := by
  have hfail : ∀ (cell' : Cell) (error : EngineError), cell'.transaction = cell.transaction →
      Concludes L f cell (fail L cell' error) s :=
    fun cell' error ht => settles_of_unfinished (Machine.Safe.settling (hosting_fail (h.of_eq ht)))
  unfold settleGuest Cell.recordOperations
  cases Cell.traceProblem cell.capsuleRoot 0 0 run.operations with
  | some detail => exact hfail cell _ rfl
  | none =>
    cases run.result with
    | error e => exact hfail _ _ rfl
    | value v =>
      have hattends : Attends L False f
          { cell with operations := run.operations, operationsTruncated := run.truncated } s := h.of_eq rfl
      exact settling_finish hattends hroot

end Publication

section Sides

def OneSided (cell : Cell) (calls : List GuestCall) : Prop :=
  cell.stateDirty = false ∧ (∀ call ∈ calls, call.onFiles = true) ∨ ∀ call ∈ calls, call.onFiles = false

theorem clean_guestCalls (calls : List GuestCall) (h : ∀ call ∈ calls, call.onFiles = true)
    (hclean : cell.stateDirty = false) : (kernel L).Safe Machine.Free (fun _ _ => True)
      (fun cell' _ => cell'.stateDirty = false) (guestCalls L cell calls) s := by
  have hrule : CellRule L Machine.Free (fun _ _ => True) fun cell _ => cell.stateDirty = false :=
    ⟨fun h _ => (Machine.safe_trivial _ _).post fun _ _ _ => h,
      fun h _ _ => (Machine.safe_trivial _ _).post fun _ _ _ => h,
      fun h _ => (Machine.safe_trivial _ _).post fun _ _ _ => h, fun h _ => h⟩
  refine hrule.guestCalls hclean calls fun call hmem hstate => ?_
  rw [h call hmem] at hstate
  cases hstate

theorem guestCalls_stateOnly (calls : List GuestCall) (h : ∀ call ∈ calls, call.onFiles = false)
    (cell : Cell) : ∃ cell', guestCalls L cell calls = pure cell' := by
  induction calls generalizing cell with
  | nil => exact ⟨cell, rfl⟩
  | cons call calls ih =>
    obtain ⟨hcall, hcalls⟩ := List.forall_mem_cons.mp h
    have hone : ∃ cell', guestCall L cell call = pure cell' := by
      cases call with
      | file request => cases hcall
      | effect planned => cases hcall
      | stateSet key value => exact ⟨_, rfl⟩
      | stateDelete key => exact ⟨_, rfl⟩
      | replaceState values => exact ⟨_, rfl⟩
    obtain ⟨cell', hcell'⟩ := hone
    obtain ⟨cell'', hcell''⟩ := ih hcalls cell'
    refine ⟨cell'', ?_⟩
    unfold guestCalls
    rw [hcell', pure_bind, hcell'']

end Sides

def World.pair (s : World) : FileTree × Option ZeroHandle := (s.files, s.stateRoot)

def pairAfter (L : Layout) (cell : Cell) (calls : List GuestCall) (env : ℕ → KernelChoice) (w : World) :
    FileTree × Option ZeroHandle :=
  let ended := (kernel L).run (guestCalls L cell calls) env w
  (ended.2.files, ended.1.nextRoot L)

theorem OneSided.pairAfter {calls : List GuestCall} {env : ℕ → KernelChoice} (h : OneSided cell calls)
    (hroot : ((kernel L).run (guestCalls L cell calls) env s).1.state.root = s.stateRoot) :
    (pairAfter L cell calls env s).2 = s.stateRoot ∨ (pairAfter L cell calls env s).1 = s.files := by
  rcases h with ⟨hclean, hfiles⟩ | hstate
  · have hstill := (clean_guestCalls calls hfiles hclean).run ((kernel L).along_free _ env s)
    left
    show Cell.nextRoot L _ = _
    rw [Cell.nextRoot, hstill]
    exact hroot
  · obtain ⟨cell', hcell'⟩ := guestCalls_stateOnly (L := L) calls hstate cell
    right
    show ((kernel L).run (guestCalls L cell calls) env s).2.files = _
    rw [hcell']
    rfl

theorem not_committed_of_idle {k : RecordKey} (h : Idle k s) : storedState k s ≠ some .committed := by
  unfold storedState
  rcases h with hnone | ⟨r, hr, hrevocable⟩
  · rw [hnone]
    exact nofun
  · rw [hr]
    exact fun hstate => hrevocable.uncommitted (Option.some.inj hstate)

/-- The cell changes only one side, or the stop is not between the publication of the state root and that of the
committed record. -/
def Unparted (cell : Cell) (calls : List GuestCall) (w crashed : World) : Prop :=
  OneSided cell calls ∨ crashed.stateRoot = w.stateRoot ∨
    storedState cell.invocation.key crashed = some .committed

theorem Phase.restart {c : EngineCallContext} (h : Phase L f root files s)
    (hc : c.sessionId = f.key.session) (hset : ∀ k : RecordKey, k.session = f.key.session → f.settled k)
    {env : ℕ → KernelChoice} (henv : (kernel L).Along (Answering L) (reconcile L c) env s.reboot) :
    (restart L c env s).pair = (f.files, f.root) ∨
      (s.stateRoot = root ∧ storedState f.key s ≠ some .committed ∧ (restart L c env s).pair = (f.files, root)) ∨
      (restart L c env s).pair = (files, root) := by
  rcases h with hold | hnew | hstands
  · obtain ⟨hfiles, hroot⟩ := restart_recovers hold hc hset henv
    exact .inl (Prod.ext hfiles hroot)
  · obtain ⟨hfiles, hroot⟩ := restart_recovers hnew hc hset henv
    exact .inr (.inl ⟨hnew.sound.root, not_committed_of_idle hnew.idle, Prod.ext hfiles hroot⟩)
  · obtain ⟨hfiles, hroot⟩ := restart_stands (L := L) hstands hc hset env
    exact .inr (.inr (Prod.ext hfiles hroot))

/-- A cell is stopped after any of its steps and the kernel starts again. It finds the pair from before the cell, the
one it worked out, or the old files under the new root; the last does not occur where the stop parts nothing. An
answer that says completed stands over the pair the cell worked out. -/
theorem crashed_cell_recovers (L : Layout) (cell : Cell) (w : World) (hfresh : Fresh cell w)
    (hothers : ∀ j : RecordKey, j.session = cell.invocation.sessionId → ∀ r,
      w.journal.slot j = some (.record r) → r.state = .committed ∨ r.state = .rolledBack)
    (run : GuestRun) (env : ℕ → KernelChoice)
    (henv : (kernel L).Along (Steady L False) (execute L cell run) env w) (n : ℕ)
    (c : EngineCallContext) (hc : c.sessionId = cell.invocation.sessionId) (env' : ℕ → KernelChoice)
    (henv' : (kernel L).Along (Answering L) (reconcile L c) env' ((kernel L).cut n (execute L cell run) env w).reboot) :
    let crashed := (kernel L).cut n (execute L cell run) env w
    let found := (restart L c env' crashed).pair
    let after := pairAfter L cell run.calls env w
    (found = w.pair ∨ found = (w.files, after.2) ∨ found = after) ∧
    (Unparted cell run.calls w crashed → found = w.pair ∨ found = after) ∧
    (Completed ((kernel L).run (execute L cell run) env w).1 →
      ((kernel L).run (execute L cell run) env w).2.pair = after) := by
  intro crashed found after
  have hhosts : Hosts L False (startOf cell.invocation.key
      (fun j => j.session = cell.invocation.sessionId) w) cell w :=
    hfresh.hosts fun j hj _ => hothers j hj
  have hcut : crashed ∈ w :: (kernel L).states (execute L cell run) env w := (kernel L).cut_mem ..
  unfold execute at henv hcut
  obtain ⟨hcalls, hend⟩ := ((kernel L).along_bind _ _ env w).mp henv
  have hguest := hosting_guestCalls hhosts run.calls
  have hleft := hguest.run hcalls
  have hsettle := settling_settleGuest hleft.toAttends hleft.root run
  -- wherever the run is cut, the cell is in one of its phases
  have hphase : Phase L (startOf cell.invocation.key (fun j => j.session = cell.invocation.sessionId) w)
      after.2 after.1 crashed := by
    rw [Machine.states_bind] at hcut
    rcases List.mem_cons.mp hcut with hstart | hmem
    · rw [hstart]
      exact .inl hhosts.recovers
    · rcases List.mem_append.mp hmem with hmem | hmem
      · exact .inl (hguest.states hcalls _ hmem)
      · exact hsettle.states hend _ hmem
  have hfound := hphase.restart hc (fun k hk => hk) henv'
  refine ⟨hfound.imp id (Or.imp (·.2.2) id), fun hunparted => ?_, fun hdone => ?_⟩
  · rcases hfound with hbefore | ⟨hnew, huncommitted, hmixed⟩ | hafter
    · exact .inl hbefore
    · change found = (w.files, after.2) at hmixed
      rcases hunparted with hsided | hold | hcommitted
      · rcases hsided.pairAfter hleft.root with hroot | hfiles
        · exact .inl (hmixed.trans (congrArg (Prod.mk w.files) hroot))
        · exact .inr (hmixed.trans (congrArg (·, after.2) hfiles.symm))
      · left
        rw [hmixed, ← hnew, hold]
        rfl
      · exact absurd hcommitted huncommitted
    · exact .inr hafter
  · unfold execute at hdone ⊢
    rw [Machine.run_bind] at hdone ⊢
    obtain ⟨hfiles, hroot⟩ := hsettle.run hend hdone
    exact Prod.ext hfiles hroot

section Sample

/-- Cut right after the state root is published, the edit and the state write of one cell are
parted: the restart finds the new root over the old file. -/
theorem root_outlives_effects :
    let crashed := (kernel sampleLayout).cut 16 (execute sampleLayout sampleCell editThenReturn)
      (fun _ => smooth) sampleWorld
    let found := (restart sampleLayout sampleContext (fun _ => smooth) crashed).pair
    let after := pairAfter sampleLayout sampleCell editThenReturn.calls (fun _ => smooth) sampleWorld
    sampleWorld.files "a.txt" = some "old" ∧ sampleWorld.stateRoot = none ∧
      after.1 "a.txt" = some "new" ∧ after.2 = some "z://state" ∧
      found.1 "a.txt" = some "old" ∧ found.2 = some "z://state" ∧ found ≠ sampleWorld.pair ∧ found ≠ after := by
  refine ⟨rfl, rfl, rfl, rfl, rfl, rfl, fun hsame => ?_, fun hsame => ?_⟩
  · exact absurd (congrArg Prod.snd hsame) (by decide)
  · exact absurd (congrFun (congrArg Prod.fst hsame) "a.txt") (by decide)

theorem smooth_steady (o : KernelOp) (s : World) : Steady sampleLayout False smooth o s :=
  ⟨fun _ => rfl, fun _ _ _ _ _ hc => (by cases hc), rfl⟩

def editOnly : GuestRun := ⟨[.file sampleRequest], [], false, .value "null"⟩

theorem crashed_edit_recovers :
    let crashed := fun run n => (kernel sampleLayout).cut n (execute sampleLayout sampleCell run)
      (fun _ => smooth) sampleWorld
    let found := fun run n => (restart sampleLayout sampleContext (fun _ => smooth) (crashed run n)).pair
    let after := fun run => pairAfter sampleLayout sampleCell run.calls (fun _ => smooth) sampleWorld
    (∀ n, found editOnly n = sampleWorld.pair ∨ found editOnly n = after editOnly) ∧
    (found editOnly 14).1 "a.txt" = some "old" ∧ (found editOnly 17).1 "a.txt" = some "new" ∧
    (∀ n ∈ [14, 18], found editThenReturn n = sampleWorld.pair ∨ found editThenReturn n = after editThenReturn) ∧
    (found editThenReturn 14).2 = none ∧ (found editThenReturn 18).2 = some "z://state" := by
  intro crashed found after
  have hall : ∀ run n, Unparted sampleCell run.calls sampleWorld (crashed run n) →
      found run n = sampleWorld.pair ∨ found run n = after run := by
    intro run n
    exact (crashed_cell_recovers sampleLayout sampleCell sampleWorld sampleCell_fresh nofun run (fun _ => smooth)
      (Machine.along_of_forall _ (fun _ o s => smooth_steady o s) _ _) n sampleContext rfl (fun _ => smooth)
      (Machine.along_of_forall _ (fun _ o s => ⟨smooth_steady o s, rfl, rfl, [], rfl⟩) _ _)).2.1
  refine ⟨fun n => hall editOnly n (.inl (.inl ⟨rfl, by decide⟩)), rfl, rfl, fun n hn => ?_, rfl, rfl⟩
  rcases List.mem_pair.mp hn with rfl | rfl
  · exact hall _ _ (.inr (.inl rfl))
  · exact hall _ _ (.inr (.inr rfl))

end Sample
end Zero.Kernel
