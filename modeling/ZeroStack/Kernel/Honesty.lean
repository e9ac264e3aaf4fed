import ZeroStack.Kernel.Ending
import ZeroStack.Kernel.Atomicity

/-! What a cell answers is what it leaves behind. Two ways out keep silent: an event that reports a failed rollback
and cannot itself be published, and a committed cell whose own trace its response refuses. -/

open Durable List

namespace Zero.Kernel
variable {L : Layout} {w s : World} {k : RecordKey} {settled : RecordKey → Prop} {α : Type}
variable {Q : α → World → Prop}

structure Restored (w t : World) : Prop where
  files : t.files = w.files
  root : t.stateRoot = w.stateRoot

/-- The stored root is the reported one, every file with a receipt is as its last receipt
says, and no other file has changed. -/
structure Delivered (L : Layout) (w : World) (r : ZeroKernelResponse) (t : World) : Prop where
  root : t.stateRoot = r.state.after
  files : ∀ receipt, IsLast r.effects receipt → t.files (L.resolve receipt.path) = receipt.after
  others : ∀ path, (∀ receipt ∈ r.effects, L.resolve receipt.path ≠ path) → t.files path = w.files path

def ReportsRollback : Except HostError ZeroKernelResponse → Prop
  | .ok r => ∃ e, ∃ detail failed : String,
    r.error = some e ∧ e.kind = .corrupt ∧ e.detail = s!"{detail}; rollback: {failed}"
  | .error (.event text) => ∃ detail failed : String,
    text = s!"terminal event publication failed: {detail}; compensation incomplete: {failed}"
  | .error _ => False

def Completed : Except HostError ZeroKernelResponse → Prop
  | .ok r => r.outcome = .completed
  | .error _ => False

structure Honest (L : Layout) (w : World) (out : Except HostError ZeroKernelResponse) (t : World) : Prop where
  completed : ∀ r, out = .ok r → r.outcome = .completed → Delivered L w r t
  otherwise : ¬ Completed out → Restored w t ∨ ReportsRollback out

/-- A failed effect that is cancelled has spared its file; an event that reports a failed
rollback is published; and the root that a refused commit leaves is taken back. -/
structure Candid (L : Layout) (c : KernelChoice) (o : KernelOp) (s : World) : Prop where
  spares : Spares L c o s
  published : ∀ event, o = .publishEvent event → event.effects.state = "rollback_failed" →
    ∃ handle, c.publish = .done handle
  withdrawn : ∀ current target, o = .compareAndSetRoot .commitFailed current target → c.state = none

abbrev Ends (L : Layout) (Q : α → World → Prop) (p : KernelProgram α) (s : World) : Prop :=
  (kernel L).Safe (Candid L) (fun _ _ => True) Q p s

theorem ends_of {f : Focus} {p : KernelProgram α} (h : Runs L True (some f) Q p s) : Ends L Q p s :=
  h.mono (fun _ _ _ hc => ⟨fun hnot => absurd trivial hnot, fun _ => hc.spares⟩) (fun _ _ _ => trivial)
    fun _ _ hq => hq

theorem Honest.restored {out : Except HostError ZeroKernelResponse} {t : World} (hn : ¬ Completed out)
    (h : Restored w t) : Honest L w out t := by
  refine ⟨fun r hr hc => ?_, fun _ => .inl h⟩
  subst hr
  exact absurd hc hn

theorem Honest.reported {out : Except HostError ZeroKernelResponse} {t : World} (hn : ¬ Completed out)
    (h : ReportsRollback out) : Honest L w out t := by
  refine ⟨fun r hr hc => ?_, fun _ => .inr h⟩
  subst hr
  exact absurd hc hn

section Failure

theorem failure_checked {cell : Cell} {error : EngineError} {event : ZeroHandle}
    (htrace : validateTrace cell.operations = .ok ()) :
    (cell.failure (if error.kind = .cancelled then .cancelled else .failed) error event).checked =
      .ok (cell.failure (if error.kind = .cancelled then .cancelled else .failed) error event) := by
  apply ZeroKernelResponse.checked_ok
  · by_cases hk : error.kind = .cancelled
    · simp [Cell.failure, validateOutcome, hk]
    · simp [Cell.failure, validateOutcome, hk]
  · exact htrace
  · have hpos := cell.positive
    simp [Cell.failure, validateTurn, Cell.turnRecord]
    omega
  · rfl
  · simp [Cell.failure, StateEvidence.validate]

theorem ends_reportFailure {cell : Cell} {error : EngineError} {effects : EffectFacts}
    (htrace : validateTrace cell.operations = .ok ())
    (h : Restored w s ∨ effects.state = "rollback_failed" ∧ error.kind = .corrupt ∧
      ∃ detail failed : String, error.detail = s!"{detail}; rollback: {failed}") :
    Ends L (Honest L w) (reportFailure cell error effects) s := by
  refine safe_publishEvent (fun _ => trivial) (fun handle es => ?_) fun c e es hc hnot => ?_
  · have hn : ¬ Completed (.ok (cell.failure
        (if error.kind = .cancelled then .cancelled else .failed) error handle)) := by
      change (if error.kind = .cancelled then ZeroKernelOutcome.cancelled else .failed) ≠ .completed
      split_ifs <;> decide
    dsimp only
    rw [failure_checked htrace]
    rcases h with hrest | ⟨-, hkind, detail, failed, htext⟩
    · exact .restored hn ⟨hrest.files, hrest.root⟩
    · exact .reported hn ⟨error, detail, failed, rfl, hkind, htext⟩
  · rcases h with hrest | ⟨hstate, -⟩
    · exact .restored (fun hc => hc) ⟨hrest.files, hrest.root⟩
    · obtain ⟨handle, hdone⟩ := hc.published _ rfl hstate
      exact absurd hdone (hnot handle)

theorem ends_fail {cell : Cell} {error : EngineError} (htrace : validateTrace cell.operations = .ok ())
    (h : Carries L True (startOf k settled w) cell s) : Ends L (Honest L w) (fail L cell error) s := by
  unfold fail
  cases ht : cell.transaction with
  | none => exact ends_reportFailure htrace (.inl ⟨h.idle ht, h.sound.root⟩)
  | some tx =>
    obtain ⟨st, hheld⟩ := h.held tx ht
    refine (ends_of (runs_rollback hheld)).bind fun result t ⟨hsound, hfiles⟩ => ?_
    cases result with
    | ok u => exact ends_reportFailure htrace (.inl ⟨hfiles rfl _ rfl, hsound.holds.root⟩)
    | error e => exact ends_reportFailure htrace (.inr ⟨rfl, rfl, error.detail, e.display, rfl⟩)

end Failure

section Settlement
variable {cell : Cell}

theorem publicationError_eq (error : String) (failures : List String) :
    ∃ text, publicationError error failures = .event text ∧ (failures ≠ [] → ∃ detail failed : String,
      text = s!"terminal event publication failed: {detail}; compensation incomplete: {failed}") := by
  unfold publicationError
  split_ifs with hempty
  · exact ⟨_, rfl, fun hne => absurd (isEmpty_iff.mp hempty) hne⟩
  · exact ⟨_, rfl, fun _ => ⟨error, _, rfl⟩⟩

theorem honest_publicationError {error : String} {failures : List String} {t : World}
    (h : failures = [] → Restored w t) : Honest L w (.error (publicationError error failures)) t := by
  obtain ⟨text, htext, hreport⟩ := publicationError_eq error failures
  rw [htext]
  by_cases hnone : failures = []
  · exact .restored (fun hc => hc) (h hnone)
  · exact .reported (fun hc => hc) (hreport hnone)

theorem ends_compensateEffects {f : Focus} (h : Carries L True f cell s) :
    Ends L (fun out t => out.1.state = cell.state ∧ (out.2 = [] → Carries L True f out.1 t ∧
      ∀ tx, out.1.transaction = some tx → tx.record.state = .rolledBack)) (compensateEffects L cell) s := by
  unfold compensateEffects
  cases ht : cell.transaction with
  | none =>
    refine ⟨rfl, fun _ => ⟨h, fun tx htx => ?_⟩⟩
    rw [ht] at htx
    cases htx
  | some tx =>
    obtain ⟨st, hheld⟩ := h.held tx ht
    refine (ends_of (runs_compensateCommitted hheld)).bind fun ⟨tx', result⟩ t hout => ?_
    obtain ⟨⟨-, st', hheld'⟩, hrolled⟩ := hout
    cases result with
    | error e => exact ⟨rfl, fun he => (cons_ne_nil _ _ he).elim⟩
    | ok u =>
      refine ⟨rfl, fun _ => ⟨⟨hheld'.sound.holds, nofun, fun tx'' htx'' => ?_⟩,
        fun tx'' htx'' => ?_⟩⟩
      · cases htx''
        exact ⟨st', hheld'⟩
      · cases htx''
        exact hrolled rfl

theorem ends_dropCell {f : Focus} (h : Carries L True f cell s)
    (hr : ∀ tx, cell.transaction = some tx → tx.record.state = .rolledBack) :
    Ends L (fun _ t => t.files = f.files ∧ t.stateRoot = f.root) (dropCell L cell) s := by
  unfold dropCell
  cases ht : cell.transaction with
  | none => exact ⟨h.idle ht, h.sound.root⟩
  | some tx =>
    obtain ⟨st, hheld⟩ := h.held tx ht
    refine (ends_of (runs_drop hheld)).post fun _ t hdrop => ?_
    exact ⟨hdrop.undone (hr tx ht) f rfl, hdrop.sound.holds.root⟩

variable {after : Option ZeroHandle}

theorem ends_compensate {error : String}
    (hroot : cell.state.root = w.stateRoot) (h : Carries L True ((startOf k settled w).withRoot after) cell s) :
    Ends L (Honest L w) (compensate L cell after error) s := by
  refine (ends_compensateEffects h).bind fun ⟨cell', effects⟩ t ⟨hstate, hdone⟩ => ?_
  have hroot' : cell'.state.root = w.stateRoot := by rw [hstate, hroot]
  -- whatever is dropped, a failure is reported
  have hreport : ∀ failures u, failures ≠ [] → Ends L (Honest L w)
      (dropCell L cell' >>= fun _ => pure (.error (publicationError error failures))) u := by
    intro failures u hne
    exact (Machine.safe_trivial _ _).bind fun _ v _ => honest_publicationError fun he => absurd he hne
  have hclean : ∀ u, effects = [] → Carries L True (startOf k settled w) cell' u →
      Ends L (Honest L w) (dropCell L cell' >>= fun _ =>
        pure (.error (publicationError error (effects ++ [])))) u := by
    intro u he hcarries
    refine (ends_dropCell hcarries (hdone he).2).bind fun _ v hv => ?_
    exact honest_publicationError fun _ => ⟨hv.1, hv.2⟩
  have hcompensated : ∀ u, (effects = [] → Carries L True (startOf k settled w) cell' u) →
      Ends L (Honest L w) (dropCell L cell' >>= fun _ =>
        pure (.error (publicationError error (effects ++ [])))) u := by
    intro u hcarries
    by_cases he : effects = []
    · exact hclean u he (hcarries he)
    · exact hreport _ u (by simpa using he)
  unfold compensateState
  dsimp only
  split_ifs with hsame
  · exact hcompensated t fun he => (hdone he).1.of_root (hroot'.symm.trans hsame.symm)
  · refine safe_compareAndSetRoot trivial (fun c e _ _ => ?_) ⟨trivial, ?_⟩
    · exact hreport _ t (by simp)
    · exact hcompensated _ fun he => Carries.of_root ((hdone he).1.withRoot cell'.state.root) hroot'.symm

theorem delivered {tx : Transaction} {st : TransactionRecord} {t : World}
    (hheld : Held L True (some ((startOf k settled w).withRoot after)) tx st s)
    (hlive : tx.record.state.live = true) (hall : tx.record.effects.all (·.receipt.isSome) = true)
    (hstaged : Staged L tx.receipts s) {r : ZeroKernelResponse} (hr : r.effects = tx.receipts)
    (hafter : r.state.after = after) (hfiles : t.files = s.files) (hroot : t.stateRoot = after) :
    Delivered L w r t := by
  refine ⟨hroot.trans hafter.symm, fun receipt hlast => ?_, fun path hpath => ?_⟩
  · rw [hfiles]
    exact hstaged.last receipt (hr ▸ hlast)
  · -- undoing the log does not touch this path
    have hundo := (hheld.fits _ rfl).undo hlive
    have hkey : path ∉ Preimage.keys (undoLog L tx.record.effects) := by
      intro hmem
      obtain ⟨p, hp, rfl⟩ := mem_map.mp hmem
      obtain ⟨e, he, rfl⟩ := mem_map.mp hp
      obtain ⟨receipt, hreceipt⟩ := Option.isSome_iff_exists.mp (all_eq_true.mp hall e he)
      have hmem' : receipt ∈ r.effects := hr ▸ mem_filterMap.mpr ⟨e, he, hreceipt⟩
      apply hpath receipt hmem'
      simp only [PreparedEffect.preimage, PreparedEffect.rollbackReceipt, hreceipt, Option.getD_some]
    have hbase : Preimage.undo (undoLog L tx.record.effects) s.files path = w.files path :=
      congrFun hundo path
    rwa [Preimage.undo_of_notMem hkey, ← hfiles] at hbase

variable {visible : String}

theorem completion_checked {event : ZeroHandle} {effects : List FileEffectReceipt}
    (htrace : validateTrace cell.operations = .ok ()) (hjournal : ∀ r ∈ effects, r.journal.isEmpty = false) :
    (cell.completion visible after event effects).checked = .ok (cell.completion visible after event effects) := by
  apply ZeroKernelResponse.checked_ok
  · rfl
  · exact htrace
  · have hpos := cell.positive
    simp [Cell.completion, validateTurn, Cell.turnRecord]
    omega
  · have hany : effects.any (·.journal.isEmpty) = false := by
      rw [any_eq_false]
      intro r hr
      simp [hjournal r hr]
    simp only [Cell.completion, validateEffects, hany]
    split_ifs <;> first | rfl | contradiction
  · exact (if_neg (not_not.mpr rfl)).trans (if_neg fun h => h.1 rfl)

section Root
variable (h : Carries L True ((startOf k settled w).withRoot after) cell s)
  (htrace : validateTrace cell.operations = .ok ()) (hroot : cell.state.root = w.stateRoot)
include h htrace hroot

theorem ends_publishCompleted {effects : List FileEffectReceipt} (hjournal : ∀ r ∈ effects, r.journal.isEmpty = false)
    (hsettled : ∀ tx, cell.transaction = some tx → tx.settled = true)
    (hdelivered : ∀ t r, r.effects = effects → r.state.after = after → t.files = s.files →
      t.stateRoot = after → Delivered L w r t) :
    Ends L (Honest L w) (publishCompleted L cell visible after effects) s := by
  have hevents : ∀ es,
      Carries L True ((startOf k settled w).withRoot after) cell.dedupHandles { s with events := es } := by
    intro es
    refine ⟨⟨h.sound.root, h.sound.fits, h.sound.others⟩, h.idle, fun tx ht => ?_⟩
    obtain ⟨st, hheld⟩ := h.held tx ht
    exact ⟨st, hheld.events es⟩
  refine safe_publishEvent (fun _ => trivial) (fun handle es => ?_) fun c e es _ _ => ?_
  · have hdrop : Ends L (fun _ t => t.files = s.files ∧ t.stateRoot = after) (dropCell L cell.dedupHandles)
        { s with events := es } := by
      unfold dropCell
      cases ht : cell.dedupHandles.transaction with
      | none => exact ⟨rfl, h.sound.root⟩
      | some tx =>
        obtain ⟨st, hheld⟩ := (hevents es).held tx ht
        refine (ends_of (runs_drop hheld)).post fun _ t hdrop => ?_
        exact ⟨hdrop.settled (hsettled tx ht), hdrop.sound.holds.root⟩
    refine hdrop.bind fun _ t ⟨hfiles, hstored⟩ => ?_
    rw [show (cell.dedupHandles.completion visible after handle effects).checked = .ok _ from
      completion_checked htrace hjournal]
    refine ⟨fun r hr _ => ?_, fun hn => absurd rfl hn⟩
    cases hr
    exact hdelivered t _ rfl rfl hfiles hstored
  · exact ends_compensate hroot (hevents es)

theorem ends_commitFailed {error : TransactionError} : Ends L (Honest L w) (commitFailed L cell after error) s := by
  unfold commitFailed
  split_ifs with hsame
  · exact ends_fail htrace (h.of_root (hroot.symm.trans hsame.symm))
  · refine safe_compareAndSetRoot trivial (fun c e hc hfail => ?_) ⟨trivial, ?_⟩
    · -- the root is the published one and the store answers
      rcases hfail with hstate | hconflict
      · exact absurd (hc.withdrawn _ _ rfl) hstate
      · exact absurd h.sound.root hconflict
    · exact ends_fail (k := k) htrace
        (Carries.of_root (f := startOf k settled w) (h.withRoot cell.state.root) hroot.symm)

theorem ends_commitEffects (hstaged : Staged L cell.receipts s) :
    Ends L (Honest L w) (commitEffects L cell visible after) s := by
  unfold commitEffects
  cases ht : cell.transaction with
  | none =>
    refine ends_publishCompleted h htrace hroot (fun _ hr => (not_mem_nil hr).elim)
      (fun tx htx => ?_) fun t r hr hafter hfiles hstored => ?_
    · rw [ht] at htx
      cases htx
    · refine ⟨hstored.trans hafter.symm, fun receipt hlast => ?_, fun path _ => ?_⟩
      · obtain ⟨es, es', hsplit, -⟩ := hlast
        rw [hr] at hsplit
        exact absurd hsplit.symm (by simp)
      · rw [hfiles, h.idle ht]
        rfl
  | some tx =>
    have hreceipts : cell.receipts = tx.receipts := by rw [Cell.receipts, ht, Option.elim_some]
    rw [hreceipts] at hstaged
    obtain ⟨st, hheld⟩ := h.held tx ht
    refine (ends_of (runs_commit hheld)).bind fun ⟨tx', result⟩ t hout => ?_
    obtain ⟨-, st', hheld'⟩ := hout.keeps
    have hcarries : Carries L True ((startOf k settled w).withRoot after) (cell.withTransaction (some tx')) t := by
      refine ⟨hheld'.sound.holds, nofun, fun tx'' htx'' => ?_⟩
      cases htx''
      exact ⟨st', hheld'⟩
    cases result with
    | error e => exact ends_commitFailed hcarries htrace hroot
    | ok receipts =>
      obtain ⟨hmem, hrec⟩ := hout.memory receipts rfl
      have hfiles : t.files = s.files := hout.files receipts rfl
      subst hrec
      have htx' : tx' = (tx.withRecord { tx.record with state := .committed }).settle := hmem
      have hsame : Staged L tx'.receipts t := by
        rw [htx']
        exact ⟨hstaged.journal, fun r hr => hfiles ▸ hstaged.last r hr⟩
      refine ends_publishCompleted hcarries htrace hroot hstaged.journal (fun tx'' htx'' => ?_)
        fun u r hr hafter hu hroot' => ?_
      · cases htx''
        rw [htx']
        rfl
      · refine delivered hheld' ?_ ?_ hsame ?_ hafter hu hroot'
        · rw [htx']
          rfl
        · rw [htx']
          exact hout.receipted _ rfl
        · rw [htx', hr]
          rfl

end Root

variable (h : Carries L True (startOf k settled w) cell s)
include h

section
variable (htrace : validateTrace cell.operations = .ok ()) (hroot : cell.state.root = w.stateRoot)
include htrace hroot

theorem ends_settle (hstaged : Staged L cell.receipts s) : Ends L (Honest L w) (settle L cell visible) s := by
  unfold settle
  split_ifs
  · refine safe_commitState trivial (fun e => ends_fail htrace h) ⟨trivial, ?_⟩
    exact ends_commitEffects (h.withRoot (some (L.rootOf cell.state.values))) htrace hroot
      ⟨hstaged.journal, hstaged.last⟩
  · have hsame : Carries L True ((startOf k settled w).withRoot cell.state.root) cell s := by
      rw [hroot]
      exact h
    exact ends_commitEffects hsame htrace hroot hstaged

theorem ends_finish {value : String} : Ends L (Honest L w) (finish L cell value) s := by
  refine safe_prepare trivial fun handles result hstaged => ?_
  have hcarries : Carries L True (startOf k settled w) { cell.dedupHandles with handles := handles } s :=
    ⟨h.sound, h.idle, h.held⟩
  cases result with
  | error e => exact ends_fail htrace hcarries
  | ok visible => exact ends_settle hcarries htrace hroot (hstaged visible rfl)

end

theorem ends_settleGuest {run : GuestRun} (htrace : validateTrace run.operations = .ok ())
    (hnone : cell.operations = []) (hroot : cell.state.root = w.stateRoot) :
    Ends L (Honest L w) (settleGuest L cell run) s := by
  unfold settleGuest Cell.recordOperations
  cases Cell.traceProblem cell.capsuleRoot 0 0 run.operations with
  | some detail =>
    refine ends_fail ?_ h
    rw [hnone]
    rfl
  | none =>
    have hcarries : Carries L True (startOf k settled w)
        { cell with operations := run.operations, operationsTruncated := run.truncated } s :=
      ⟨h.sound, h.idle, h.held⟩
    cases run.result with
    | value v => exact ends_finish hcarries htrace hroot
    | error e => exact ends_fail htrace hcarries

end Settlement

/-- A cell as `begin_from_request` hands it out: on the stored root, without a transaction or a
trace, under an id that no record has used. -/
structure Fresh (cell : Cell) (w : World) : Prop where
  transaction : cell.transaction = none
  root : cell.state.root = w.stateRoot
  operations : cell.operations = []
  record : w.journal.slot cell.invocation.key = none

theorem Fresh.hosts {fault : Prop} {cell : Cell} (h : Fresh cell w)
    (hothers : ∀ j, settled j → j ≠ cell.invocation.key → ∀ r, w.journal.slot j = some (.record r) →
      r.state = .committed ∨ r.state = .rolledBack) : Hosts L fault (startOf cell.invocation.key settled w) cell w :=
  ⟨⟨rfl, h.root, h.operations⟩, .leave h.transaction
    ⟨holds_startOf h.record hothers, .inl h.record, fun _ => rfl⟩ rfl⟩

/-- In every run of a cell whose steps are candid, whose trace its response accepts and in
whose guest code no restore fails, the answer is honest. -/
theorem cell_outcome_honest (L : Layout) (cell : Cell) (w : World) (hfresh : Fresh cell w)
    (run : GuestRun) (env : ℕ → KernelChoice) (htrace : validateTrace run.operations = .ok ())
    (hguest : (kernel L).Along Restoring (guestCalls L cell run.calls) env w)
    (hcandid : (kernel L).Along (Candid L) (execute L cell run) env w) :
    Honest L w ((kernel L).run (execute L cell run) env w).1 ((kernel L).run (execute L cell run) env w).2 := by
  have hhosts : Hosts L True (startOf cell.invocation.key (fun _ => False) w) cell w :=
    hfresh.hosts fun _ hfalse => hfalse.elim
  unfold execute at hcandid ⊢
  obtain ⟨hcalls, hend⟩ := ((kernel L).along_bind _ _ env w).mp hcandid
  have hsteady : (kernel L).Along (Steady L True) (guestCalls L cell run.calls) env w :=
    Machine.Along.mono _ (fun c o s hc => ⟨fun hnot => absurd trivial hnot, hc.2.spares, hc.1⟩)
      (Machine.Along.and _ hguest hcalls)
  have hleft := (hosting_guestCalls hhosts run.calls).run hsteady
  rw [Machine.run_bind]
  exact (ends_settleGuest hleft.carries htrace hleft.trace hleft.root).run hend

section Sample

def sampleCell : Cell where
  invocation := sampleContext
  sequence := 1
  positive := Nat.one_pos
  contractDigest := "contract"
  capsuleRoot := "capsule"
  binding := ⟨"empty", "contract"⟩
  state := ⟨none, []⟩
  stateDirty := false
  transaction := none
  handles := []
  operations := []
  operationsTruncated := false

theorem sampleCell_fresh : Fresh sampleCell sampleWorld := ⟨rfl, rfl, rfl, rfl⟩

def diskFull : KernelChoice :=
  { smooth with
    restore := some ⟨⟨.io, "disk full", false⟩, false⟩
    publish := .failed "event log I/O: disk full" false }

def editThenThrow : GuestRun := ⟨[.file sampleRequest], [], false, .error ⟨.internal, "guest threw", false⟩⟩

/-- The edit stays, and the answer speaks of the event log only. -/
theorem failed_rollback_unreported :
    let out := (kernel sampleLayout).run (execute sampleLayout sampleCell editThenThrow)
      (fun _ => diskFull) sampleWorld
    out.1 = .error (.event "event log I/O: disk full") ∧ sampleWorld.files "a.txt" = some "old" ∧
      out.2.files "a.txt" = some "new" ∧ ¬ Honest sampleLayout sampleWorld out.1 out.2 := by
  refine ⟨rfl, rfl, rfl, fun h => ?_⟩
  rcases h.otherwise (fun hc => hc) with hrestored | ⟨detail, failed, htext⟩
  · exact absurd (congrFun hrestored.files "a.txt") (by decide)
  · -- the two texts begin with different letters
    have hhead := congrArg (fun text : String => text.toList.head?) htext
    simp [String.toList_append, toString] at hhead

def editThenReturn : GuestRun := ⟨[.file sampleRequest, .stateSet "n" "1"], [], false, .value "null"⟩

theorem smooth_candid (o : KernelOp) (s : World) : Candid sampleLayout smooth o s :=
  ⟨fun _ _ _ _ _ hc => (by cases hc), fun _ _ _ => ⟨_, rfl⟩, fun _ _ _ => rfl⟩

theorem returned_cell_honest : ∃ r, ((kernel sampleLayout).run (execute sampleLayout sampleCell editThenReturn)
        (fun _ => smooth) sampleWorld).1 = .ok r ∧ r.outcome = .completed ∧ r.effects ≠ [] ∧
      r.state.after ≠ r.state.before ∧ Delivered sampleLayout sampleWorld r ((kernel sampleLayout).run
        (execute sampleLayout sampleCell editThenReturn) (fun _ => smooth) sampleWorld).2 := by
  have hhonest := cell_outcome_honest sampleLayout sampleCell sampleWorld sampleCell_fresh editThenReturn
    (fun _ => smooth) rfl (Machine.along_of_forall _ (fun _ _ _ => rfl) _ _)
    (Machine.along_of_forall _ (fun _ o s => smooth_candid o s) _ _)
  exact ⟨_, rfl, rfl, cons_ne_nil _ _, by decide, hhonest.completed _ rfl rfl⟩

end Sample
end Zero.Kernel
