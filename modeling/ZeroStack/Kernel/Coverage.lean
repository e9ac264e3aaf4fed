import ZeroStack.Kernel.Transaction
import ZeroStack.Program.UndoLog
import Mathlib.Data.List.ModifyLast

/-! The effects of a record read as an undo log. As long as a record is live, undoing it gives the files with which
its transaction began, however far the effects or an earlier rollback had come. `Pending` and `Live` keep the log in
memory and the one on disk in step. -/

open Durable

namespace Zero.Kernel

abbrev FileTree := PathBuf → Option ZeroHandle

def TransactionState.live : TransactionState → Bool
  | .rolledBack | .recoveryRequired => false
  | _ => true

/-- One record of the journal: its key, the files and the state root that its transaction found, and the other records
settled by then. -/
structure Focus where
  key : RecordKey
  files : FileTree
  root : Option ZeroHandle
  settled : RecordKey → Prop

/-- How the stored record of a transaction may be replaced. A cancelled or refused first
effect takes the record back to `Prepared`, outside the transition table. -/
def Edge (r r' : TransactionRecord) : Prop :=
  transitionAllowed r.state r'.state = true ∨ (r.state = .applying ∧ r'.state = .prepared ∧ r'.effects = [])

inductive SlotStep (session : String) : Option JournalEntry → Option JournalEntry → Prop where
  | keep (a : Option JournalEntry) : SlotStep session a a
  | create (r : TransactionRecord) (hs : r.state = .prepared) (he : r.effects = []) :
    SlotStep session none (some (.record r))
  | advance {r r' : TransactionRecord} (h : Edge r r') : SlotStep session (some (.record r)) (some (.record r'))
  | quarantine {a : Option JournalEntry} (h : ∀ r, a = some (.record r) → r.sessionId = session →
      r.state ≠ .committed ∧ r.state ≠ .rolledBack) : SlotStep session a none

section Definitions
variable (L : Layout)

def PreparedEffect.preimage (e : PreparedEffect) : Preimage PathBuf (Option ZeroHandle) :=
  ⟨L.resolve e.rollbackReceipt.path, e.rollbackReceipt.before⟩

def undoLog (es : List PreparedEffect) : List (Preimage PathBuf (Option ZeroHandle)) :=
  es.map (PreparedEffect.preimage L)

structure Fits (base files : FileTree) (r : TransactionRecord) : Prop where
  undone : r.state = .rolledBack → files = base
  fresh : r.state.live = true → ∀ e ∈ r.effects, e.restored = false
  undo : r.state.live = true → Preimage.undo (undoLog L r.effects) files = base

structure Focus.Holds (f : Focus) (s : World) : Prop where
  root : s.stateRoot = f.root
  fits : ∀ r, s.journal.slot f.key = some (.record r) → Fits L f.files s.files r
  others : ∀ k, f.settled k → k ≠ f.key → ∀ r, s.journal.slot k = some (.record r) →
    r.state = .committed ∨ r.state = .rolledBack

def Sound (focus : Option Focus) (s : World) : Prop := ∀ f ∈ focus, f.Holds L s

/-- A transaction in memory over its stored record `st`. The memory may be ahead of the
disk: an effect that the stored record does not know has not been dispatched. -/
structure Pending (focus : Option Focus) (tx : Transaction) (st : TransactionRecord) (s : World) :
    Prop where
  leased : s.leased = true
  stored : s.journal.slot tx.key = some (.record st)
  sound : Sound L focus s
  key : ∀ f ∈ focus, tx.key = f.key
  fits : ∀ f ∈ focus, Fits L f.files s.files tx.record
  backed : ∀ f ∈ focus, ∀ e ∈ tx.record.effects, (e.preimage L).key ∈ Preimage.keys (undoLog L st.effects) ∨
      (e.preimage L).before = f.files (e.preimage L).key
  restored : tx.record.state = .rolledBack → ∀ e ∈ tx.record.effects, e.restored = true
  finished : st.state.live = false → tx.record.state = st.state

structure Live (fault : Prop) (focus : Option Focus) (tx : Transaction) (st : TransactionRecord)
    (s : World) : Prop extends Pending L focus tx st s where
  same : ¬ fault → st.state = tx.record.state

structure Held (fault : Prop) (focus : Option Focus) (tx : Transaction) (st : TransactionRecord)
    (s : World) : Prop extends Live L fault focus tx st s where
  open_ : ¬ fault → tx.settled = false → tx.record.state ≠ .committed

def Moves (fault : Prop) (s t : World) : Prop :=
  ¬ fault → ∀ k, SlotStep k.session (s.journal.slot k) (t.journal.slot k)

def Step (fault : Prop) (focus : Option Focus) (s t : World) : Prop :=
  Moves fault s t ∧ Sound L focus t

/-- Where the cancellation is noticed after a failed effect, its target still holds its preimage, or is in the log of
an earlier effect. -/
def Spares (c : KernelChoice) (o : KernelOp) (s : World) : Prop :=
  ∀ k r es e, o = .isCancelled k .afterFailure → c.cancelled = true →
    s.journal.slot k = some (.record r) → r.effects = es ++ [e] → s.files (L.resolve e.request.path) = e.before ∨
        L.resolve e.request.path ∈ Preimage.keys (undoLog L es)

def Allowed (fault : Prop) (focus : Option Focus) (c : KernelChoice) (o : KernelOp) (s : World) :
    Prop := (¬ fault → c.persist = none) ∧ (focus ≠ none → Spares L c o s)

end Definitions

section Lemmas
variable {L : Layout} {fault : Prop} {focus : Option Focus} {tx : Transaction}
variable {st : TransactionRecord} {s : World}

theorem undoLog_append (es es' : List PreparedEffect) :
    undoLog L (es ++ es') = undoLog L es ++ undoLog L es' := List.map_append

theorem mem_keys_undoLog {es : List PreparedEffect} {e : PreparedEffect} (h : e ∈ es) :
    (e.preimage L).key ∈ Preimage.keys (undoLog L es) :=
  List.mem_map_of_mem (List.mem_map_of_mem h)

theorem Moves.of_journal {t : World} (h : t.journal = s.journal) : Moves fault s t :=
  fun _ _ => h ▸ SlotStep.keep _

theorem Moves.putRecord {k : RecordKey} {r r' : TransactionRecord}
    (hs : s.journal.slot k = some (.record r)) (h : ¬ fault → Edge r r') : Moves fault s (s.putRecord k r') := by
  intro hf j
  by_cases hj : j = k
  · subst hj
    change SlotStep _ _ ((s.journal.put j _).slot j)
    rw [hs, Directory.put_self]
    exact .advance (h hf)
  · change SlotStep _ _ ((s.journal.put k _).slot j)
    rw [Directory.put_of_ne _ _ hj]
    exact .keep _

theorem Moves.quarantine {k : RecordKey} (h : ¬ fault → ∀ r, s.journal.slot k = some (.record r) →
    r.sessionId = k.session → r.state ≠ .committed ∧ r.state ≠ .rolledBack) : Moves fault s (s.quarantine k) := by
  intro hf j
  by_cases hj : j = k
  · subst hj
    change SlotStep _ _ ((s.journal.remove j).slot j)
    rw [Directory.remove_self]
    exact .quarantine (h hf)
  · change SlotStep _ _ ((s.journal.remove k).slot j)
    rw [Directory.remove_of_ne _ hj]
    exact .keep _

variable {r : TransactionRecord}

theorem Sound.putRecord {k : RecordKey} (h : Sound L focus s)
    (hk : ∀ f ∈ focus, k = f.key ∧ Fits L f.files s.files r) : Sound L focus (s.putRecord k r) := by
  intro f hf
  obtain ⟨rfl, hfits⟩ := hk f hf
  refine ⟨(h f hf).root, fun r' hr' => ?_, fun j hset hj r' hr' => ?_⟩
  · have heq : (s.journal.put f.key (.record r)).slot f.key = some (.record r') := hr'
    rw [Directory.put_self] at heq
    cases heq
    exact hfits
  · have heq : (s.journal.put f.key (.record r)).slot j = some (.record r') := hr'
    rw [Directory.put_of_ne _ _ hj] at heq
    exact (h f hf).others j hset hj r' heq

theorem Sound.quarantine {k : RecordKey} (h : Sound L focus s) : Sound L focus (s.quarantine k) := by
  have hslot : ∀ j r, (s.quarantine k).journal.slot j = some (.record r) → s.journal.slot j = some (.record r) := by
    intro j r hr
    by_cases hj : j = k
    · subst hj
      rw [show (s.quarantine j).journal.slot j = none from Directory.remove_self ..] at hr
      cases hr
    · rwa [show (s.quarantine k).journal.slot j = s.journal.slot j from
        Directory.remove_of_ne _ hj] at hr
  exact fun f hf => ⟨(h f hf).root, fun r hr => (h f hf).fits r (hslot _ _ hr),
    fun j hset hj r hr => (h f hf).others j hset hj r (hslot _ _ hr)⟩

theorem Sound.of_eq {t : World} (h : Sound L focus s) (hr : t.stateRoot = s.stateRoot)
    (hj : t.journal = s.journal) (hf : t.files = s.files) : Sound L focus t :=
  fun f hmem => ⟨hr.trans (h f hmem).root, fun r => hj ▸ hf ▸ (h f hmem).fits r,
    fun k hset hk r => hj ▸ (h f hmem).others k hset hk r⟩

theorem Fits.write {base files : FileTree} {path : PathBuf} (h : Fits L base files r) (hr : r.state ≠ .rolledBack)
    (hp : path ∈ Preimage.keys (undoLog L r.effects)) (content : Option ZeroHandle) :
    Fits L base (Function.update files path content) r where
  undone := fun hs => absurd hs hr
  fresh := h.fresh
  undo := fun hl => (Preimage.undo_update hp files content).trans (h.undo hl)

theorem Fits.restore {base files : FileTree}
    {p : Preimage PathBuf (Option ZeroHandle)} (h : Fits L base files r) (hr : r.state ≠ .rolledBack)
    (hp : p.key ∈ Preimage.keys (undoLog L r.effects) ∨ p.before = base p.key) :
    Fits L base (Function.update files p.key p.before) r where
  undone := fun hs => absurd hs hr
  fresh := h.fresh
  undo := fun hl => Preimage.undo_restore (h.undo hl) hp

theorem TransactionState.live_ne {a : TransactionState} (h : a.live = true) : a ≠ .rolledBack := by
  rintro rfl
  cases h

section
variable (h : Pending L focus tx st s)
include h

theorem Pending.stored_live (hl : tx.record.state.live = true) : st.state.live = true := by
  by_contra hst
  have heq := h.finished (Bool.eq_false_iff.mpr hst)
  rw [heq] at hl
  exact hst hl

theorem Pending.write {path : PathBuf} (content : Option ZeroHandle) (hm : tx.record.state.live = true)
    (hp : path ∈ Preimage.keys (undoLog L st.effects)) (hp' : path ∈ Preimage.keys (undoLog L tx.record.effects)) :
    Pending L focus tx st (s.setFile path content) where
  leased := h.leased
  stored := h.stored
  sound := by
    intro f hf
    refine ⟨(h.sound f hf).root, fun r hr => ?_, (h.sound f hf).others⟩
    -- the record in focus is the stored one
    have hst : some (JournalEntry.record st) = some (.record r) := by
      rw [← h.stored, h.key f hf]
      exact hr
    cases hst
    exact ((h.sound f hf).fits st hr).write (TransactionState.live_ne (h.stored_live hm)) hp content
  key := h.key
  fits := fun f hf => (h.fits f hf).write (TransactionState.live_ne hm) hp' content
  backed := h.backed
  restored := h.restored
  finished := h.finished

theorem Pending.restore_sound {e : PreparedEffect} (he : e ∈ tx.record.effects) (hr : e.restored = false) {t : World}
    (ht : Sound L focus t) (hj : t.journal = s.journal) :
    Sound L focus (t.setFile (e.preimage L).key (e.preimage L).before) := by
  intro f hf
  refine ⟨(ht f hf).root, fun r hslot => ?_, (ht f hf).others⟩
  have hslot' : t.journal.slot f.key = some (.record r) := hslot
  have hst : some (JournalEntry.record st) = some (.record r) := by
    rw [← h.stored, h.key f hf, ← hj]
    exact hslot
  cases hst
  have hlive : st.state ≠ .rolledBack := by
    intro hs
    have hdead : st.state.live = false := by
      rw [hs]
      rfl
    have hres := h.restored ((h.finished hdead).trans hs) e he
    rw [hr] at hres
    cases hres
  exact ((ht f hf).fits st hslot').restore hlive (h.backed f hf e he)

theorem Pending.withRecord (hl : tx.record.state.live = true)
    (hr : r.state.live = true) (hfresh : ∀ f ∈ focus, ∀ e ∈ r.effects, e.restored = false)
    (hundo : ∀ f ∈ focus, Preimage.undo (undoLog L r.effects) s.files = f.files) (hback : ∀ f ∈ focus, ∀ e ∈ r.effects,
      (e.preimage L).key ∈ Preimage.keys (undoLog L st.effects) ∨ (e.preimage L).before = f.files (e.preimage L).key) :
    Pending L focus (tx.withRecord r) st s := by
  have hne := TransactionState.live_ne hr
  refine ⟨h.leased, h.stored, h.sound, h.key, fun f hf => ?_, hback, fun hs => absurd hs hne, fun hs => ?_⟩
  · exact ⟨fun hs => absurd hs hne, fun _ => hfresh f hf, fun _ => hundo f hf⟩
  · rw [h.stored_live hl] at hs
    cases hs

theorem Pending.withState (hl : tx.record.state.live = true) (hl' : r.state.live = true)
    (he : r.effects = tx.record.effects) : Pending L focus (tx.withRecord r) st s :=
  h.withRecord hl hl' (fun f hf => he ▸ (h.fits f hf).fresh hl) (fun f hf => he ▸ (h.fits f hf).undo hl)
    fun f hf => he ▸ h.backed f hf

end

theorem Pending.published (fault : Prop) (h : Pending L focus tx st s) :
    Live L fault focus tx tx.record (s.putRecord tx.key tx.record) where
  leased := h.leased
  stored := Directory.put_self ..
  sound := h.sound.putRecord fun f hf => ⟨h.key f hf, h.fits f hf⟩
  key := h.key
  fits := h.fits
  backed := fun _ _ _ he => .inl (mem_keys_undoLog he)
  restored := h.restored
  finished := fun _ => rfl
  same := fun _ => rfl

theorem Live.settle (h : Live L fault focus tx st s) : Held L fault focus tx.settle st s :=
  ⟨⟨⟨h.leased, h.stored, h.sound, h.key, h.fits, h.backed, h.restored, h.finished⟩, h.same⟩, nofun⟩

end Lemmas
end Zero.Kernel
