import ZeroStack.Kernel.Guest

/-! The end of a cell, up to the point where `finish` begins to commit: the check of the staged receipts, and the cell
while the state root moves. -/

open Durable List

namespace Zero.Kernel
variable {L : Layout} {fault : Prop} {f : Focus} {s : World} {α : Type} {Q : α → World → Prop}

section Staged

def FileEffectReceipt.Shaped (receipt : FileEffectReceipt) : Prop :=
  receipt.kind = .remove ↔ receipt.after = none

def IsLast (receipts : List FileEffectReceipt) (receipt : FileEffectReceipt) : Prop :=
  ∃ es es', receipts = es ++ receipt :: es' ∧ ∀ later ∈ es', later.path ≠ receipt.path

structure Sifted (latest receipts found : List FileEffectReceipt) : Prop where
  journal : ∀ r ∈ receipts, r.journal.isEmpty = false
  shaped : (∀ r ∈ latest, r.Shaped) → ∀ r ∈ found, r.Shaped
  kept : ∀ r ∈ latest, (∀ later ∈ receipts, later.path ≠ r.path) → r ∈ found
  last : ∀ r, IsLast receipts r → r ∈ found

theorem sifted_of_stagedProblem {latest receipts found : List FileEffectReceipt}
    (h : stagedProblem latest receipts = .ok found) : Sifted latest receipts found := by
  induction receipts generalizing latest with
  | nil =>
    cases h
    refine ⟨fun _ hr => (not_mem_nil hr).elim, fun hs => hs, fun r hr _ => hr, ?_⟩
    rintro r ⟨es, es', hsplit, -⟩
    exact absurd hsplit.symm (by simp)
  | cons receipt receipts ih =>
    unfold stagedProblem at h
    split_ifs at h with hjournal hremove hwrite hchain
    have hrest := ih h
    have hshape : receipt.Shaped := by
      constructor
      · intro hk
        by_contra hafter
        exact hremove ⟨hk, hafter⟩
      · intro hafter
        by_contra hk
        exact hwrite ⟨hk, hafter⟩
    refine ⟨?_, fun hs => ?_, fun r hr hlater => ?_, ?_⟩
    · exact forall_mem_cons.mpr ⟨by simpa using hjournal, hrest.journal⟩
    · apply hrest.shaped
      exact forall_mem_cons.mpr ⟨hshape, fun r hr => hs r (mem_of_mem_filter hr)⟩
    · obtain ⟨hhead, htail⟩ := forall_mem_cons.mp hlater
      refine hrest.kept r (mem_cons_of_mem _ (mem_filter.mpr ⟨hr, ?_⟩)) htail
      simpa using Ne.symm hhead
    · rintro r ⟨es, es', hsplit, hlater⟩
      cases es with
      | nil =>
        -- the receipt itself is the last one for its path
        obtain ⟨rfl, rfl⟩ := List.cons.inj hsplit
        exact hrest.kept _ mem_cons_self hlater
      | cons e es =>
        obtain ⟨-, htail⟩ := List.cons.inj hsplit
        exact hrest.last r ⟨es, es', htail, hlater⟩

structure Staged (L : Layout) (receipts : List FileEffectReceipt) (s : World) : Prop where
  journal : ∀ r ∈ receipts, r.journal.isEmpty = false
  last : ∀ r, IsLast receipts r → s.files (L.resolve r.path) = r.after

variable {C : KernelChoice → KernelOp → World → Prop} {G : World → World → Prop}

theorem safe_readStaged {latest : List FileEffectReceipt} (hG : G s s) (hs : ∀ r ∈ latest, r.Shaped) :
    (kernel L).Safe C G (fun out t => t = s ∧
      (out = .ok () → ∀ r ∈ latest, s.files (L.resolve r.path) = r.after)) (readStaged latest) s := by
  induction latest with
  | nil => exact ⟨rfl, fun _ r hr => (not_mem_nil hr).elim⟩
  | cons receipt latest ih =>
    obtain ⟨hshape, htail⟩ := forall_mem_cons.mp hs
    -- the file of this receipt is as it says, so the rest decides
    have hgo : s.files (L.resolve receipt.path) = receipt.after →
        (kernel L).Safe C G (fun out t => t = s ∧ (out = .ok () → ∀ r ∈ receipt :: latest,
          s.files (L.resolve r.path) = r.after)) (readStaged latest) s := by
      intro hread
      refine (ih htail).post fun out t ⟨ht, hall⟩ => ⟨ht, fun hok => ?_⟩
      exact forall_mem_cons.mpr ⟨hread, hall hok⟩
    have hstop : ∀ e : EngineError, s = s ∧ ((.error e : Except EngineError Unit) = .ok () →
        ∀ r ∈ receipt :: latest, s.files (L.resolve r.path) = r.after) :=
      fun e => ⟨rfl, nofun⟩
    refine safe_readFile hG (fun content hcontent => ?_) (fun e he hmissing => ?_) fun c e _ _ he => ?_
    · split_ifs with hk
      · exact hstop _
      · dsimp only
        split_ifs with hafter
        · exact hgo (hcontent.trans hafter.symm)
        · exact hstop _
    · split_ifs with hk
      · dsimp only
        rw [if_pos he]
        exact hgo (hmissing.trans (hshape.mp hk).symm)
      · exact hstop _
    · split_ifs with hk
      · dsimp only
        rw [if_neg he]
        exact hstop _
      · exact hstop _

theorem safe_validateStagedReceipts (cell : Cell) (hG : G s s) :
    (kernel L).Safe C G (fun out t => t = s ∧ (out = .ok () → Staged L cell.receipts s))
      (validateStagedReceipts cell) s := by
  unfold validateStagedReceipts
  cases hstaged : stagedProblem [] cell.receipts with
  | error detail => exact ⟨rfl, nofun⟩
  | ok latest =>
    have hsift := sifted_of_stagedProblem hstaged
    have hmem : ∀ r, r ∈ pathOrder latest ↔ r ∈ latest := fun r => (perm_insertionSort _ _).mem_iff
    have hshaped : ∀ r ∈ pathOrder latest, r.Shaped :=
      fun r hr => hsift.shaped (fun _ h => (not_mem_nil h).elim) r ((hmem r).mp hr)
    refine (safe_readStaged hG hshaped).post fun out t ⟨ht, hall⟩ => ⟨ht, fun hok => ?_⟩
    exact ⟨hsift.journal, fun r hr => hall hok r ((hmem r).mpr (hsift.last r hr))⟩

theorem safe_prepare {cell : Cell} {value : String}
    {g : Cell × Except EngineError String → KernelProgram α} (hG : G s s)
    (h : ∀ handles result, (∀ visible, result = .ok visible → Staged L cell.receipts s) →
      (kernel L).Safe C G Q (g ({ cell with handles := handles }, result)) s) :
    (kernel L).Safe C G Q (prepare L cell value >>= g) s := by
  have hbody : (kernel L).Safe C G (fun out t => t = s ∧ ∃ handles, out.1 = { cell with handles := handles } ∧
      ∀ visible, out.2 = .ok visible → Staged L cell.receipts s) (prepare L cell value) s := by
    have hstop : ∀ e, s = s ∧ ∃ handles, cell = { cell with handles := handles } ∧
        ∀ visible, (.error e : Except EngineError String) = .ok visible → Staged L cell.receipts s :=
      fun e => ⟨rfl, cell.handles, rfl, nofun⟩
    refine safe_isCancelled hG fun c _ => ?_
    split_ifs
    · exact hstop _
    · exact hstop _
    · refine safe_serializeResult hG fun raw => ?_
      cases raw with
      | error e => exact hstop _
      | ok raw =>
        refine safe_project hG fun projection => ?_
        cases projection with
        | error e => exact hstop _
        | ok projection =>
          refine (safe_validateStagedReceipts cell hG).bind fun out t ⟨ht, hstaged⟩ => ?_
          subst ht
          cases out with
          | error e => exact ⟨rfl, _, rfl, nofun⟩
          | ok u => exact ⟨rfl, _, rfl, fun _ _ => hstaged rfl⟩
  refine hbody.bind fun ⟨cell', result⟩ t ⟨ht, handles, hcell, hstaged⟩ => ?_
  subst ht
  have hcell' : cell' = { cell with handles := handles } := hcell
  subst hcell'
  exact h handles result hstaged

end Staged

section Root

def Focus.withRoot (f : Focus) (root : Option ZeroHandle) : Focus := { f with root := root }

theorem Focus.Holds.withRoot (h : f.Holds L s) (root : Option ZeroHandle) :
    (f.withRoot root).Holds L { s with stateRoot := root } := ⟨rfl, h.fits, h.others⟩

theorem Held.withRoot {tx : Transaction} {st : TransactionRecord} (h : Held L fault (some f) tx st s)
    (root : Option ZeroHandle) : Held L fault (some (f.withRoot root)) tx st { s with stateRoot := root } := by
  have hf := h.sound.holds.withRoot root
  refine ⟨⟨⟨h.leased, h.stored, hf.sound, ?_, ?_, ?_, h.restored, h.finished⟩, h.same⟩, h.open_⟩
  · rintro g ⟨rfl⟩
    exact h.key f rfl
  · rintro g ⟨rfl⟩
    exact h.fits f rfl
  · rintro g ⟨rfl⟩
    exact h.backed f rfl

theorem Held.events {tx : Transaction} {st : TransactionRecord} (h : Held L fault (some f) tx st s)
    (es : List ZeroKernelEvent) : Held L fault (some f) tx st { s with events := es } :=
  ⟨⟨⟨h.leased, h.stored, h.sound.of_eq rfl rfl rfl, h.key, h.fits, h.backed, h.restored, h.finished⟩, h.same⟩, h.open_⟩

structure Carries (L : Layout) (fault : Prop) (f : Focus) (cell : Cell) (s : World) : Prop where
  sound : f.Holds L s
  idle : cell.transaction = none → s.files = f.files
  held : ∀ tx, cell.transaction = some tx → ∃ st, Held L fault (some f) tx st s

theorem Attends.carries {cell : Cell} (h : Attends L fault f cell s) : Carries L fault f cell s :=
  ⟨h.recovers.sound, h.idle, fun tx ht => (h.held tx ht).1⟩

theorem Carries.withRoot {cell : Cell} (h : Carries L fault f cell s) (root : Option ZeroHandle) :
    Carries L fault (f.withRoot root) cell { s with stateRoot := root } := by
  refine ⟨h.sound.withRoot root, h.idle, fun tx ht => ?_⟩
  obtain ⟨st, hheld⟩ := h.held tx ht
  exact ⟨st, hheld.withRoot root⟩

theorem Carries.of_root {cell : Cell} {root : Option ZeroHandle}
    (h : Carries L fault (f.withRoot root) cell s) (hroot : f.root = root) : Carries L fault f cell s := by
  subst hroot
  exact h

end Root
end Zero.Kernel
