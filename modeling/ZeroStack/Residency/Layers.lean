import ZeroStack.Guarded.Runs
import ZeroStack.Residency.Guards
import ZeroStack.Abi

/-! The ledger of what a cache entry is worth in each of its three layers. A call changes an entry in place and checks
it afterwards: what the check refuses has already happened. -/

open Wire

namespace Zero.Residency

structure LayerValidityEntry where
  objectRoot : Sha256Digest
  l1Valid : Bool
  l2Valid : Bool
  l3Valid : Bool
  l2NeedsRefetch : Bool
  deriving DecidableEq

def LayerValidityEntry.new (objectRoot : Sha256Digest) : LayerValidityEntry := ⟨objectRoot, false, false, false, false⟩

def LayerValidityEntry.validate (entry : LayerValidityEntry) : Except ResidencyError Unit :=
  if entry.l2NeedsRefetch && !entry.l2Valid then
    .error (.invalidLayerLedger "an L2 copy marked needs-refetch must be L2-valid (identity kept)")
  else .ok ()

inductive Call where
  | publishL2
  | markL3Loss
  | completeRefetch
  | tombstone
  deriving DecidableEq

def Call.edit (root : Sha256Digest) : Call → Option LayerValidityEntry → Except ResidencyError LayerValidityEntry
  | publishL2, slot => .ok { slot.getD (.new root) with l2Valid := true, l2NeedsRefetch := false }
  | markL3Loss, none => .error (.l3LossUndiscovered "L3 loss declared for an entry with no L2 validity record")
  | markL3Loss, some entry =>
    let digest := String.ofList (hexChars (digestBytes entry.objectRoot))
    if !entry.l2Valid then .error (.l3LossUndiscovered s!"entry {digest} has no L2 validity to preserve")
    else .ok { entry with l3Valid := false, l2NeedsRefetch := true }
  | completeRefetch, none => .error (.invalidLayerLedger "refetch for unknown entry")
  | completeRefetch, some entry =>
    if !entry.l2NeedsRefetch then
      .error (.invalidLayerLedger "refetch completed for an entry not marked needs-refetch")
    else .ok { entry with l2NeedsRefetch := false, l3Valid := true }
  | tombstone, none => .error (.invalidLayerLedger "tombstone for unknown entry")
  | tombstone, some entry => .ok { entry with l1Valid := false, l2Valid := false }

structure LayerValidityLedger where
  entries : Sha256Digest → Option LayerValidityEntry

namespace LayerValidityLedger
variable (l : LayerValidityLedger)

def new : LayerValidityLedger := ⟨fun _ => none⟩

def call (c : Call) (root : Sha256Digest) : Except ResidencyError Unit × LayerValidityLedger :=
  match c.edit root (l.entries root) with
  | .error e => (.error e, l)
  | .ok entry => (entry.validate, ⟨Function.update l.entries root (some entry)⟩)

def publishL2 (root : Sha256Digest) : Except ResidencyError Unit × LayerValidityLedger := l.call .publishL2 root
def markL3Loss (root : Sha256Digest) : Except ResidencyError Unit × LayerValidityLedger := l.call .markL3Loss root
def completeRefetch (root : Sha256Digest) : Except ResidencyError Unit × LayerValidityLedger :=
  l.call .completeRefetch root
def tombstone (root : Sha256Digest) : Except ResidencyError Unit × LayerValidityLedger := l.call .tombstone root

def step (c : Call × Sha256Digest) : LayerValidityLedger := (l.call c.1 c.2).2

/-- No tombstone comes between the loss of an entry and its refetch. -/
def Fits (c : Call × Sha256Digest) : Prop :=
  c.1 = .tombstone → ∀ entry ∈ l.entries c.2, entry.l2NeedsRefetch = false

variable {l} {c : Call} {root key : Sha256Digest} {entry : LayerValidityEntry}

theorem entries_step : (l.step (c, root)).entries key =
    if key = root then ((c.edit root (l.entries root)).toOption <|> l.entries root) else l.entries key := by
  unfold step call
  cases hedit : c.edit root (l.entries root) with
  | error e =>
    split_ifs with hkey
    · subst hkey
      rfl
    · rfl
  | ok edited => exact Function.update_apply ..

theorem validate_edit {slot : Option LayerValidityEntry} (h : c.edit root slot = .ok entry)
    (hfits : c = .tombstone → ∀ old ∈ slot, old.l2NeedsRefetch = false) : entry.validate = .ok () := by
  cases c <;> cases slot <;> grind [Call.edit, LayerValidityEntry.validate]

def Sound (l : LayerValidityLedger) : Prop := ∀ root, ∀ entry ∈ l.entries root, entry.validate = .ok ()

theorem Sound.step (hl : l.Sound) (hc : l.Fits (c, root)) : (l.step (c, root)).Sound := by
  intro key entry hentry
  rw [entries_step] at hentry
  split_ifs at hentry with hkey
  · cases hedit : c.edit root (l.entries root) with
    | error e =>
      rw [hedit] at hentry
      exact hl root entry hentry
    | ok edited =>
      rw [hedit] at hentry
      cases hentry
      exact validate_edit hedit hc
  · exact hl key entry hentry

theorem call_refused (hc : l.Fits (c, root)) {e : ResidencyError} (h : (l.call c root).1 = .error e) :
    (l.call c root).2 = l := by
  unfold call at h ⊢
  cases hedit : c.edit root (l.entries root) with
  | error e' => rfl
  | ok entry =>
    rw [hedit] at h
    cases (validate_edit hedit hc).symm.trans h

theorem l2Valid_markL3Loss (root key : Sha256Digest) :
    ((l.markL3Loss root).2.entries key).map (·.l2Valid) = (l.entries key).map (·.l2Valid) := by
  have hstep : (l.markL3Loss root).2.entries key = _ := entries_step
  rw [hstep]
  split_ifs with hkey
  · subst hkey
    cases l.entries key with
    | none => rfl
    | some old => cases hvalid : old.l2Valid <;> simp [Call.edit, hvalid, Except.toOption]
  · rfl

structure Evicted (l : LayerValidityLedger) (root : Sha256Digest) (entry : LayerValidityEntry) : Prop where
  found : l.entries root = some entry
  l1 : entry.l1Valid = false
  l2 : entry.l2Valid = false
  settled : entry.l2NeedsRefetch = false

theorem evicted_of_tombstone (hc : l.Fits (.tombstone, root)) (h : (l.tombstone root).1 = .ok ()) :
    ∃ entry, (l.tombstone root).2.Evicted root entry := by
  have hstep : (l.tombstone root).2.entries root = _ := entries_step
  rw [if_pos rfl] at hstep
  cases hslot : l.entries root with
  | none => simp [tombstone, call, Call.edit, hslot] at h
  | some old =>
    rw [hslot] at hstep
    exact ⟨_, hstep, rfl, rfl, hc rfl old hslot⟩

theorem Evicted.step (h : l.Evicted root entry) (hc : (c, key) ≠ (.publishL2, root)) :
    (l.step (c, key)).Evicted root entry := by
  refine ⟨?_, h.l1, h.l2, h.settled⟩
  rw [entries_step]
  split_ifs with hroot
  · subst hroot
    obtain ⟨hfound, h1, h2, hsettled⟩ := h
    obtain ⟨objectRoot, l1, l2, l3, needs⟩ := entry
    cases h1
    cases h2
    cases hsettled
    rw [hfound]
    cases c with
    | publishL2 => exact absurd rfl hc
    | _ => rfl
  · exact h.found

theorem Evicted.run (h : l.Evicted root entry) {calls : List (Call × Sha256Digest)}
    (hcalls : (.publishL2, root) ∉ calls) : (calls.foldl LayerValidityLedger.step l).Evicted root entry := by
  induction calls generalizing l with
  | nil => exact h
  | cons c calls ih =>
    obtain ⟨hhead, htail⟩ := not_or.mp (mt List.mem_cons.mpr hcalls)
    exact ih (h.step (Ne.symm hhead)) htail

/-- In a run whose tombstones never hit an entry that waits for its refetch, every entry passes its check, a refused
call changes nothing, the loss of the L3 copy keeps what L2 holds, and an evicted entry stays as it is until it is
published again. -/
theorem layers_kept {calls : List (Call × Sha256Digest)} (h : Guarded.Along step Fits new calls) :
    let l := calls.foldl step new
    (∀ root, ∀ entry ∈ l.entries root, entry.validate = .ok ()) ∧
      (∀ c root e, l.Fits (c, root) → (l.call c root).1 = .error e → (l.call c root).2 = l) ∧
      (∀ root key, ((l.markL3Loss root).2.entries key).map (·.l2Valid) = (l.entries key).map (·.l2Valid)) ∧
      ∀ root, l.Fits (.tombstone, root) → (l.tombstone root).1 = .ok () →
        ∃ entry : LayerValidityEntry, entry.l1Valid = false ∧ entry.l2Valid = false ∧
          ∀ more : List (Call × Sha256Digest), (.publishL2, root) ∉ more →
            (more.foldl step (l.tombstone root).2).entries root = some entry := by
  intro l
  refine ⟨?_, fun c root e hc hcall => call_refused hc hcall, l2Valid_markL3Loss, fun root hc hok => ?_⟩
  · exact h.invariant (fun l c hl hc => Sound.step hl hc) (nofun : new.Sound)
  · obtain ⟨entry, hevicted⟩ := evicted_of_tombstone hc hok
    exact ⟨entry, hevicted.l1, hevicted.l2, fun more hmore => (hevicted.run hmore).found⟩

theorem layers_kept_refetched :
    let l := [(.publishL2, 1), (.markL3Loss, 1), (.completeRefetch, 1)].foldl step new
    ((l.tombstone 1).2.entries 1).map (·.validate) = some (.ok ()) := by
  have h : Guarded.Along step Fits new [(.publishL2, 1), (.markL3Loss, 1), (.completeRefetch, 1), (.tombstone, 1)] :=
    ⟨nofun, nofun, nofun, fun _ entry hentry => by cases hentry; rfl, trivial⟩
  exact congrArg some ((layers_kept h).1 1 _ rfl)

/-- The tombstone of an entry that has lost its L3 copy is refused, but the entry is no longer L2-valid and fails its
own check; the refetch then puts its L3 copy back. -/
theorem tombstone_refused_applied :
    let l := [(.publishL2, 1), (.markL3Loss, 1)].foldl step new
    (l.tombstone 1).1 ≠ .ok () ∧ (l.entries 1).map (·.l2Valid) = some true ∧
      ((l.tombstone 1).2.entries 1).map (·.l2Valid) = some false ∧
      ((l.tombstone 1).2.entries 1).map (·.validate) ≠ some (.ok ()) ∧
      ((l.tombstone 1).2.completeRefetch 1).1 = .ok () := by
  decide

end LayerValidityLedger
end Zero.Residency
