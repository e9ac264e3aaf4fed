import Mathlib.Data.List.Nodup
import ZeroStack.Guarded.Runs

/-! Edit intents: a row is written before a file is replaced, and recovery goes by the rows to finish or undo the edits
that a crash has cut off. -/

open Function List

namespace FsZero.Intents

abbrev Bytes := List UInt8

inductive IntentState where
  | prepared
  | evidenceReady
  | indeterminate
  deriving DecidableEq

/-- A row of `edit_intents`. Two fields are not in the table: what the file was before the edit, and whether the
evidence of the edit has been recorded. -/
structure EditIntent (P : Type) where
  path : P
  state : IntentState
  pre : Bytes
  post : Bytes
  before : Option Bytes
  recorded : Bool

structure Store (P : Type) where
  files : P → Option Bytes
  intents : List (EditIntent P)

inductive Fault where
  | checks
  | write
  | after
  deriving DecidableEq

variable {P : Type}

section Edits
variable [DecidableEq P] (path : P) (after : Option Bytes) (s : Store P)

-- an empty preimage also stands for a file that is absent, an empty postimage for its removal
def createEditIntent : Store P :=
  { s with intents := s.intents ++ [⟨path, .prepared, (s.files path).getD [], after.getD [], s.files path, false⟩] }

def replaceFile : Store P := { s with files := update s.files path after }

def setEditIntentRefs : Store P :=
  { s with intents := s.intents.map fun i =>
      if i.path = path then { i with state := .evidenceReady, recorded := true } else i }

def clearEditIntent : Store P := { s with intents := s.intents.filter (·.path ≠ path) }

def edit (steps : ℕ) : Store P :=
  ([createEditIntent path after, replaceFile path after, setEditIntentRefs path, clearEditIntent path].take steps).foldl
    (fun s step => step s) s

end Edits

def action (fault : Option Fault) (i : EditIntent P) (current : Option Bytes) : Option Bytes × Bool :=
  if fault = some .checks then (current, false)
  else if i.state = .evidenceReady then (current, current = some i.post ∧ fault ≠ some .after)
  else if current = some i.pre then (current, fault ≠ some .after)
  else if current = some i.post ∨ i.post = [] ∧ current = none then
    if fault = some .write then (current, false) else (some i.pre, fault ≠ some .after)
  else (current, false)

def EditIntent.failed (i : EditIntent P) : EditIntent P := { i with state := .indeterminate }

section Reconcile
variable [DecidableEq P]

/-- The loop over the rows, which ends at the first row that fails: the rows and files after it, and whether none did.
-/
def reconcileRows (faults : P → Option Fault) : List (EditIntent P) → (P → Option Bytes) → Store P × Bool
  | [], files => (⟨files, []⟩, true)
  | i :: rest, files =>
    let (content, deleted) := action (faults i.path) i (files i.path)
    let files := update files i.path content
    if deleted then reconcileRows faults rest files
    else (⟨files, i.failed :: rest⟩, false)

/-- All rows change in one transaction: a process that dies leaves them as they were, but not the files it has
restored. -/
def reconcileEditIntents (faults : P → Option Fault) (stop : Option ℕ) (s : Store P) : Store P × Bool :=
  match stop with
  | none => reconcileRows faults s.intents s.files
  | some rows => (⟨(reconcileRows faults (s.intents.take rows) s.files).1.files, s.intents⟩, false)

inductive Command (P : Type) where
  | edit (path : P) (after : Option Bytes) (steps : ℕ)
  | reconcile (faults : P → Option Fault) (stop : Option ℕ)

def step (s : Store P) : Command P → Store P
  | .edit path after steps => edit path after s steps
  | .reconcile faults stop => (reconcileEditIntents faults stop s).1

/-- One intent for a path at a time. An edit cut off before its evidence is recorded is of a file that exists, one cut
off afterwards is no removal, and recovery does not fail on an intent whose evidence is recorded. -/
def Fits (s : Store P) : Command P → Prop
  | .edit path after steps => (∀ i ∈ s.intents, i.path ≠ path) ∧
      (steps = 1 ∨ steps = 2 → s.files path ≠ none) ∧ (steps = 3 → after ≠ none)
  | .reconcile faults _ => ∀ i ∈ s.intents, i.recorded = true → faults i.path = none

instance (s : Store P) : ∀ command, Decidable (Fits s command)
  | .edit .. => inferInstanceAs (Decidable (_ ∧ _ ∧ _))
  | .reconcile .. => inferInstanceAs (Decidable (∀ i ∈ s.intents, _ → _))

end Reconcile

def EditIntent.settled (i : EditIntent P) : Option Bytes := if i.recorded then some i.post else i.before

structure EditIntent.Sound (i : EditIntent P) (current : Option Bytes) : Prop where
  recorded : i.recorded = true → i.state = .evidenceReady ∧ current = some i.post
  unrecorded : i.recorded = false → i.state ≠ .evidenceReady ∧ i.before = some i.pre ∧
    (current = some i.pre ∨ current = some i.post ∨ i.post = [] ∧ current = none)

section Rows
variable {i : EditIntent P} {current content : Option Bytes} {fault : Option Fault} {deleted : Bool}

theorem EditIntent.Sound.failed (h : i.Sound current) (hrecorded : i.recorded = false) : i.failed.Sound current where
  recorded htrue := absurd (hrecorded.symm.trans htrue) Bool.false_ne_true
  unrecorded _ := ⟨nofun, (h.unrecorded hrecorded).2⟩

theorem sound_action (h : i.Sound current) (hfault : i.recorded = true → fault = none)
    (haction : action fault i current = (content, deleted)) :
    i.Sound content ∧ (deleted = true → content = i.settled) ∧ (deleted = false → i.recorded = false) := by
  cases hrecorded : i.recorded with
  | true =>
    obtain ⟨hstate, hcurrent⟩ := h.recorded hrecorded
    have hdone : action fault i current = (some i.post, true) := by
      simp [action, hfault hrecorded, hstate, hcurrent]
    obtain ⟨rfl, rfl⟩ := Prod.mk.inj (hdone.symm.trans haction)
    exact ⟨hcurrent ▸ h, fun _ => (if_pos hrecorded).symm, nofun⟩
  | false =>
    obtain ⟨hstate, hbefore, hcurrent⟩ := h.unrecorded hrecorded
    have hsettled : some i.pre = i.settled := by rw [EditIntent.settled, hrecorded, hbefore]; rfl
    have hrestored : i.Sound (some i.pre) :=
      ⟨fun htrue => absurd (hrecorded.symm.trans htrue) Bool.false_ne_true, fun _ => ⟨hstate, hbefore, .inl rfl⟩⟩
    unfold action at haction
    split_ifs at haction with hchecks hpre hpost hwrite <;> obtain ⟨rfl, rfl⟩ := Prod.mk.inj haction
    · exact ⟨h, nofun, fun _ => rfl⟩
    · exact ⟨h, fun _ => hpre.trans hsettled, fun _ => rfl⟩
    · exact ⟨h, nofun, fun _ => rfl⟩
    · exact ⟨hrestored, fun _ => hsettled, fun _ => rfl⟩
    · exact ⟨h, nofun, fun _ => rfl⟩

end Rows

structure Consistent (rows : List (EditIntent P)) (files : P → Option Bytes) : Prop where
  paths : (rows.map EditIntent.path).Nodup
  sound : ∀ i ∈ rows, i.Sound (files i.path)

section Loop
variable [DecidableEq P] {faults : P → Option Fault} {rows : List (EditIntent P)} {files : P → Option Bytes}

structure Recovered (rows : List (EditIntent P)) (files : P → Option Bytes) (result : Store P × Bool) : Prop where
  other : ∀ path, (∀ i ∈ rows, i.path ≠ path) → result.1.files path = files path
  consistent : Consistent result.1.intents result.1.files
  sound : ∀ i ∈ rows, i.Sound (result.1.files i.path)
  settled : ∀ i ∈ rows, (∀ j ∈ result.1.intents, j.path ≠ i.path) → result.1.files i.path = i.settled
  done : result.2 = true → result.1.intents = []

theorem Consistent.recovered (h : Consistent rows files)
    (hfaults : ∀ i ∈ rows, i.recorded = true → faults i.path = none) :
    Recovered rows files (reconcileRows faults rows files) := by
  induction rows generalizing files with
  | nil => exact ⟨fun _ _ => rfl, h, nofun, nofun, fun _ => rfl⟩
  | cons i rest ih =>
    obtain ⟨hfresh, hnodup⟩ := nodup_cons.mp h.paths
    obtain ⟨hi, hrest⟩ := forall_mem_cons.mp h.sound
    obtain ⟨hfault, hfaults⟩ := forall_mem_cons.mp hfaults
    have hne : ∀ j ∈ rest, j.path ≠ i.path := fun j hj heq => hfresh (heq ▸ mem_map_of_mem hj)
    rcases haction : action (faults i.path) i (files i.path) with ⟨content, deleted⟩
    obtain ⟨hcontent, hsettled, hfailed⟩ := sound_action hi hfault haction
    have hafter : ∀ j ∈ rest, j.Sound (update files i.path content j.path) := by
      intro j hj
      rw [update_of_ne (hne j hj)]
      exact hrest j hj
    have hother path (hpath : ∀ j ∈ i :: rest, j.path ≠ path) : update files i.path content path = files path :=
      update_of_ne (hpath i (mem_cons_self ..)).symm content files
    simp only [reconcileRows, haction]
    cases deleted with
    | true =>
      have hr := ih ⟨hnodup, hafter⟩ hfaults
      have hat : (reconcileRows faults rest (update files i.path content)).1.files i.path = content := by
        rw [hr.other i.path hne, update_self]
      refine ⟨fun path hpath => ?_, hr.consistent, ?_, ?_, hr.done⟩
      · exact (hr.other path (forall_mem_cons.mp hpath).2).trans (hother path hpath)
      · exact forall_mem_cons.mpr ⟨hat.symm ▸ hcontent, hr.sound⟩
      · exact forall_mem_cons.mpr ⟨fun _ => hat.trans (hsettled rfl), hr.settled⟩
    | false =>
      have hat : i.Sound (update files i.path content i.path) := by
        rw [update_self]
        exact hcontent
      refine ⟨hother, ⟨h.paths, forall_mem_cons.mpr ⟨hat.failed (hfailed rfl), hafter⟩⟩,
        forall_mem_cons.mpr ⟨hat, hafter⟩, forall_mem_cons.mpr ⟨fun hgone => ?_, fun j hj hgone => ?_⟩, nofun⟩
      · exact absurd rfl (hgone i.failed (mem_cons_self ..))
      · exact absurd rfl (hgone j (mem_cons_of_mem _ hj))

end Loop

section Runs
variable [DecidableEq P] {s : Store P}

def Store.Consistent (s : Store P) : Prop := Intents.Consistent s.intents s.files

omit [DecidableEq P] in
theorem Consistent.append {rows : List (EditIntent P)} {files : P → Option Bytes} {i : EditIntent P}
    (h : Intents.Consistent rows files) (hfresh : ∀ j ∈ rows, j.path ≠ i.path) (hi : i.Sound (files i.path)) :
    Intents.Consistent (rows ++ [i]) files where
  paths := by
    rw [map_append, map_singleton, nodup_append_comm]
    refine nodup_cons.mpr ⟨fun hmem => ?_, h.paths⟩
    obtain ⟨j, hj, heq⟩ := mem_map.mp hmem
    exact hfresh j hj heq
  sound := forall_mem_append.mpr ⟨h.sound, forall_mem_singleton.mpr hi⟩

theorem consistent_edit {path : P} {after : Option Bytes} {steps : ℕ} (h : s.Consistent)
    (hfits : Fits s (.edit path after steps)) : (edit path after s steps).Consistent := by
  obtain ⟨hfresh, hpresent, hremoval⟩ := hfits
  have hreplaced : Intents.Consistent s.intents (update s.files path after) := by
    refine ⟨h.paths, fun i hi => ?_⟩
    rw [update_of_ne (hfresh i hi)]
    exact h.sound i hi
  have hkept : s.intents.map (fun i =>
      if i.path = path then { i with state := .evidenceReady, recorded := true } else i) =
      s.intents := by
    rw [map_congr_left fun i hi => if_neg (hfresh i hi), map_id']
  match steps with
  | 0 => exact h
  | 1 =>
    obtain ⟨pre, hpre⟩ := Option.ne_none_iff_exists'.mp (hpresent (.inl rfl))
    refine h.append hfresh ⟨nofun, fun _ => ⟨nofun, ?_, .inl ?_⟩⟩ <;> simp [hpre]
  | 2 =>
    obtain ⟨pre, hpre⟩ := Option.ne_none_iff_exists'.mp (hpresent (.inr rfl))
    refine hreplaced.append hfresh ⟨nofun, fun _ => ⟨nofun, ?_, .inr ?_⟩⟩
    · simp [hpre]
    · cases after <;> simp
  | 3 =>
    obtain ⟨post, rfl⟩ := Option.ne_none_iff_exists'.mp (hremoval rfl)
    simp only [edit, List.take, List.foldl, setEditIntentRefs, createEditIntent, replaceFile, map_append, hkept,
      map_cons, map_nil]
    refine hreplaced.append hfresh ⟨fun _ => ?_, ?_⟩ <;> simp
  | n + 4 =>
    have hcleared : ∀ i ∈ s.intents, decide (i.path ≠ path) = true := fun i hi => decide_eq_true (hfresh i hi)
    have hedit : edit path after s (n + 4) = ⟨update s.files path after, s.intents⟩ := by
      simp only [edit, List.take, List.foldl, clearEditIntent, setEditIntentRefs, createEditIntent,
        replaceFile, map_append, hkept, filter_append, filter_eq_self.mpr hcleared]
      simp
    rw [hedit]
    exact hreplaced

omit [DecidableEq P] in
theorem Store.Consistent.take (h : s.Consistent) (n : ℕ) : Intents.Consistent (s.intents.take n) s.files :=
  ⟨h.paths.sublist ((take_sublist n _).map _), fun i hi => h.sound i (mem_of_mem_take hi)⟩

theorem consistent_step (s : Store P) (command : Command P) (h : s.Consistent) (hfits : Fits s command) :
    (step s command).Consistent := by
  cases command with
  | edit path after steps => exact consistent_edit h hfits
  | reconcile faults stop =>
    cases stop with
    | none => exact (Intents.Consistent.recovered h hfits).consistent
    | some n =>
      have hr := (h.take n).recovered fun i hi => hfits i (mem_of_mem_take hi)
      refine ⟨h.paths, fun i hi => ?_⟩
      by_cases hi' : i ∈ s.intents.take n
      · exact hr.sound i hi'
      · show i.Sound ((reconcileRows faults (s.intents.take n) s.files).1.files i.path)
        rw [hr.other i.path fun j hj heq => hi' ?_]
        · exact h.sound i hi
        · exact inj_on_of_nodup_map h.paths (mem_of_mem_take hj) hi heq ▸ hj

theorem recovered_reconcile (h : s.Consistent) {faults : P → Option Fault} {stop : Option ℕ}
    (hfits : Fits s (.reconcile faults stop)) : let result := reconcileEditIntents faults stop s
    (∀ i ∈ s.intents, (∀ j ∈ result.1.intents, j.path ≠ i.path) → result.1.files i.path = i.settled) ∧
      (∀ path, (∀ i ∈ s.intents, i.path ≠ path) → result.1.files path = s.files path) ∧
      (result.2 = true → result.1.intents = []) := by
  cases stop with
  | none =>
    have hr := Intents.Consistent.recovered h hfits
    exact ⟨hr.settled, hr.other, hr.done⟩
  | some n =>
    have hr := (h.take n).recovered fun i hi => hfits i (mem_of_mem_take hi)
    refine ⟨fun i hi hgone => absurd rfl (hgone i hi), fun path hpath => ?_, nofun⟩
    exact hr.other path fun i hi => hpath i (mem_of_mem_take hi)

theorem reconcileEditIntents_of_empty (h : s.intents = []) (faults : P → Option Fault) :
    reconcileEditIntents faults none s = (s, true) := by
  obtain ⟨files, rows⟩ := s
  obtain rfl : rows = [] := h
  rfl

end Runs

section Samples

def recovered (content : Option Bytes) (commands : List (Command Unit)) : Option Bytes × Bool :=
  let (s, succeeds) := reconcileEditIntents (fun _ => none) none (commands.foldl step ⟨fun _ => content, []⟩)
  (s.files (), succeeds)

end Samples
end FsZero.Intents
