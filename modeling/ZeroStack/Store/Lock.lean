import Mathlib.Data.Fintype.Basic
import ZeroStack.Program.Sections

/-! The store coordination lock, and calls that read and write a file while they hold it. A call may
first take a mutex of its process. Both are released when it returns. -/

open Durable Function

namespace Zero

inductive LockMode where
  | shared
  | exclusive
  deriving DecidableEq

def LockMode.admits (held : List LockMode) : LockMode → Bool
  | .shared => held.all (· = .shared)
  | .exclusive => held.isEmpty

namespace Locking
variable {ι ε P V Out : Type}

/-- The calls: whether one gets as far as its locks, the process whose mutex it takes, if it takes one, the mode of
its guard, and when the deadline of an acquisition has passed. -/
structure Discipline (ι ε P : Type) where
  admitted : ι → Bool
  process : ι → Option P
  mode : LockMode
  expired : ε → Bool

inductive Phase (V Out : Type) where
  | start
  | locked
  | guarded
  | holding (seen : V)
  | refused
  | returned (out : Out)
  deriving DecidableEq

def Phase.hasRead : Phase V Out → Bool
  | .holding _ => true
  | _ => false

structure World (ι P V Out : Type) where
  value : V
  mutex : P → Option ι
  guards : List (ι × LockMode)
  phase : ι → Phase V Out

def World.initial (v : V) : World ι P V Out := ⟨v, fun _ => none, [], fun _ => .start⟩

def World.result (w : World ι P V Out) (i : ι) : Option Out :=
  match w.phase i with
  | .returned out => some out
  | _ => none

def Phase.stage : Phase V Out → Stage V Out
  | .holding seen => .holding seen
  | .returned out => .done out
  | _ => .waiting

def World.sections (w : World ι P V Out) : Shared ι V Out := ⟨w.value, fun i => (w.phase i).stage⟩

theorem World.result_sections (w : World ι P V Out) : w.sections.result = w.result := by
  funext i
  cases h : w.phase i <;> simp [Shared.result, World.result, World.sections, Phase.stage, h]

theorem Phase.eq_holding {p : Phase V Out} {v : V} (h : p.stage = .holding v) : p = .holding v := by
  cases p <;> cases h
  rfl

theorem current_initial (v : V) : (World.initial v : World ι P V Out).sections.Current := by
  constructor
  · intro i v h
    cases h
  · intro i j v w h
    cases h

variable [DecidableEq ι]

theorem stage_update (f : ι → Phase V Out) (i : ι) (p : Phase V Out) :
    (fun j => (update f i p j).stage) = update (fun j => (f j).stage) i p.stage := by
  funext j
  by_cases hj : j = i
  · subst hj
    simp
  · simp [update_of_ne hj]

theorem sections_eq {w w' : World ι P V Out} {i : ι} {p : Phase V Out} (hvalue : w'.value = w.value)
    (hphase : w'.phase = update w.phase i p) (h : (w.phase i).stage = p.stage) : w'.sections = w.sections := by
  have hstage : update (fun j => (w.phase j).stage) i p.stage = fun j => (w.phase j).stage := by
    rw [← h, update_eq_self]
  rw [World.sections, World.sections, hvalue, hphase, stage_update, hstage]

variable [DecidableEq P]

namespace World

def setPhase (i : ι) (phase : Phase V Out) (w : World ι P V Out) : World ι P V Out :=
  { w with phase := update w.phase i phase }

def release (d : Discipline ι ε P) (i : ι) (w : World ι P V Out) : World ι P V Out :=
  { w with
    guards := w.guards.filter (·.1 ≠ i)
    mutex := fun p => if d.process i = some p then none else w.mutex p }

end World

def step (d : Discipline ι ε P) (S : Sections ι ε V Out) (i : ι) (e : ε) (w : World ι P V Out) : World ι P V Out :=
  match w.phase i with
  | .start =>
    if !d.admitted i then w.setPhase i .refused
    else match d.process i with
      | none => w.setPhase i .locked
      | some p => if (w.mutex p).isSome then w
        else { w with mutex := update w.mutex p (some i) }.setPhase i .locked
  | .locked =>
    if d.mode.admits (w.guards.map (·.2)) then { w with guards := (i, d.mode) :: w.guards }.setPhase i .guarded
    else if d.expired e then (w.release d i).setPhase i .refused
    else w
  | .guarded => w.setPhase i (.holding w.value)
  | .holding seen =>
    ({ w with value := (S.finish i e seen w.value).2 }.release d i).setPhase i (.returned (S.finish i e seen w.value).1)
  | .refused => w
  | .returned _ => w

def run (d : Discipline ι ε P) (S : Sections ι ε V Out) : List (ι × ε) → World ι P V Out → World ι P V Out
  | [], w => w
  | (i, e) :: schedule, w => run d S schedule (step d S i e w)

/-- No call reads while another is between its read and its return. -/
def Apart (d : Discipline ι ε P) (S : Sections ι ε V Out) : List (ι × ε) → World ι P V Out → Prop
  | [], _ => True
  | (i, e) :: schedule, w =>
    (w.phase i = .guarded → ∀ j, (w.phase j).hasRead = false) ∧ Apart d S schedule (step d S i e w)

instance decidableApart [Fintype ι] [DecidableEq V] [DecidableEq Out] (d : Discipline ι ε P)
    (S : Sections ι ε V Out) : ∀ (schedule : List (ι × ε)) (w : World ι P V Out), Decidable (Apart d S schedule w)
  | [], _ => inferInstanceAs (Decidable True)
  | (i, e) :: schedule, w =>
    have := decidableApart d S schedule (step d S i e w)
    inferInstanceAs (Decidable (_ ∧ _))

variable {d : Discipline ι ε P} {S : Sections ι ε V Out} {w : World ι P V Out}

theorem run_append (s t : List (ι × ε)) : run d S (s ++ t) w = run d S t (run d S s w) := by
  induction s generalizing w with
  | nil => rfl
  | cons a s ih => exact ih

theorem apart_append {s t : List (ι × ε)} : Apart d S (s ++ t) w ↔ Apart d S s w ∧ Apart d S t (run d S s w) := by
  induction s generalizing w with
  | nil => simp [Apart, run]
  | cons a s ih => rw [List.cons_append, Apart, Apart, run, ih, and_assoc]

theorem step_sections (d : Discipline ι ε P) (S : Sections ι ε V Out) (i : ι) (e : ε) (w : World ι P V Out) :
    (step d S i e w).sections = w.sections ∨
      ((w.sections.stage i = .waiting → w.phase i = .guarded) ∧ (step d S i e w).sections = S.step i e w.sections) := by
  have hstage : w.sections.stage i = (w.phase i).stage := rfl
  unfold step
  cases hphase : w.phase i with
  | start =>
    left
    dsimp only
    split_ifs
    · exact sections_eq rfl rfl (by rw [hphase]; rfl)
    · cases d.process i with
      | none => exact sections_eq rfl rfl (by rw [hphase]; rfl)
      | some p =>
        dsimp only
        split_ifs
        · rfl
        · exact sections_eq rfl rfl (by rw [hphase]; rfl)
  | locked =>
    left
    dsimp only
    split_ifs
    · exact sections_eq rfl rfl (by rw [hphase]; rfl)
    · exact sections_eq rfl rfl (by rw [hphase]; rfl)
    · rfl
  | guarded =>
    right
    refine ⟨fun _ => rfl, ?_⟩
    rw [hphase] at hstage
    rw [Sections.step, hstage]
    simp only [World.sections, World.setPhase, stage_update]
    rfl
  | holding seen =>
    right
    rw [hphase] at hstage
    refine ⟨fun h => ?_, ?_⟩
    · rw [hstage] at h
      cases h
    · rw [Sections.step, hstage]
      simp only [World.sections, World.setPhase, stage_update]
      rfl
  | refused | returned out =>
    left
    rfl

theorem run_invariant {J : V → (ι → Option Out) → Prop} (hJ : ∀ i e v r, r i = none → J v r →
      J (S.finish i e v v).2 (update r i (some (S.finish i e v v).1)))
    {schedule : List (ι × ε)} (hcurrent : w.sections.Current) (h : J w.value w.result) (hapart : Apart d S schedule w) :
    (run d S schedule w).sections.Current ∧ J (run d S schedule w).value (run d S schedule w).result := by
  have hvalue : ∀ w : World ι P V Out, w.value = w.sections.value := fun _ => rfl
  simp only [hvalue, ← World.result_sections] at h ⊢
  induction schedule generalizing w with
  | nil => exact ⟨hcurrent, h⟩
  | cons a schedule ih =>
    obtain ⟨i, e⟩ := a
    obtain ⟨hread, hrest⟩ := hapart
    rcases step_sections d S i e w with hsame | ⟨hwaiting, hmove⟩
    · rw [← hsame] at hcurrent h
      exact ih hcurrent hrest h
    · have halone : w.sections.stage i = .waiting → w.sections.Alone i := by
        intro hstage j v hj
        have hnone := hread (hwaiting hstage) j
        rw [Phase.eq_holding hj] at hnone
        cases hnone
      have hstep := Sections.step_invariant (e := e) hJ hcurrent h halone
      rw [← hmove] at hstep
      exact ih hstep.1 hrest hstep.2

def Phase.inside : Phase V Out → Bool
  | .guarded | .holding _ => true
  | _ => false

def Phase.entered : Phase V Out → Bool
  | .locked => true
  | p => p.inside

theorem Phase.entered_of_inside {p : Phase V Out} (h : p.inside = true) : p.entered = true := by
  cases p with
  | locked => rfl
  | start | guarded | holding seen | refused | returned out => exact h

section Owned
variable {inside : Phase V Out → Bool} {owner : World ι P V Out → Option ι}

def Owned (inside : Phase V Out → Bool) (owner : World ι P V Out → Option ι) (w : World ι P V Out) : Prop :=
  ∀ i, inside (w.phase i) = true → owner w = some i

omit [DecidableEq ι] [DecidableEq P] in
theorem owned_initial (hstart : inside .start = false) (v : V) : Owned inside owner (World.initial v) := by
  intro i hi
  exact absurd hstart (by simpa [World.initial] using hi)

omit [DecidableEq P] in
theorem Owned.move {w' : World ι P V Out} {i : ι} {p : Phase V Out} (h : Owned inside owner w)
    (hphase : w'.phase = update w.phase i p) (hself : inside p = true → owner w' = some i)
    (hothers : ∀ j ≠ i, owner w = some j → owner w' = some j) : Owned inside owner w' := by
  intro j hj
  rw [hphase] at hj
  by_cases hji : j = i
  · subst hji
    rw [update_self] at hj
    exact hself hj
  · rw [update_of_ne hji] at hj
    exact hothers j hji (h j hj)

theorem apart_of_owned (hinside : ∀ p : Phase V Out, p.inside = true → inside p = true)
    (hstep : ∀ i e {w}, Owned inside owner w → Owned inside owner (step d S i e w)) (h : Owned inside owner w)
    (schedule : List (ι × ε)) : Apart d S schedule w := by
  induction schedule generalizing w with
  | nil => trivial
  | cons a schedule ih =>
    refine ⟨fun hguarded j => ?_, ih (hstep a.1 a.2 h)⟩
    cases hj : w.phase j with
    | holding seen =>
      have hfirst := h a.1 (hinside _ (by rw [hguarded]; rfl))
      have hsecond := h j (hinside _ (by rw [hj]; rfl))
      obtain rfl : a.1 = j := Option.some.inj (hfirst.symm.trans hsecond)
      rw [hguarded] at hj
      cases hj
    | start | locked | guarded | refused | returned out => rfl

end Owned

theorem owned_mutex {p : P} (hprocess : ∀ i, d.process i = some p) (i : ι) (e : ε)
    (h : Owned Phase.entered (·.mutex p) w) : Owned Phase.entered (·.mutex p) (step d S i e w) := by
  -- The mutex is given back by its owner only.
  have hback : (w.phase i).entered = true → ∀ j ≠ i, w.mutex p = some j → none = some j := by
    intro hi j hji hj
    exact absurd (Option.some.inj (hj.symm.trans (h i hi))) hji
  unfold step
  cases hphase : w.phase i with
  | start =>
    dsimp only
    split_ifs
    · exact h.move rfl nofun fun _ _ => id
    · rw [hprocess i]
      dsimp only
      split_ifs with htaken
      · exact h
      · refine h.move rfl (fun _ => update_self ..) fun j _ hj => ?_
        simp [hj] at htaken
  | locked =>
    rw [hphase] at hback
    dsimp only
    split_ifs
    · exact h.move rfl (fun _ => h i (by rw [hphase]; rfl)) fun _ _ => id
    · refine h.move rfl nofun fun j hji hj => ?_
      simpa [World.setPhase, World.release, hprocess i] using hback rfl j hji hj
    · exact h
  | guarded => exact h.move rfl (fun _ => h i (by rw [hphase]; rfl)) fun _ _ => id
  | holding seen =>
    rw [hphase] at hback
    refine h.move rfl nofun fun j hji hj => ?_
    simpa [World.setPhase, World.release, hprocess i] using hback rfl j hji hj
  | refused | returned out => exact h

theorem owned_guard (hmode : d.mode = .exclusive) (i : ι) (e : ε)
    (h : Owned Phase.inside (·.guards.head?.map Prod.fst) w) :
    Owned Phase.inside (·.guards.head?.map Prod.fst) (step d S i e w) := by
  have hkept : ∀ j ≠ i, w.guards.head?.map Prod.fst = some j →
      (w.guards.filter (·.1 ≠ i)).head?.map Prod.fst = some j := by
    intro j hji hj
    cases hguards : w.guards with
    | nil => simp [hguards] at hj
    | cons guard rest =>
      rw [hguards] at hj
      obtain rfl : guard.1 = j := Option.some.inj hj
      rw [List.filter_cons_of_pos (by simpa using hji)]
      rfl
  unfold step
  cases hphase : w.phase i with
  | start =>
    dsimp only
    split_ifs
    · exact h.move rfl nofun fun _ _ => id
    · cases d.process i with
      | none => exact h.move rfl nofun fun _ _ => id
      | some p =>
        dsimp only
        split_ifs
        · exact h
        · exact h.move rfl nofun fun _ _ => id
  | locked =>
    dsimp only
    split_ifs with hadmits
    · have hfree : w.guards = [] := by simpa [hmode, LockMode.admits] using hadmits
      refine h.move rfl (fun _ => rfl) fun j _ hj => ?_
      rw [hfree] at hj
      cases hj
    · exact h.move rfl nofun hkept
    · exact h
  | guarded => exact h.move rfl (fun _ => h i (by rw [hphase]; rfl)) fun _ _ => id
  | holding seen => exact h.move rfl nofun hkept
  | refused | returned out => exact h

theorem apart_of_process {p : P} (hprocess : ∀ i, d.process i = some p) (v : V) (schedule : List (ι × ε)) :
    Apart d S schedule (World.initial v) :=
  apart_of_owned (fun _ => Phase.entered_of_inside) (fun i e _ => owned_mutex hprocess i e) (owned_initial rfl v)
    schedule

theorem apart_of_exclusive (hmode : d.mode = .exclusive) (v : V) (schedule : List (ι × ε)) :
    Apart d S schedule (World.initial v) :=
  apart_of_owned (fun _ => id) (fun i e _ => owned_guard hmode i e) (owned_initial rfl v) schedule

end Locking
end Zero
