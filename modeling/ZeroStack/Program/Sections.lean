import Mathlib.Data.Nat.Notation
import Mathlib.Logic.Function.Basic

/-! Parties that each read a shared value and later write it, with steps of others in between. -/

open Function

namespace Durable

inductive Stage (V Out : Type) where
  | waiting
  | holding (seen : V)
  | done (out : Out)

structure Shared (ι V Out : Type) where
  value : V
  stage : ι → Stage V Out

/-- `finish i e seen current` is the answer of party `i` and the value it leaves, where it has read `seen` and
the value is now `current`. -/
structure Sections (ι ε V Out : Type) where
  finish : ι → ε → V → V → Out × V

namespace Shared
variable {ι V Out : Type}

def result (c : Shared ι V Out) (i : ι) : Option Out :=
  match c.stage i with
  | .done out => some out
  | _ => none

structure Current (c : Shared ι V Out) : Prop where
  fresh : ∀ i v, c.stage i = .holding v → v = c.value
  single : ∀ i j v w, c.stage i = .holding v → c.stage j = .holding w → i = j

def Alone (c : Shared ι V Out) (i : ι) : Prop := ∀ j v, c.stage j = .holding v → j = i

variable [DecidableEq ι]

def read (i : ι) (c : Shared ι V Out) : Shared ι V Out :=
  { c with stage := update c.stage i (.holding c.value) }

def close (i : ι) (out : Out) (v : V) (c : Shared ι V Out) : Shared ι V Out :=
  ⟨v, update c.stage i (.done out)⟩

variable {c : Shared ι V Out} {i : ι}

@[simp] theorem read_stage : (c.read i).stage = update c.stage i (.holding c.value) := rfl

@[simp] theorem close_stage {out : Out} {v : V} : (c.close i out v).stage = update c.stage i (.done out) := rfl

theorem Alone.read (halone : c.Alone i) : (c.read i).Current := by
  have honly : ∀ j v, (c.read i).stage j = .holding v → j = i := by
    intro j v hj
    by_contra hji
    rw [read_stage, update_of_ne hji] at hj
    exact hji (halone j v hj)
  constructor
  · intro j v hj
    obtain rfl := honly j v hj
    rw [read_stage, update_self] at hj
    cases hj
    rfl
  · intro j k v w hj hk
    rw [honly j v hj, honly k w hk]

theorem result_read (h : c.stage i = .waiting) : (c.read i).result = c.result := by
  funext j
  by_cases hj : j = i
  · subst hj
    simp [result, h]
  · simp [result, update_of_ne hj]

theorem Current.close {seen v : V} {out : Out} (h : c.Current) (hstage : c.stage i = .holding seen) :
    (c.close i out v).Current := by
  have hnone : ∀ j w, (c.close i out v).stage j ≠ .holding w := by
    intro j w hj
    by_cases hji : j = i
    · subst hji
      rw [close_stage, update_self] at hj
      cases hj
    · rw [close_stage, update_of_ne hji] at hj
      exact hji (h.single j i w seen hj hstage)
  exact ⟨fun j w hj => absurd hj (hnone j w), fun j k w x hj _ => absurd hj (hnone j w)⟩

theorem result_close (v : V) (out : Out) : (c.close i out v).result = update c.result i (some out) := by
  funext j
  by_cases hj : j = i
  · subst hj
    simp [result]
  · simp [result, update_of_ne hj]

end Shared

namespace Sections
variable {ι ε V Out : Type} [DecidableEq ι] (S : Sections ι ε V Out)

def step (i : ι) (e : ε) (c : Shared ι V Out) : Shared ι V Out :=
  match c.stage i with
  | .waiting => c.read i
  | .holding seen => c.close i (S.finish i e seen c.value).1 (S.finish i e seen c.value).2
  | .done _ => c

variable {S}

theorem step_invariant {J : V → (ι → Option Out) → Prop} (hJ : ∀ i e v r, r i = none → J v r →
      J (S.finish i e v v).2 (update r i (some (S.finish i e v v).1)))
    {c : Shared ι V Out} (hcurrent : c.Current) (h : J c.value c.result) {i : ι} {e : ε}
    (halone : c.stage i = .waiting → c.Alone i) :
    (S.step i e c).Current ∧ J (S.step i e c).value (S.step i e c).result := by
  unfold step
  cases hstage : c.stage i with
  | waiting =>
    refine ⟨(halone hstage).read, ?_⟩
    rw [Shared.result_read hstage]
    exact h
  | holding seen =>
    have hseen : seen = c.value := hcurrent.fresh i seen hstage
    have hnone : c.result i = none := by simp [Shared.result, hstage]
    refine ⟨hcurrent.close hstage, ?_⟩
    rw [Shared.result_close, hseen]
    exact hJ i e c.value c.result hnone h
  | done out => exact ⟨hcurrent, h⟩

end Sections
end Durable
