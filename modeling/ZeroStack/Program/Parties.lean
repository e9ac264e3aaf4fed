import Mathlib.Data.Nat.Notation
import Mathlib.Logic.Function.Basic

/-! Any number of parties, each in a phase of its own, over one shared state. A turn is a step of one party, or of the
background, which has no phase. -/

namespace Durable

structure Configuration (ι φ σ : Type) where
  shared : σ
  phase : ι → φ

inductive Turn (ι ε δ : Type) where
  | party (i : ι) (e : ε)
  | background (d : δ)

structure Parties (ι φ σ ε δ : Type) where
  act : ι → ε → φ → σ → φ × σ
  background : δ → σ → σ

namespace Parties
variable {ι φ σ ε δ : Type} [DecidableEq ι] (P : Parties ι φ σ ε δ)

def step : Turn ι ε δ → Configuration ι φ σ → Configuration ι φ σ
  | .party i e, c =>
    ⟨(P.act i e (c.phase i) c.shared).2, Function.update c.phase i (P.act i e (c.phase i) c.shared).1⟩
  | .background d, c => { c with shared := P.background d c.shared }

def run : List (Turn ι ε δ) → Configuration ι φ σ → Configuration ι φ σ
  | [], c => c
  | t :: turns, c => run turns (P.step t c)

def Meets (D : Turn ι ε δ → Configuration ι φ σ → Prop) : List (Turn ι ε δ) → Configuration ι φ σ → Prop
  | [], _ => True
  | t :: turns, c => D t c ∧ Meets D turns (P.step t c)

instance decidableMeets (D : Turn ι ε δ → Configuration ι φ σ → Prop) [∀ t c, Decidable (D t c)] :
    ∀ turns c, Decidable (P.Meets D turns c)
  | [], _ => isTrue trivial
  | t :: turns, c =>
    have := decidableMeets D turns (P.step t c)
    inferInstanceAs (Decidable (D t c ∧ P.Meets D turns (P.step t c)))

variable {P} {D : Turn ι ε δ → Configuration ι φ σ → Prop} {J : Configuration ι φ σ → Prop}
variable {I : σ → Prop} {A : ι → φ → σ → Prop} {c : Configuration ι φ σ}

theorem meets_free (turns : List (Turn ι ε δ)) : P.Meets (fun _ _ => True) turns c := by
  induction turns generalizing c with
  | nil => trivial
  | cons t turns ih => exact ⟨trivial, ih⟩

theorem run_invariant (hstep : ∀ t c, D t c → J c → J (P.step t c)) {turns : List (Turn ι ε δ)} (h : J c)
    (hmeets : P.Meets D turns c) : J (P.run turns c) := by
  induction turns generalizing c with
  | nil => exact h
  | cons t turns ih => exact ih (hstep t c hmeets.1 h) hmeets.2

structure Asserted (I : σ → Prop) (A : ι → φ → σ → Prop) (c : Configuration ι φ σ) : Prop where
  shared : I c.shared
  phase : ∀ i, A i (c.phase i) c.shared

theorem Asserted.party {i : ι} {e : ε} (hshared : I (P.act i e (c.phase i) c.shared).2)
    (hown : A i (P.act i e (c.phase i) c.shared).1 (P.act i e (c.phase i) c.shared).2)
    (hothers : ∀ k, k ≠ i → A k (c.phase k) (P.act i e (c.phase i) c.shared).2) :
    Asserted I A (P.step (.party i e) c) := by
  refine ⟨hshared, fun k => ?_⟩
  by_cases hk : k = i
  · subst hk
    simpa [step] using hown
  · simpa [step, Function.update_of_ne hk] using hothers k hk

end Parties
end Durable
