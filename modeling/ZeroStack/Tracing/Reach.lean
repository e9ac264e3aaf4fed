import Mathlib.Algebra.BigOperators.Group.List.Basic
import Mathlib.Algebra.GroupWithZero.Nat

/-! Marking: folds that only add to a state, and what is reachable where every path has a short cut. -/

namespace Tracing

open List

section Fold
variable {α ε σ : Type*} [Preorder σ]

theorem foldl_establishes {f : σ → α → σ} {Q : α → σ → Prop} (hgrows : ∀ s a, s ≤ f s a) (hputs : ∀ s a, Q a (f s a))
    (hup : ∀ a s t, s ≤ t → Q a s → Q a t) (l : List α) (s : σ) : s ≤ l.foldl f s ∧ ∀ a ∈ l, Q a (l.foldl f s) := by
  induction l generalizing s with
  | nil => exact ⟨le_rfl, fun a ha => nomatch ha⟩
  | cons b l ih =>
    obtain ⟨hle, hall⟩ := ih (f s b)
    refine ⟨le_trans (hgrows s b) hle, fun a ha => ?_⟩
    rcases mem_cons.mp ha with rfl | ha
    · exact hup a _ _ hle (hputs s a)
    · exact hall a ha

theorem foldlM_visits {f : σ → α → Except ε σ} (hgrows : ∀ s a t, f s a = .ok t → s ≤ t) {l : List α} {s t : σ}
    (h : l.foldlM f s = .ok t) : s ≤ t ∧ ∀ a ∈ l, ∃ u v, f u a = .ok v ∧ v ≤ t := by
  induction l generalizing s with
  | nil =>
    cases h
    exact ⟨le_rfl, fun a ha => nomatch ha⟩
  | cons b l ih =>
    rw [foldlM_cons] at h
    cases hb : f s b with
    | error e =>
      rw [hb] at h
      cases h
    | ok m =>
      rw [hb] at h
      obtain ⟨hle, hall⟩ := ih h
      refine ⟨le_trans (hgrows s b m hb) hle, fun a ha => ?_⟩
      rcases mem_cons.mp ha with rfl | ha
      · exact ⟨s, m, hb, hle⟩
      · exact hall a ha

end Fold

section Accepted
variable {α β ε σ : Type*} {f : σ → β → Except ε σ} {s t : σ}

theorem foldlM_form {make : α → β} {P : α → Prop} (hstep : ∀ s b t, f s b = .ok t → ∃ a, b = make a ∧ P a)
    {l : List β} (h : l.foldlM f s = .ok t) : ∃ as : List α, l = as.map make ∧ ∀ a ∈ as, P a := by
  induction l generalizing s with
  | nil => exact ⟨[], rfl, fun a ha => nomatch ha⟩
  | cons b l ih =>
    rw [foldlM_cons] at h
    cases hb : f s b with
    | error e =>
      rw [hb] at h
      cases h
    | ok m =>
      rw [hb] at h
      obtain ⟨a, rfl, ha⟩ := hstep s b m hb
      obtain ⟨as, rfl, has⟩ := ih h
      exact ⟨a :: as, rfl, forall_mem_cons.mpr ⟨ha, has⟩⟩

theorem foldlM_counts (count : σ → ℕ) (size : α → ℕ) {cap : ℕ} {make : α → β} {as : List α}
    (hstep : ∀ a ∈ as, ∀ s t, f s (make a) = .ok t → count t = count s + size a ∧ (count s ≤ cap → count t ≤ cap))
    (h : (as.map make).foldlM f s = .ok t) :
    count t = count s + (as.map size).sum ∧ (count s ≤ cap → count t ≤ cap) := by
  induction as generalizing s with
  | nil =>
    cases h
    exact ⟨rfl, id⟩
  | cons a as ih =>
    rw [map_cons, foldlM_cons] at h
    cases ha : f s (make a) with
    | error e =>
      rw [ha] at h
      cases h
    | ok m =>
      rw [ha] at h
      rw [forall_mem_cons] at hstep
      obtain ⟨hcount, hcap⟩ := hstep.1 s m ha
      obtain ⟨hrest, hcap'⟩ := ih hstep.2 h
      refine ⟨?_, hcap' ∘ hcap⟩
      rw [hrest, hcount, map_cons, sum_cons, Nat.add_assoc]

end Accepted

section Reach
variable {α : Type*}

def Reachable (seed : α → Prop) (edge : α → α → Prop) (a : α) : Prop :=
  ∃ s, seed s ∧ Relation.ReflTransGen edge s a

variable {seed : α → Prop} {edge : α → α → Prop}

theorem reachable_flat (hshort : ∀ s b c, seed s → edge s b → edge b c → edge s c) {a : α} (h : Reachable seed edge a) :
    seed a ∨ ∃ s, seed s ∧ edge s a := by
  obtain ⟨s, hs, hpath⟩ := h
  have hreach : a = s ∨ edge s a := by
    induction hpath with
    | refl => exact .inl rfl
    | tail _ hbc ih =>
      rcases ih with rfl | hb
      · exact .inr hbc
      · exact .inr (hshort s _ _ hs hb hbc)
  rcases hreach with rfl | hedge
  · exact .inl hs
  · exact .inr ⟨s, hs, hedge⟩

end Reach
end Tracing
