import Mathlib.Logic.Function.Basic

/-! Undo logs: the values that stood under some keys before they were overwritten. Undoing puts them back, the last
entry first; how far the overwriting, or an earlier undoing, had come does not matter. -/

open Function List

namespace Durable

structure Preimage (K V : Type) where
  key : K
  before : V

namespace Preimage
variable {K V : Type} [DecidableEq K]

def undo : List (Preimage K V) → (K → V) → K → V
  | [], F => F
  | p :: log, F => update (undo log F) p.key p.before

def keys (log : List (Preimage K V)) : List K := log.map key

theorem undo_append (l m : List (Preimage K V)) (F : K → V) : undo (l ++ m) F = undo l (undo m F) := by
  induction l with
  | nil => rfl
  | cons p l ih => rw [cons_append, undo, ih, undo]

theorem undo_concat (l : List (Preimage K V)) (p : Preimage K V) (F : K → V) :
    undo (l ++ [p]) F = undo l (update F p.key p.before) := undo_append l [p] F

theorem undo_record (l : List (Preimage K V)) (k : K) (F : K → V) : undo (l ++ [⟨k, F k⟩]) F = undo l F := by
  rw [undo_concat, update_eq_self]

variable {l : List (Preimage K V)}

theorem undo_congr {F F' : K → V} {k : K} (h : k ∈ keys l ∨ F k = F' k) : undo l F k = undo l F' k := by
  induction l with
  | nil => exact h.resolve_left not_mem_nil
  | cons p l ih =>
    by_cases hk : k = p.key
    · rw [undo, undo, hk, update_self, update_self]
    · have hl : k ∈ keys l ∨ F k = F' k := h.imp_left fun hm => (mem_cons.mp hm).resolve_left hk
      rw [undo, undo, update_of_ne hk, update_of_ne hk, ih hl]

theorem undo_of_notMem {k : K} (h : k ∉ keys l) (F : K → V) : undo l F k = F k := by
  induction l with
  | nil => rfl
  | cons p l ih =>
    have hk : k ≠ p.key := fun hk => h (mem_cons.mpr (.inl hk))
    have hl : k ∉ keys l := fun hl => h (mem_cons_of_mem _ hl)
    rw [undo, update_of_ne hk, ih hl]

theorem undo_update {k : K} (h : k ∈ keys l) (F : K → V) (v : V) : undo l (update F k v) = undo l F := by
  funext j
  apply undo_congr
  by_cases hj : j = k
  · exact .inl (hj ▸ h)
  · exact .inr (update_of_ne hj v F)

theorem undo_restore {F B : K → V} {p : Preimage K V} (h : undo l F = B) (hp : p.key ∈ keys l ∨ p.before = B p.key) :
    undo l (update F p.key p.before) = B := by
  by_cases hk : p.key ∈ keys l
  · rw [undo_update hk, h]
  · have hB : p.before = F p.key := by
      rw [hp.resolve_left hk, ← h, undo_of_notMem hk]
    rw [hB, update_eq_self, h]

end Preimage
end Durable
