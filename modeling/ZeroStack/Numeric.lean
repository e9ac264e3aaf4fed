import Mathlib.Algebra.Order.Field.Rat
import Mathlib.Data.UInt

/-! Addition that says when the sum does not fit, arithmetic that stays at a largest number, and ratios rounded down to
parts of a scale. -/

namespace Numeric

def checkedAdd (a b : UInt64) : Option UInt64 :=
  if a.toNat + b.toNat < 2 ^ 64 then some (a + b) else none

theorem toNat_of_checkedAdd {a b c : UInt64} (h : checkedAdd a b = some c) : c.toNat = a.toNat + b.toNat := by
  unfold checkedAdd at h
  split_ifs at h with hfits
  rw [← Option.some.inj h, UInt64.toNat_add, Nat.mod_eq_of_lt hfits]

theorem checkedAdd_zero (a : UInt64) : checkedAdd a 0 = some a := by
  have hfits : a.toNat + (0 : UInt64).toNat < 2 ^ 64 := a.toNat_lt
  rw [checkedAdd, if_pos hfits]
  simp

def saturate (top n : ℕ) : ℕ := min n top

theorem saturate_of_le {top n : ℕ} (h : n ≤ top) : saturate top n = n := min_eq_left h

theorem saturate_le (top n : ℕ) : saturate top n ≤ n := min_le_left n top

theorem saturate_sub_saturate_le (top a b : ℕ) : saturate top a - saturate top b ≤ a - b := by
  unfold saturate
  omega

theorem div_le_iff_lt {n b k : ℕ} (hb : 0 < b) : n / b ≤ k ↔ n < (k + 1) * b := by
  rw [← Nat.lt_succ_iff, Nat.div_lt_iff_lt_mul hb]

theorem ratio_lt_iff (a scale k : ℕ) {b : ℕ} (hb : 0 < b) : (a : ℚ) / b * scale < k + 1 ↔ a * scale < (k + 1) * b := by
  have hpos : (0 : ℚ) < b := by exact_mod_cast hb
  rw [div_mul_eq_mul_div, div_lt_iff₀ hpos]
  exact_mod_cast Iff.rfl

end Numeric
