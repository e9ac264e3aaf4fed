import Mathlib.Data.List.Basic

/-! Tables sorted by a key. The entries of one key stand together, between the rank of the key and that of the next,
where the rank is the number of entries with a smaller key. -/

namespace Sorted
open List
variable {α : Type*} (key : α → ℕ)

def rank (k : ℕ) (table : List α) : ℕ := table.countP (key · < k)

def block (k : ℕ) (table : List α) : List α :=
  (table.drop (rank key k table)).take (rank key (k + 1) table - rank key k table)

variable {key} {table : List α}

variable (h : table.Pairwise fun a b => key a ≤ key b)
include h

theorem block_eq_filter (k : ℕ) : block key k table = table.filter (key · = k) := by
  induction table with
  | nil => rfl
  | cons a table ih =>
    obtain ⟨hfirst, hrest⟩ := pairwise_cons.mp h
    have hcons : ∀ j, rank key j (a :: table) = rank key j table + if key a < j then 1 else 0 := by
      simp [rank, countP_cons]
    have hzero : ∀ j ≤ key a, rank key j table = 0 := by
      intro j hj
      apply countP_eq_zero.mpr
      intro b hb
      simpa using Nat.le_trans hj (hfirst b hb)
    have hblock := ih hrest
    rw [block] at hblock ⊢
    rcases Nat.lt_trichotomy (key a) k with hlt | rfl | hgt
    · rw [hcons, hcons, if_pos hlt, if_pos (by omega), Nat.add_sub_add_right, drop_succ_cons, hblock,
        filter_cons_of_neg (by simpa using Nat.ne_of_lt hlt)]
    · rw [hcons, hcons, if_neg (Nat.lt_irrefl _), if_pos (Nat.lt_succ_self _), hzero _ (Nat.le_refl _)]
      rw [hzero _ (Nat.le_refl _)] at hblock
      simpa using hblock
    · -- from here on every key is greater than `k`
      have hnone : (a :: table).filter (key · = k) = [] := by
        apply filter_eq_nil_iff.mpr
        rw [forall_mem_cons]
        refine ⟨by simpa using Nat.ne_of_gt hgt, fun b hb => ?_⟩
        have hle := hfirst b hb
        simpa using (show key b ≠ k by omega)
      rw [hnone, hcons, if_neg (by omega), hzero (k + 1) hgt, Nat.zero_add, Nat.zero_sub, take_zero]

theorem mem_block {k : ℕ} {a : α} : a ∈ block key k table ↔ a ∈ table ∧ key a = k := by
  rw [block_eq_filter h]
  simp

end Sorted
