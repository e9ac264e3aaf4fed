import Mathlib.Algebra.Group.Submonoid.BigOperators

/-! Books kept beside a list of records: the sum of what the records weigh, and how it follows a change of one of
them. -/

namespace Durable
variable {α M : Type}

def tally [AddCommMonoid M] (weight : α → M) (records : List α) : M := (records.map weight).sum

section Monoid
variable [AddCommMonoid M] {weight : α → M}

@[simp] theorem tally_nil : tally weight [] = 0 := rfl

@[simp] theorem tally_cons (a : α) (records : List α) :
    tally weight (a :: records) = weight a + tally weight records := by
  simp [tally]

theorem tally_concat (records : List α) (a : α) : tally weight (records ++ [a]) = tally weight records + weight a := by
  simp [tally]

theorem tally_mem (S : AddSubmonoid M) {records : List α} (h : ∀ a ∈ records, weight a ∈ S) :
    tally weight records ∈ S := by
  apply AddSubmonoid.list_sum_mem
  intro m hm
  obtain ⟨a, ha, rfl⟩ := List.mem_map.mp hm
  exact h a ha

theorem tally_set (weight : α → M) {records : List α} {i : ℕ} {a : α} (h : records[i]? = some a) (b : α) :
    tally weight (records.set i b) + weight a = tally weight records + weight b := by
  induction records generalizing i with
  | nil => cases h
  | cons r records ih =>
    cases i with
    | zero =>
      cases h
      rw [List.set_cons_zero, tally_cons, tally_cons, add_right_comm, add_comm (weight b), add_right_comm]
    | succ i =>
      rw [List.set_cons_succ, tally_cons, tally_cons, add_assoc, add_assoc, ih h]

end Monoid

section Cancel
variable [AddCancelCommMonoid M] {weight : α → M} {records : List α} {i : ℕ} {a b : α}

theorem tally_set_add (h : records[i]? = some a) {m : M} (hb : weight b = weight a + m) :
    tally weight (records.set i b) = tally weight records + m := by
  have hset := tally_set weight h b
  rw [hb, add_comm (weight a), ← add_assoc] at hset
  exact add_right_cancel hset

end Cancel
end Durable
