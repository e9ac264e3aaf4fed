import Mathlib.Data.List.Dedup

/-! A directory of entries under keys, as a process sees it that can look an entry up,
replace it, take it away and list what is there, in an order it does not choose. -/

open Function

namespace Durable

structure Directory (K V : Type) where
  slot : K → Option V
  entries : List K
  mem_entries : ∀ k, k ∈ entries ↔ slot k ≠ none

namespace Directory
variable {K V : Type} [DecidableEq K]

omit [DecidableEq K] in
def empty : Directory K V where
  slot := fun _ => none
  entries := []
  mem_entries := fun _ => ⟨fun h => (List.not_mem_nil h).elim, fun h => (h rfl).elim⟩

def put (d : Directory K V) (k : K) (v : V) : Directory K V where
  slot := update d.slot k (some v)
  entries := if k ∈ d.entries then d.entries else d.entries ++ [k]
  mem_entries := by
    intro j
    have hd := d.mem_entries j
    by_cases hj : j = k
    · subst hj
      by_cases hk : j ∈ d.entries <;> simp [hk]
    · by_cases hk : k ∈ d.entries <;> simp [hk, hj, hd]

def remove (d : Directory K V) (k : K) : Directory K V where
  slot := update d.slot k none
  entries := d.entries.filter (· ≠ k)
  mem_entries := by
    intro j
    by_cases hj : j = k
    · simp [hj]
    · simp [hj, d.mem_entries j]

def listing (d : Directory K V) (order : List K) : List K :=
  (order.filter (· ∈ d.entries) ++ d.entries.filter (· ∉ order)).dedup

variable (d : Directory K V)
include d

@[simp] theorem put_self (k : K) (v : V) : (d.put k v).slot k = some v :=
  update_self ..

theorem put_of_ne {k j : K} (v : V) (h : j ≠ k) : (d.put k v).slot j = d.slot j :=
  update_of_ne h ..

@[simp] theorem remove_self (k : K) : (d.remove k).slot k = none :=
  update_self ..

theorem remove_of_ne {k j : K} (h : j ≠ k) : (d.remove k).slot j = d.slot j :=
  update_of_ne h ..

theorem mem_listing (order : List K) (k : K) : k ∈ d.listing order ↔ d.slot k ≠ none := by
  rw [← d.mem_entries k, listing]
  by_cases hk : k ∈ order <;> simp [hk]

theorem nodup_listing (order : List K) : (d.listing order).Nodup :=
  List.nodup_dedup _

end Directory
end Durable
