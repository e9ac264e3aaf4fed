import Mathlib.Data.List.Pairwise
import Mathlib.Tactic.SplitIfs

/-! Directories whose entries are named by numbers and listed in their order. -/

namespace Durable

open List

structure Numbered (V : Type) where
  entries : List (ℕ × V)
  sorted : entries.Pairwise fun a b => a.1 < b.1

namespace Numbered
variable {V : Type}

def empty : Numbered V := ⟨[], List.Pairwise.nil⟩

def ids (d : Numbered V) : List ℕ := d.entries.map Prod.fst

def get (d : Numbered V) (id : ℕ) : Option V := (d.entries.find? (·.1 = id)).map Prod.snd

def insert (id : ℕ) (v : V) : List (ℕ × V) → List (ℕ × V)
  | [] => [(id, v)]
  | e :: es => if id < e.1 then (id, v) :: e :: es else if id = e.1 then (id, v) :: es else e :: insert id v es

variable {id n : ℕ} {v : V} {es : List (ℕ × V)}

theorem lt_of_mem_insert (hn : n < id) (hes : ∀ e ∈ es, n < e.1) : ∀ e ∈ insert id v es, n < e.1 := by
  induction es with
  | nil => simpa [insert] using hn
  | cons e es ih =>
    obtain ⟨he, hrest⟩ := forall_mem_cons.mp hes
    rw [insert]
    split_ifs
    · exact forall_mem_cons.mpr ⟨hn, hes⟩
    · exact forall_mem_cons.mpr ⟨hn, hrest⟩
    · exact forall_mem_cons.mpr ⟨he, ih hrest⟩

theorem pairwise_insert (h : es.Pairwise fun a b => a.1 < b.1) : (insert id v es).Pairwise fun a b => a.1 < b.1 := by
  induction es with
  | nil => exact pairwise_singleton ..
  | cons e es ih =>
    obtain ⟨hbelow, hrest⟩ := pairwise_cons.mp h
    rw [insert]
    split_ifs with hlt heq
    · refine pairwise_cons.mpr ⟨?_, h⟩
      exact forall_mem_cons.mpr ⟨hlt, fun a ha => Nat.lt_trans hlt (hbelow a ha)⟩
    · refine pairwise_cons.mpr ⟨?_, hrest⟩
      subst heq
      exact hbelow
    · refine pairwise_cons.mpr ⟨?_, ih hrest⟩
      exact lt_of_mem_insert (by omega) hbelow

variable (d : Numbered V)

def put (id : ℕ) (v : V) : Numbered V := ⟨insert id v d.entries, pairwise_insert d.sorted⟩

def remove (id : ℕ) : Numbered V := ⟨d.entries.filter (·.1 ≠ id), d.sorted.filter _⟩

def removeAll (ids : List ℕ) : Numbered V := ⟨d.entries.filter (·.1 ∉ ids), d.sorted.filter _⟩

theorem insert_of_above (h : ∀ e ∈ es, e.1 < id) : insert id v es = es ++ [(id, v)] := by
  induction es with
  | nil => rfl
  | cons e es ih =>
    obtain ⟨he, hrest⟩ := forall_mem_cons.mp h
    rw [insert, if_neg (by omega), if_neg (by omega), ih hrest, cons_append]

theorem insert_last {old : V} (h : ∀ e ∈ es, e.1 < id) : insert id v (es ++ [(id, old)]) = es ++ [(id, v)] := by
  induction es with
  | nil => simp [insert]
  | cons e es ih =>
    obtain ⟨he, hrest⟩ := forall_mem_cons.mp h
    rw [cons_append, insert, if_neg (by omega), if_neg (by omega), ih hrest, cons_append]

section Last
variable {d : Numbered V} {last : V} (hlast : d.entries = es ++ [(id, last)])
include hlast

theorem below_last : ∀ e ∈ es, e.1 < id := by
  have hsorted := d.sorted
  rw [hlast] at hsorted
  exact fun e he => (pairwise_append.mp hsorted).2.2 e he (id, last) mem_cons_self

theorem entries_put_last : (d.put id v).entries = es ++ [(id, v)] := by
  show insert id v d.entries = _
  rw [hlast]
  exact insert_last (below_last hlast)

theorem entries_remove_last : (d.remove id).entries = es := by
  have hkeep : es.filter (·.1 ≠ id) = es :=
    filter_eq_self.mpr fun e he => by simpa using Nat.ne_of_lt (below_last hlast e he)
  show d.entries.filter (·.1 ≠ id) = es
  rw [hlast, filter_append, hkeep]
  simp

end Last
end Numbered
end Durable
