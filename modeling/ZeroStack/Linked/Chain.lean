import Mathlib.Data.List.Induction
import Mathlib.Data.List.Nodup
import Mathlib.Data.Set.Function

/-! Lists in which each record names the root of the one before it. -/

namespace Linked

open List

variable {R D : Type*} (root parent : R → D)

def Chained : D → List R → Prop
  | _, [] => True
  | start, r :: rest => parent r = start ∧ Chained (root r) rest

def head (start : D) (records : List R) : D := (records.getLast?.map root).getD start

variable {root parent}

@[simp] theorem head_nil (start : D) : head root start [] = start := rfl

@[simp] theorem head_concat (start : D) (records : List R) (r : R) : head root start (records ++ [r]) = root r := by
  simp [head]

theorem head_cons (start : D) (r : R) (rest : List R) : head root start (r :: rest) = head root (root r) rest := by
  cases hrest : rest.getLast? with
  | none | some last => simp [head, List.getLast?_cons]

variable {records : List R}

theorem chained_concat {start : D} {r : R} :
    Chained root parent start (records ++ [r]) ↔
      Chained root parent start records ∧ parent r = head root start records := by
  induction records generalizing start with
  | nil => simp [Chained]
  | cons first rest ih => simp only [cons_append, Chained, ih, head_cons, and_assoc]

theorem chained_of_append {start : D} {front back : List R} (h : Chained root parent start (front ++ back)) :
    Chained root parent start front := by
  induction front generalizing start with
  | nil => trivial
  | cons first rest ih => exact ⟨h.1, ih h.2⟩

theorem head_eq_of_ne_nil (h : records ≠ []) (start start' : D) :
    head root start records = head root start' records := by
  obtain ⟨last, hlast⟩ := List.getLast?_isSome.mpr h |> Option.isSome_iff_exists.mp
  rw [head, head, hlast]
  rfl

theorem head_append_of_ne_nil {front back : List R} (h : back ≠ []) (start : D) :
    head root start (front ++ back) = head root start back := by
  obtain ⟨last, hlast⟩ := List.getLast?_isSome.mpr h |> Option.isSome_iff_exists.mp
  simp [head, hlast]

theorem exists_chained_concat {r : R} (none : D) (h : ∃ start, Chained root parent start records)
    (hr : parent r = head root none records) : ∃ start, Chained root parent start (records ++ [r]) := by
  obtain ⟨start, hchained⟩ := h
  by_cases hnil : records = []
  · subst hnil
    exact ⟨parent r, rfl, trivial⟩
  · refine ⟨start, chained_concat.mpr ⟨hchained, ?_⟩⟩
    rw [hr]
    exact head_eq_of_ne_nil hnil none start

theorem chained_iff_getElem? {start : D} : Chained root parent start records ↔
      ∀ i r, records[i]? = some r → parent r = head root start (records.take i) := by
  induction records using List.reverseRecOn with
  | nil => simp [Chained]
  | append_singleton records last ih =>
    rw [chained_concat, ih]
    constructor
    · rintro ⟨hfront, hlast⟩ i r hr
      rcases Nat.lt_trichotomy i records.length with hi | rfl | hi
      · rw [List.getElem?_append_left hi] at hr
        rw [take_append_of_le_length hi.le]
        exact hfront i r hr
      · rw [List.getElem?_concat_length] at hr
        cases hr
        rw [take_left]
        exact hlast
      · rw [List.getElem?_eq_none (by rw [length_append]; exact hi)] at hr
        cases hr
    · intro hall
      constructor
      · intro i r hr
        have hi := (List.getElem?_eq_some_iff.mp hr).1
        have happend := hall i r (by rw [List.getElem?_append_left hi]; exact hr)
        rwa [take_append_of_le_length hi.le] at happend
      · have happend := hall records.length last List.getElem?_concat_length
        rwa [take_left] at happend

theorem eq_of_head_eq {start : D} {xs ys : List R} (hinj : Set.InjOn root { r | r ∈ xs ∨ r ∈ ys })
    (hstart : ∀ r, r ∈ xs ∨ r ∈ ys → root r ≠ start) (hx : Chained root parent start xs)
    (hy : Chained root parent start ys) (hhead : head root start xs = head root start ys) : xs = ys := by
  -- from the back: equal last roots are equal last records, and these name the root before them
  induction xs using List.reverseRecOn generalizing ys with
  | nil =>
    cases ys using List.reverseRecOn with
    | nil => rfl
    | append_singleton ys y =>
      rw [head_concat] at hhead
      exact absurd hhead.symm (hstart y (.inr mem_concat_self))
  | append_singleton xs x ih =>
    cases ys using List.reverseRecOn with
    | nil =>
      rw [head_concat] at hhead
      exact absurd hhead (hstart x (.inl mem_concat_self))
    | append_singleton ys y =>
      rw [head_concat, head_concat] at hhead
      have hlast : x = y := hinj (.inl mem_concat_self) (.inr mem_concat_self) hhead
      obtain ⟨hxs, hparentx⟩ := chained_concat.mp hx
      obtain ⟨hys, hparenty⟩ := chained_concat.mp hy
      have hwithin : ∀ r, r ∈ xs ∨ r ∈ ys → r ∈ xs ++ [x] ∨ r ∈ ys ++ [y] := fun r hr =>
        hr.imp (mem_append_left _) (mem_append_left _)
      have hfront : head root start xs = head root start ys := by rw [← hparentx, ← hparenty, hlast]
      have heq : xs = ys := ih (hinj.mono fun r hr => hwithin r hr) (fun r hr => hstart r (hwithin r hr)) hxs hys hfront
      rw [heq, hlast]

theorem injOn_of_nodup_map {f : R → D} {distinct xs : List R} (h : (distinct.map f).Nodup) (hsub : xs ⊆ distinct) :
    Set.InjOn f { x | x ∈ xs } :=
  fun _ ha _ hb hab => inj_on_of_nodup_map h (hsub ha) (hsub hb) hab

end Linked
