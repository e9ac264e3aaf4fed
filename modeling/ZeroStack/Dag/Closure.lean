import Mathlib.Data.List.Basic
import Mathlib.Logic.Relation
import Std.Data.TreeMap
import Std.Data.TreeSet

/-! Graphs as maps from a node to the set of its targets, and the closure of a set of nodes along the edges, which a
queue of nodes still to be followed computes. -/

namespace Dag

open List

abbrev Nodes (α : Type) [Ord α] := Std.TreeSet α

abbrev Adjacency (α : Type) [Ord α] := Std.TreeMap α (Nodes α)

section Edges
variable {α : Type} [Ord α]

def targets (g : Adjacency α) (x : α) : List α :=
  match g[x]? with
  | some next => next.toList
  | none => []

def allTargets (g : Adjacency α) : List α := g.toList.flatMap fun entry => entry.2.toList

def Edge (g : Adjacency α) (x y : α) : Prop := y ∈ targets g x

def predecessors (g : Adjacency α) (y : α) : List α := (g.toList.filter fun entry => entry.2.contains y).map (·.1)

variable [Std.TransOrd α] [Std.LawfulEqOrd α] {g : Adjacency α}

theorem targets_of_mem_toList {x : α} {next : Nodes α} (h : (x, next) ∈ g.toList) : targets g x = next.toList := by
  have hget : g[x]? = some next := Std.TreeMap.mem_toList_iff_getElem?_eq_some.mp h
  rw [targets, hget]

theorem exists_of_edge {x y : α} (h : Edge g x y) : ∃ next, (x, next) ∈ g.toList ∧ y ∈ next.toList := by
  cases hget : g[x]? with
  | none => simp [Edge, targets, hget] at h
  | some next =>
    rw [Edge, targets, hget] at h
    exact ⟨next, Std.TreeMap.mem_toList_iff_getElem?_eq_some.mpr hget, h⟩

theorem mem_predecessors {x y : α} : x ∈ predecessors g y ↔ Edge g x y := by
  constructor
  · intro h
    obtain ⟨⟨x', next⟩, hentry, rfl⟩ := mem_map.mp h
    obtain ⟨hmem, hy⟩ := mem_filter.mp hentry
    rw [Edge, targets_of_mem_toList hmem, Std.TreeSet.mem_toList]
    exact hy
  · intro h
    obtain ⟨next, hentry, hy⟩ := exists_of_edge h
    exact mem_map.mpr ⟨(x, next), mem_filter.mpr ⟨hentry, Std.TreeSet.mem_toList.mp hy⟩, rfl⟩

theorem mem_allTargets {x y : α} (h : Edge g x y) : y ∈ allTargets g := by
  obtain ⟨next, hentry, hy⟩ := exists_of_edge h
  exact mem_flatMap.mpr ⟨(x, next), hentry, hy⟩

omit [Std.LawfulEqOrd α] in
theorem nodup_toList (next : Nodes α) : next.toList.Nodup := by
  refine next.distinct_toList.imp fun hne heq => hne ?_
  rw [heq]
  exact Std.ReflCmp.compare_self

omit [Std.LawfulEqOrd α] in
theorem nodup_targets (g : Adjacency α) (x : α) : (targets g x).Nodup := by
  cases hget : g[x]? with
  | none =>
    rw [targets, hget]
    exact nodup_nil
  | some next =>
    rw [targets, hget]
    exact nodup_toList next

end Edges

section Closure
variable {α : Type} [Ord α]

def follow (s : Nodes α × List α) (y : α) : Nodes α × List α :=
  if y ∈ s.1 then s else (s.1.insert y, s.2 ++ [y])

def closeLoop (g : Adjacency α) : ℕ → Nodes α → List α → Nodes α
  | 0, out, _ => out
  | _ + 1, out, [] => out
  | fuel + 1, out, x :: queue =>
    closeLoop g fuel ((targets g x).foldl follow (out, queue)).1 ((targets g x).foldl follow (out, queue)).2

/-- The nodes that are reached from the given ones. Each pop is paid for by a node that was given or by an edge. -/
def upwardClosure (g : Adjacency α) (changed : Nodes α) : Nodes α :=
  closeLoop g (changed.toList.length + (allTargets g).length) changed changed.toList

variable [Std.TransOrd α] [Std.LawfulEqOrd α]

structure Followed (ys : List α) (out : Nodes α) (queue : List α) (s : Nodes α × List α) : Prop where
  mem : ∀ k, k ∈ s.1 ↔ k ∈ out ∨ k ∈ ys
  queued : ∀ k, k ∈ s.2 ↔ k ∈ queue ∨ k ∈ s.1 ∧ k ∉ out
  paid : ∀ all : List α, ys ⊆ all →
    s.2.length + all.countP (fun k => decide (k ∉ s.1)) ≤ queue.length + all.countP (fun k => decide (k ∉ out))

theorem mem_insert_iff {out : Nodes α} {k y : α} : k ∈ out.insert y ↔ k = y ∨ k ∈ out := by
  rw [Std.TreeSet.mem_insert, Std.LawfulEqCmp.compare_eq_iff_eq, eq_comm]

theorem countP_insert_lt {all : List α} {out : Nodes α} {y : α} (hall : y ∈ all) (hnew : y ∉ out) :
    all.countP (fun k => decide (k ∉ out.insert y)) < all.countP (fun k => decide (k ∉ out)) := by
  obtain ⟨front, back, rfl⟩ := append_of_mem hall
  have hless : ∀ l : List α, l.countP (fun k => decide (k ∉ out.insert y)) ≤ l.countP (fun k => decide (k ∉ out)) := by
    intro l
    refine countP_mono_left fun k _ hk => ?_
    have hout : k ∉ out.insert y := of_decide_eq_true hk
    exact decide_eq_true fun hmem => hout (mem_insert_iff.mpr (.inr hmem))
  have hfront := hless front
  have hback := hless back
  rw [countP_append, countP_append, countP_cons_of_neg (by simp),
    countP_cons_of_pos (by simpa using hnew)]
  omega

theorem followed (ys : List α) (out : Nodes α) (queue : List α) :
    Followed ys out queue (ys.foldl follow (out, queue)) := by
  induction ys generalizing out queue with
  | nil => exact ⟨by simp, by simp, fun _ _ => Nat.le_refl _⟩
  | cons y ys ih =>
    rw [foldl_cons, follow]
    by_cases hy : y ∈ out
    · rw [if_pos hy]
      obtain ⟨hmem, hqueued, hpaid⟩ := ih out queue
      refine ⟨fun k => ?_, hqueued, fun all hall => hpaid all fun k hk => hall (mem_cons_of_mem y hk)⟩
      rw [hmem, mem_cons]
      constructor
      · rintro (hout | hys)
        · exact .inl hout
        · exact .inr (.inr hys)
      · rintro (hout | rfl | hys)
        · exact .inl hout
        · exact .inl hy
        · exact .inr hys
    · rw [if_neg hy]
      obtain ⟨hmem, hqueued, hpaid⟩ := ih (out.insert y) (queue ++ [y])
      refine ⟨fun k => ?_, fun k => ?_, fun all hall => ?_⟩
      · rw [hmem, mem_insert_iff, mem_cons]
        tauto
      · have hin : k = y → k ∈ (ys.foldl follow (out.insert y, queue ++ [y])).1 := by
          rintro rfl
          exact (hmem k).mpr (.inl (mem_insert_iff.mpr (.inl rfl)))
        have hnew : k = y → k ∉ out := by
          rintro rfl
          exact hy
        rw [hqueued, mem_insert_iff, mem_append, mem_singleton]
        tauto
      · have hrest := hpaid all fun k hk => hall (mem_cons_of_mem y hk)
        have hless := countP_insert_lt (hall mem_cons_self) hy
        rw [length_append, length_singleton] at hrest
        exact Nat.le_trans hrest (by omega)

structure Closing (g : Adjacency α) (changed : Nodes α) (out : Nodes α) (queue : List α) : Prop where
  start : ∀ k ∈ changed, k ∈ out
  queued : ∀ k ∈ queue, k ∈ out
  closed : ∀ k ∈ out, k ∉ queue → ∀ y ∈ targets g k, y ∈ out
  only : ∀ P : α → Prop, (∀ k ∈ changed, P k) → (∀ x y, P x → Edge g x y → P y) → ∀ k ∈ out, P k

theorem Closing.pop {g : Adjacency α} {changed out : Nodes α} {x : α} {queue : List α}
    (h : Closing g changed out (x :: queue)) :
    Closing g changed ((targets g x).foldl follow (out, queue)).1 ((targets g x).foldl follow (out, queue)).2 := by
  obtain ⟨hmem, hqueued, -⟩ := followed (targets g x) out queue
  refine ⟨fun k hk => (hmem k).mpr (.inl (h.start k hk)), fun k hk => ?_, fun k hk hwaits y hy => ?_,
    fun P hstart hedge k hk => ?_⟩
  · rcases (hqueued k).mp hk with hq | ⟨hin, -⟩
    · exact (hmem k).mpr (.inl (h.queued k (mem_cons_of_mem x hq)))
    · exact hin
  · -- a node outside the new queue was popped now or before
    have hnotQueued : k ∉ queue := fun hq => hwaits ((hqueued k).mpr (.inl hq))
    have hold : k ∈ out := by
      by_contra hnew
      exact hwaits ((hqueued k).mpr (.inr ⟨hk, hnew⟩))
    by_cases hx : k = x
    · subst hx
      exact (hmem y).mpr (.inr hy)
    · have hwaited : k ∉ x :: queue := by
        rw [mem_cons, not_or]
        exact ⟨hx, hnotQueued⟩
      exact (hmem y).mpr (.inl (h.closed k hold hwaited y hy))
  · have hout := h.only P hstart hedge
    rcases (hmem k).mp hk with hold | htarget
    · exact hout k hold
    · exact hedge x k (hout x (h.queued x mem_cons_self)) htarget

theorem closeLoop_closed {g : Adjacency α} {changed : Nodes α} (fuel : ℕ) {out : Nodes α} {queue : List α}
    (h : Closing g changed out queue)
    (hfuel : queue.length + (allTargets g).countP (fun k => decide (k ∉ out)) ≤ fuel) :
    Closing g changed (closeLoop g fuel out queue) [] := by
  induction fuel generalizing out queue with
  | zero =>
    have hempty : queue = [] := length_eq_zero_iff.mp (by omega)
    subst hempty
    exact h
  | succ fuel ih =>
    cases queue with
    | nil => exact h
    | cons x queue =>
      have hpaid := (followed (targets g x) out queue).paid (allTargets g) fun y hy => mem_allTargets hy
      rw [length_cons] at hfuel
      exact ih h.pop (Nat.le_trans hpaid (by omega))

section Results
variable (g : Adjacency α) (changed : Nodes α)

theorem closing_upwardClosure : Closing g changed (upwardClosure g changed) [] := by
  refine closeLoop_closed _ ⟨fun k hk => hk, fun k hk => Std.TreeSet.mem_toList.mp hk, ?_, fun _ h _ => h⟩ ?_
  · intro k hk hwaits
    exact absurd (Std.TreeSet.mem_toList.mpr hk) hwaits
  · exact Nat.add_le_add_left countP_le_length _

theorem mem_upwardClosure_of_mem {k : α} (h : k ∈ changed) : k ∈ upwardClosure g changed :=
  (closing_upwardClosure g changed).start k h

theorem mem_upwardClosure_of_edge {x y : α} (h : x ∈ upwardClosure g changed) (hedge : Edge g x y) :
    y ∈ upwardClosure g changed :=
  (closing_upwardClosure g changed).closed x h not_mem_nil y hedge

theorem upwardClosure_induction {P : α → Prop} (hstart : ∀ k ∈ changed, P k)
    (hedge : ∀ x y, P x → Edge g x y → P y) : ∀ k ∈ upwardClosure g changed, P k :=
  (closing_upwardClosure g changed).only P hstart hedge

theorem mem_upwardClosure_iff {k : α} :
    k ∈ upwardClosure g changed ↔ ∃ seed ∈ changed, Relation.ReflTransGen (Edge g) seed k := by
  constructor
  · refine upwardClosure_induction g changed (P := fun k => ∃ seed ∈ changed, Relation.ReflTransGen (Edge g) seed k)
      (fun k hk => ⟨k, hk, .refl⟩) ?_ k
    rintro x y ⟨seed, hseed, hpath⟩ hedge
    exact ⟨seed, hseed, hpath.tail hedge⟩
  · rintro ⟨seed, hseed, hpath⟩
    induction hpath with
    | refl => exact mem_upwardClosure_of_mem g changed hseed
    | tail _ hedge ih => exact mem_upwardClosure_of_edge g changed ih hedge

end Results
end Closure
end Dag
