import Mathlib.Data.List.Nodup
import Mathlib.Data.List.Perm.Subperm
import ZeroStack.Dag.Closure

/-! Orders in which every node stands behind its predecessors, and the algorithm that finds one by counting the
predecessors that are still to come. -/

namespace Dag

open List

section Ordered
variable {α : Type} {edge : α → α → Prop}

def Ordered (edge : α → α → Prop) : List α → List α → Prop
  | _, [] => True
  | done, x :: rest => (∀ u, edge u x → u ∈ done) ∧ Ordered edge (done ++ [x]) rest

theorem ordered_append {done front back : List α} :
    Ordered edge done (front ++ back) ↔ Ordered edge done front ∧ Ordered edge (done ++ front) back := by
  induction front generalizing done with
  | nil => simp [Ordered]
  | cons x front ih =>
    rw [cons_append, Ordered, Ordered, ih, append_assoc, singleton_append, and_assoc]

theorem Ordered.foldl {σ : Type} {inv : List α → σ → Prop} {step : σ → α → σ}
    (hstep : ∀ done x s, inv done s → x ∉ done → (∀ u, edge u x → u ∈ done) → inv (done ++ [x]) (step s x))
    {done order : List α} (horder : Ordered edge done order) (hnodup : (done ++ order).Nodup) {s : σ} (h : inv done s) :
    inv (done ++ order) (order.foldl step s) := by
  induction order generalizing done s with
  | nil => rwa [append_nil]
  | cons x order ih =>
    obtain ⟨hready, hrest⟩ := horder
    have hfresh : x ∉ done := fun hmem => (nodup_append.mp hnodup).2.2 x hmem x mem_cons_self rfl
    have hnodup' : (done ++ [x] ++ order).Nodup := by rwa [append_assoc, singleton_append]
    have hnext := ih hrest hnodup' (hstep done x s h hfresh hready)
    rwa [append_assoc, singleton_append] at hnext

end Ordered

section Kahn
variable {α : Type} [Ord α]

abbrev Counts (α : Type) [Ord α] := Std.TreeMap α ℕ

def countUp (counts : Counts α) (y : α) : Counts α := counts.insert y (counts.getD y 0 + 1)

def indegrees (g : Adjacency α) : Counts α :=
  (allTargets g).foldl countUp (g.keys.foldl (fun counts k => counts.insert k 0) ∅)

def release (s : Counts α × List α) (y : α) : Counts α × List α :=
  match s.1[y]? with
  | some v => (s.1.insert y (v - 1), if v - 1 = 0 then s.2 ++ [y] else s.2)
  | none => s

def orderLoop (g : Adjacency α) : ℕ → Counts α → List α → List α → Counts α × List α
  | 0, counts, _, out => (counts, out)
  | _ + 1, counts, [], out => (counts, out)
  | fuel + 1, counts, x :: queue, out =>
    orderLoop g fuel ((targets g x).foldl release (counts, queue)).1 ((targets g x).foldl release (counts, queue)).2
      (out ++ [x])

/-- An order of the nodes, or the nodes that are left on cycles or behind them. Each node is popped at most once. -/
def topologicalOrder (g : Adjacency α) : Except (List α) (List α) :=
  let counts := indegrees g
  let queue := (counts.toList.filter fun entry => entry.2 = 0).map (·.1)
  let result := orderLoop g counts.size counts queue []
  if result.2.length ≠ counts.size then
    .error ((result.1.toList.filter fun entry => 0 < entry.2).map (·.1))
  else .ok result.2

variable [Std.TransOrd α] [Std.LawfulEqOrd α] [DecidableEq α]

theorem getElem?_insert_eq (counts : Counts α) (k y : α) (v : ℕ) :
    (counts.insert y v)[k]? = if k = y then some v else counts[k]? := by
  rw [Std.TreeMap.getElem?_insert]
  by_cases h : k = y
  · rw [if_pos (Std.LawfulEqCmp.compare_eq_iff_eq.mpr h.symm), if_pos h]
  · have hne : ¬compare y k = .eq := fun heq => h (Std.LawfulEqCmp.compare_eq_iff_eq.mp heq).symm
    rw [if_neg hne, if_neg h]

section Counting

theorem getElem?_foldl_countUp (ys : List α) (counts : Counts α) (k : α) :
    (ys.foldl countUp counts)[k]? = if k ∈ ys then some (counts[k]?.getD 0 + ys.count k) else counts[k]? := by
  induction ys generalizing counts with
  | nil => simp
  | cons y ys ih =>
    rw [foldl_cons, ih, countUp, getElem?_insert_eq, Std.TreeMap.getD_eq_getD_getElem?]
    by_cases hk : k = y
    · subst hk
      by_cases hin : k ∈ ys
      · simp [hin]
        omega
      · simp [count_eq_zero_of_not_mem hin]
    · have hcount : (y :: ys).count k = ys.count k := count_cons_of_ne (Ne.symm hk)
      by_cases hin : k ∈ ys
      · simp [hk, hcount]
      · simp [hin, hk]

theorem getElem?_foldl_zero (ks : List α) (counts : Counts α) (k : α) :
    (ks.foldl (fun counts k => counts.insert k 0) counts)[k]? = if k ∈ ks then some 0 else counts[k]? := by
  induction ks generalizing counts with
  | nil => simp
  | cons y ks ih =>
    rw [foldl_cons, ih, getElem?_insert_eq]
    by_cases hin : k ∈ ks
    · simp [hin]
    · by_cases hk : k = y
      · simp [hk]
      · simp [hin]

def unmet (g : Adjacency α) (out : List α) (k : α) : ℕ := (predecessors g k).countP fun x => decide (x ∉ out)

theorem count_allTargets (g : Adjacency α) (k : α) : (allTargets g).count k = unmet g [] k := by
  have hcount : ∀ next : Nodes α, next.toList.count k = if next.contains k then 1 else 0 := by
    intro next
    rw [(nodup_toList next).count]
    simp [Std.TreeSet.mem_toList]
  rw [allTargets, unmet, predecessors]
  induction g.toList with
  | nil => rfl
  | cons entry entries ih =>
    rw [flatMap_cons, count_append, ih, hcount, filter_cons]
    split_ifs <;> simp [Nat.add_comm]

theorem getElem?_indegrees (g : Adjacency α) (k : α) :
    (indegrees g)[k]? = if k ∈ g ∨ k ∈ allTargets g then some (unmet g [] k) else none := by
  have hzero : (g.keys.foldl (fun counts k => counts.insert k 0) (∅ : Counts α))[k]? =
      if k ∈ g then some 0 else none := by
    rw [getElem?_foldl_zero]
    simp [Std.TreeMap.mem_keys]
  rw [indegrees, getElem?_foldl_countUp, hzero, count_allTargets]
  by_cases htarget : k ∈ allTargets g
  · by_cases hkey : k ∈ g <;> simp [htarget, hkey]
  · have hnone : unmet g [] k = 0 := by
      rw [← count_allTargets]
      exact count_eq_zero_of_not_mem htarget
    by_cases hkey : k ∈ g <;> simp [htarget, hnone]

omit [Ord α] [Std.TransOrd α] [Std.LawfulEqOrd α] in
theorem countP_notMem_concat {l out : List α} (hl : l.Nodup) {x : α} (hx : x ∉ out) :
    (l.countP fun a => decide (a ∉ out ++ [x])) + (if x ∈ l then 1 else 0) = l.countP fun a => decide (a ∉ out) := by
  induction l with
  | nil => rfl
  | cons a l ih =>
    obtain ⟨ha, hl⟩ := nodup_cons.mp hl
    rw [countP_cons, countP_cons, ← ih hl]
    by_cases hsame : a = x
    · subst hsame
      simp [ha, hx]
    · simp [hsame, Ne.symm hsame]
      omega

theorem unmet_append (g : Adjacency α) {out : List α} {x : α} (hx : x ∉ out) (k : α) :
    unmet g (out ++ [x]) k + (if k ∈ targets g x then 1 else 0) = unmet g out k := by
  have hnodup : (predecessors g k).Nodup := by
    have hkeys : (g.toList.map Prod.fst).Nodup := by
      rw [Std.TreeMap.map_fst_toList_eq_keys]
      exact Std.TreeMap.nodup_keys
    exact hkeys.sublist (filter_sublist.map _)
  have hedge : x ∈ predecessors g k ↔ k ∈ targets g x := mem_predecessors
  simp only [unmet, ← countP_notMem_concat hnodup hx, hedge]

end Counting

structure Released (ys : List α) (counts : Counts α) (queue : List α) (s : Counts α × List α) : Prop where
  get : ∀ k, s.1[k]? = if k ∈ ys then counts[k]?.map (· - 1) else counts[k]?
  queued : s.2 = queue ++ ys.filter fun y => decide (counts[y]? = some 1)

theorem released {ys : List α} (hnodup : ys.Nodup) {counts : Counts α} (hpos : ∀ y ∈ ys, ∃ v, counts[y]? = some (v + 1))
    (queue : List α) : Released ys counts queue (ys.foldl release (counts, queue)) := by
  induction ys generalizing counts queue with
  | nil => exact ⟨by simp, by simp⟩
  | cons y ys ih =>
    obtain ⟨hfresh, hnodup⟩ := nodup_cons.mp hnodup
    obtain ⟨⟨v, hv⟩, hrest⟩ := forall_mem_cons.mp hpos
    have hother : ∀ y' ∈ ys, (counts.insert y v)[y']? = counts[y']? := by
      intro y' hy'
      rw [getElem?_insert_eq, if_neg]
      rintro rfl
      exact hfresh hy'
    have hstep : release (counts, queue) y = (counts.insert y v, if v = 0 then queue ++ [y] else queue) := by
      simp only [release, hv, Nat.add_sub_cancel]
    have hposRest : ∀ y' ∈ ys, ∃ w, (counts.insert y v)[y']? = some (w + 1) := by
      intro y' hy'
      rw [hother y' hy']
      exact hrest y' hy'
    obtain ⟨hget, hqueued⟩ := ih hnodup hposRest (if v = 0 then queue ++ [y] else queue)
    rw [foldl_cons, hstep]
    refine ⟨fun k => ?_, ?_⟩
    · rw [hget, getElem?_insert_eq]
      by_cases hk : k = y
      · subst hk
        simp [hfresh, hv]
      · simp [hk]
    · have hsame : (ys.filter fun y' => decide ((counts.insert y v)[y']? = some 1)) =
          ys.filter fun y' => decide (counts[y']? = some 1) := by
        refine filter_congr fun y' hy' => ?_
        rw [hother y' hy']
      rw [hqueued, hsame]
      by_cases hzero : v = 0
      · rw [if_pos hzero, filter_cons_of_pos (by simp [hv, hzero]), append_assoc, singleton_append]
      · rw [if_neg hzero, filter_cons_of_neg (by simp [hv, hzero])]

structure Sorting (g : Adjacency α) (counts : Counts α) (queue out : List α) : Prop where
  nodes : ∀ k, counts[k]? = if k ∈ g ∨ k ∈ allTargets g then some (unmet g out k) else none
  nodup : (out ++ queue).Nodup
  ready : ∀ k ∈ out ++ queue, counts[k]? = some 0
  ordered : Ordered (Edge g) [] out

theorem Sorting.pop {g : Adjacency α} {counts : Counts α} {x : α} {queue out : List α}
    (h : Sorting g counts (x :: queue) out) :
    Sorting g ((targets g x).foldl release (counts, queue)).1 ((targets g x).foldl release (counts, queue)).2
      (out ++ [x]) := by
  have hx : x ∉ out := fun hmem => (nodup_append.mp h.nodup).2.2 x hmem x mem_cons_self rfl
  have hcount : ∀ k v, counts[k]? = some v → v = unmet g out k := by
    intro k v hv
    rw [h.nodes] at hv
    split_ifs at hv
    exact (Option.some.inj hv).symm
  have hpos : ∀ y ∈ targets g x, counts[y]? = some (unmet g (out ++ [x]) y + 1) := by
    intro y hy
    have hwait := unmet_append g hx y
    rw [if_pos hy] at hwait
    rw [h.nodes, if_pos (.inr (mem_allTargets hy)), hwait]
  obtain ⟨hget, hqueued⟩ := released (nodup_targets g x) (fun y hy => ⟨_, hpos y hy⟩) queue
  -- a node whose count is zero is no target of x
  have hnotTarget : ∀ k ∈ out ++ x :: queue, k ∉ targets g x := by
    intro k hk htarget
    have hzero := h.ready k hk
    rw [hpos k htarget] at hzero
    cases hzero
  refine ⟨fun k => ?_, ?_, fun k hk => ?_, ?_⟩
  · have hwait := unmet_append g hx k
    rw [hget, h.nodes]
    by_cases hk : k ∈ targets g x
    · rw [if_pos hk] at hwait ⊢
      rw [if_pos (.inr (mem_allTargets hk)), if_pos (.inr (mem_allTargets hk)), ← hwait]
      rfl
    · rw [if_neg hk, Nat.add_zero] at hwait
      rw [if_neg hk, hwait]
  · rw [hqueued, append_assoc, singleton_append, ← cons_append, ← append_assoc]
    refine nodup_append.mpr ⟨h.nodup, (nodup_targets g x).filter _, ?_⟩
    rintro k hk k' hk' rfl
    exact hnotTarget k hk (mem_of_mem_filter hk')
  · rw [hqueued, append_assoc, singleton_append, ← cons_append, ← append_assoc,
      mem_append] at hk
    rcases hk with hk | hk
    · rw [hget, if_neg (hnotTarget k hk)]
      exact h.ready k hk
    · obtain ⟨htarget, hone⟩ := mem_filter.mp hk
      rw [hget, if_pos htarget, of_decide_eq_true hone]
      rfl
  · rw [ordered_append]
    refine ⟨h.ordered, ?_, trivial⟩
    intro u hedge
    by_contra hu
    have hzero := hcount x 0 (h.ready x (mem_append_right out mem_cons_self))
    have hwait : 0 < unmet g out x := countP_pos_iff.mpr ⟨u, mem_predecessors.mpr hedge, decide_eq_true hu⟩
    omega

section Loop
variable {g : Adjacency α} {counts : Counts α} {queue out : List α}

theorem orderLoop_sorting (fuel : ℕ) (h : Sorting g counts queue out) :
    ∃ rest, Sorting g (orderLoop g fuel counts queue out).1 rest (orderLoop g fuel counts queue out).2 := by
  induction fuel generalizing counts queue out with
  | zero => exact ⟨queue, h⟩
  | succ fuel ih =>
    cases queue with
    | nil => exact ⟨[], h⟩
    | cons x queue => exact ih h.pop

theorem Sorting.subset_keys (h : Sorting g counts queue out) : out ++ queue ⊆ (indegrees g).keys := by
  intro k hk
  have hsome := h.ready k hk
  rw [h.nodes] at hsome
  split_ifs at hsome with hnode
  rw [Std.TreeMap.mem_keys, Std.TreeMap.mem_iff_isSome_getElem?, getElem?_indegrees, if_pos hnode]
  rfl

end Loop

variable (g : Adjacency α)

theorem sorting_start :
    Sorting g (indegrees g) (((indegrees g).toList.filter fun entry => entry.2 = 0).map (·.1)) [] := by
  refine ⟨getElem?_indegrees g, ?_, fun k hk => ?_, trivial⟩
  · have hkeys : ((indegrees g).toList.map Prod.fst).Nodup := by
      rw [Std.TreeMap.map_fst_toList_eq_keys]
      exact Std.TreeMap.nodup_keys
    exact hkeys.sublist (filter_sublist.map _)
  · obtain ⟨⟨k', v⟩, hentry, rfl⟩ := mem_map.mp hk
    obtain ⟨hmem, hzero⟩ := mem_filter.mp hentry
    have hv : v = 0 := of_decide_eq_true hzero
    subst hv
    exact Std.TreeMap.mem_toList_iff_getElem?_eq_some.mp hmem

variable {g}

theorem topologicalOrder_sound {order : List α} (h : topologicalOrder g = .ok order) :
    order.Nodup ∧ Ordered (Edge g) [] order ∧ ∀ k ∈ g, k ∈ order := by
  obtain ⟨rest, hsorted⟩ := orderLoop_sorting (indegrees g).size (sorting_start g)
  simp only [topologicalOrder] at h
  split_ifs at h with hlength
  cases h
  have hnodup := (nodup_append.mp hsorted.nodup).1
  have hsubset := List.Subset.trans (subset_append_left _ rest) hsorted.subset_keys
  refine ⟨hnodup, hsorted.ordered, fun k hk => ?_⟩
  have hperm := (subperm_of_subset hnodup hsubset).perm_of_length_le (by
    rw [Std.TreeMap.length_keys]
    omega)
  have hkey : k ∈ (indegrees g).keys := by
    rw [Std.TreeMap.mem_keys, Std.TreeMap.mem_iff_isSome_getElem?, getElem?_indegrees, if_pos (.inl hk)]
    rfl
  exact hperm.mem_iff.mpr hkey

end Kahn
end Dag
