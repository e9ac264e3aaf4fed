import ZeroStack.Invalidation.Rebuild

/-! The incremental pass gives what a full rebuild would: where propagation stops, the old and the new solution of the
producers' equations agree. -/

open Dag Wire List

set_option linter.unusedSectionVars false

namespace Zero.Invalidation

variable {ArtifactId Value : Type} [Ord ArtifactId] [Std.TransOrd ArtifactId] [Std.LawfulEqOrd ArtifactId]
  [DecidableEq ArtifactId]

namespace RecomputeEngine

variable {k : ArtifactId}

theorem overlay_congr {changed a b : State ArtifactId Value} (h : a[k]? = b[k]?) :
    (overlay a changed)[k]? = (overlay b changed)[k]? := by
  unfold overlay
  induction changed.toList generalizing a b with
  | nil => exact h
  | cons entry entries ih =>
    refine ih ?_
    rw [Std.TreeMap.getElem?_insert, Std.TreeMap.getElem?_insert, h]

theorem overlay_of_notMem {changed : State ArtifactId Value} (state : State ArtifactId Value)
    (h : k ∉ changed) : (overlay state changed)[k]? = state[k]? := by
  have hkept : ∀ (entries : List (ArtifactId × Value)) (a : State ArtifactId Value), k ∉ entries.map Prod.fst →
      (entries.foldl (fun state entry => state.insert entry.1 entry.2) a)[k]? = a[k]? := by
    intro entries
    induction entries with
    | nil => exact fun a _ => rfl
    | cons entry entries ih =>
      intro a hk
      rw [map_cons, mem_cons, not_or] at hk
      rw [foldl_cons, ih _ hk.2, getElem?_insert_ne a hk.1]
  refine hkept changed.toList state fun hk => h ?_
  rwa [Std.TreeMap.map_fst_toList_eq_keys, Std.TreeMap.mem_keys] at hk

section Pass
variable [DecidableEq Value] {engine : RecomputeEngine ArtifactId Value}
  {inputs changed old new : State ArtifactId Value}

structure Changing (engine : RecomputeEngine ArtifactId Value) (inputs changed old new : State ArtifactId Value) :
    Prop where
  depends : engine.DependsOn fun k => k ∉ engine.producers ∧ k ∉ changed
  before : engine.Solves inputs old
  after : engine.Solves (overlay inputs changed) new

theorem Changing.fact (h : Changing engine inputs changed old new) (hk : k ∉ engine.producers)
    (hchanged : k ∉ changed) : new[k]? = old[k]? := by
  rw [h.after.facts k hk, h.before.facts k hk, overlay_of_notMem inputs hchanged]

variable {id : ArtifactId}

theorem Changing.unchanged (h : Changing engine inputs changed old new)
    (hpreds : ∀ p, Edge engine.graph.forward p id → new[p]? = old[p]?) (hid : id ∉ changed) : new[id]? = old[id]? := by
  cases hf : engine.producers[id]? with
  | none =>
    have hfact : id ∉ engine.producers := by simpa using hf
    exact h.fact hfact hid
  | some f =>
    have hsame : f new = f old := by
      refine h.depends id f hf new old fun k hk => ?_
      rcases hk with hk | ⟨hk, hunchanged⟩
      · exact hpreds k hk
      · exact h.fact hk hunchanged
    obtain ⟨v, hv, hnew⟩ := h.after.produced id f hf
    obtain ⟨w, hw, hold⟩ := h.before.produced id f hf
    rw [hsame, hw] at hv
    rw [hnew, hold, hv]

structure Following (engine : RecomputeEngine ArtifactId Value) (changed old new : State ArtifactId Value)
    (dirty : Nodes ArtifactId) (done : List ArtifactId) (s : Pass ArtifactId Value) : Prop where
  settled : ∀ k ∈ done, s.state[k]? = new[k]?
  untouched : ∀ k, k ∉ done → s.state[k]? = (overlay old changed)[k]?
  untainted : ∀ k, k ∉ s.tainted
  boundary : ∀ k ∈ s.boundary, new[k]? = old[k]?
  unreached : ∀ k ∈ engine.producers, k ∈ done → k ∉ s.reachedIds → new[k]? = old[k]?
  reached : ∀ k ∈ s.reachedIds, k ∈ dirty ∧ k ∈ s.report.recomputed

def Propagates (engine : RecomputeEngine ArtifactId Value) (dirty : Nodes ArtifactId) (s : Pass ArtifactId Value)
    (p : ArtifactId) : Prop :=
  p ∉ s.boundary ∧ if p ∈ engine.producers then p ∈ s.reachedIds else p ∈ dirty

theorem reached_iff {changedIds dirty : Nodes ArtifactId} {s : Pass ArtifactId Value} :
    engine.reached changedIds dirty s id = true ↔
      id ∈ changedIds ∨ ∃ p, Edge engine.graph.forward p id ∧ Propagates engine dirty s p := by
  have hprop : ∀ p, ((!s.boundary.contains p &&
      if engine.producers.contains p then s.reachedIds.contains p else dirty.contains p) = true) ↔
        Propagates engine dirty s p := by
    intro p
    rw [Propagates, Bool.and_eq_true, Bool.not_eq_true', ← Bool.not_eq_true, Std.TreeSet.contains_iff_mem]
    by_cases hp : p ∈ engine.producers
    · have hcontains : engine.producers.contains p = true := hp
      rw [if_pos hp, if_pos hcontains, Std.TreeSet.contains_iff_mem]
    · have hcontains : ¬engine.producers.contains p = true := hp
      rw [if_neg hp, if_neg hcontains, Std.TreeSet.contains_iff_mem]
  simp only [reached, Bool.or_eq_true, any_eq_true, hprop, mem_predecessors, Std.TreeSet.contains_iff_mem]

section Visit
variable {dirty : Nodes ArtifactId} {done : List ArtifactId} {s : Pass ArtifactId Value}
variable (hchange : Changing engine inputs changed old new)
  (h : Following engine changed old new dirty done s)
include hchange h

theorem Following.unchanged_of_not_propagates (hdirty : ∀ k ∈ changed, k ∈ dirty) {p : ArtifactId} (hp : p ∈ done)
    (hstops : ¬Propagates engine dirty s p) : new[p]? = old[p]? := by
  rw [Propagates, not_and_or, not_not] at hstops
  rcases hstops with hboundary | hstops
  · exact h.boundary p hboundary
  · by_cases hproducer : p ∈ engine.producers
    · rw [if_pos hproducer] at hstops
      exact h.unreached p hproducer hp hstops
    · rw [if_neg hproducer] at hstops
      exact hchange.fact hproducer fun hk => hstops (hdirty p hk)

omit hchange in
theorem Following.leave (hid : id ∉ done) (hnew : (overlay old changed)[id]? = new[id]?)
    (hsame : id ∈ engine.producers → new[id]? = old[id]?) (cutOff : Nodes ArtifactId) :
    Following engine changed old new dirty (done ++ [id]) { s with report.cutOff := cutOff } := by
  refine ⟨fun k hk => ?_, fun k hk => ?_, h.untainted, h.boundary, fun k hk hdone hreached => ?_, h.reached⟩
  · rcases mem_append.mp hk with hk | hk
    · exact h.settled k hk
    · rw [mem_singleton.mp hk]
      exact (h.untouched id hid).trans hnew
  · exact h.untouched k fun hin => hk (mem_append_left [id] hin)
  · rcases mem_append.mp hdone with hdone | hdone
    · exact h.unreached k hk hdone hreached
    · rw [mem_singleton.mp hdone] at hk ⊢
      exact hsame hk

theorem Following.skip (hdirty : ∀ k ∈ changed, k ∈ dirty) (hid : id ∉ done) (hunchanged : id ∉ changed)
    (hpreds : ∀ p, Edge engine.graph.forward p id → p ∈ done ∧ ¬Propagates engine dirty s p)
    (cutOff : Nodes ArtifactId) :
    Following engine changed old new dirty (done ++ [id]) { s with report.cutOff := cutOff } := by
  have hsame : new[id]? = old[id]? := by
    refine hchange.unchanged (fun p hp => ?_) hunchanged
    exact h.unchanged_of_not_propagates hchange hdirty (hpreds p hp).1 (hpreds p hp).2
  exact h.leave hid ((overlay_of_notMem old hunchanged).trans hsame.symm) (fun _ => hsame) cutOff

theorem Following.fact (hid : id ∉ done) (hfact : id ∉ engine.producers) :
    Following engine changed old new dirty (done ++ [id]) s := by
  refine h.leave hid ?_ (fun hk => absurd hk hfact) s.report.cutOff
  rw [hchange.after.facts id hfact]
  exact overlay_congr (hchange.before.facts id hfact)

theorem Following.run {f : ProducerFn ArtifactId Value}
    (hf : engine.producers[id]? = some f) (hpreds : ∀ p, Edge engine.graph.forward p id → p ∈ done) :
    ∃ v, f s.state = some v ∧ new[id]? = some v := by
  have hsame : f s.state = f new := by
    refine hchange.depends id f hf _ _ fun k hk => ?_
    rcases hk with hk | ⟨hk, hunchanged⟩
    · exact h.settled k (hpreds k hk)
    · by_cases hdone : k ∈ done
      · exact h.settled k hdone
      · rw [h.untouched k hdone, overlay_of_notMem old hunchanged, hchange.fact hk hunchanged]
  obtain ⟨v, hv, hnew⟩ := hchange.after.produced id f hf
  exact ⟨v, hsame.trans hv, hnew⟩

omit hchange in
theorem Following.recompute {v : Value}
    (hdirty : id ∈ dirty) (hnew : new[id]? = some v) (boundary boundaryNodes : Nodes ArtifactId)
    (hboundary : ∀ k ∈ boundary, k ∈ s.boundary ∨ k = id ∧ old[id]? = some v) :
    Following engine changed old new dirty (done ++ [id])
      { s with
        state := s.state.insert id v, reachedIds := s.reachedIds.insert id, boundary
        report.recomputed := s.report.recomputed.insert id, report.boundaryNodes := boundaryNodes } := by
  refine ⟨fun k hk => ?_, fun k hk => ?_, h.untainted, fun k hk => ?_, fun k hk hdone hreached => ?_, fun k hk => ?_⟩
  · by_cases hself : k = id
    · rw [hself, hnew]
      exact Std.TreeMap.getElem?_insert_self
    · rcases mem_append.mp hk with hk | hk
      · exact (getElem?_insert_ne s.state hself v).trans (h.settled k hk)
      · exact absurd (mem_singleton.mp hk) hself
  · rw [mem_append, mem_singleton, not_or] at hk
    exact (getElem?_insert_ne s.state hk.2 v).trans (h.untouched k hk.1)
  · rcases hboundary k hk with hk | ⟨rfl, hold⟩
    · exact h.boundary k hk
    · rw [hnew, hold]
  · have hreached' : k ≠ id ∧ k ∉ s.reachedIds := by
      rw [← not_or]
      exact fun hin => hreached (mem_insert_iff.mpr hin)
    rcases mem_append.mp hdone with hdone | hdone
    · exact h.unreached k hk hdone hreached'.2
    · exact absurd (mem_singleton.mp hdone) hreached'.1
  · rcases mem_insert_iff.mp hk with rfl | hk
    · exact ⟨hdirty, mem_insert_iff.mpr (.inl rfl)⟩
    · exact ⟨(h.reached k hk).1, mem_insert_iff.mpr (.inr (h.reached k hk).2)⟩

theorem Following.visit {changedIds : Nodes ArtifactId}
    (hids : ∀ k, k ∈ changedIds ↔ k ∈ changed) (hdirty : ∀ k ∈ changed, k ∈ dirty)
    (hclosed : ∀ x y, x ∈ dirty → Edge engine.graph.forward x y → y ∈ dirty) (hid : id ∉ done)
    (hpreds : ∀ p, Edge engine.graph.forward p id → p ∈ done) :
    Following engine changed old new dirty (done ++ [id]) (engine.visit old changedIds dirty s id) := by
  unfold RecomputeEngine.visit
  by_cases hd : id ∈ dirty
  · rw [if_neg (not_not.mpr hd)]
    by_cases hreached : engine.reached changedIds dirty s id = true
    · have hclean : ((predecessors engine.graph.forward id).any fun p => s.tainted.contains p) = false := by
        rw [any_eq_false]
        intro p _
        exact h.untainted p
      simp only [hreached, Bool.not_true, Bool.false_eq_true, if_false, hclean]
      cases hf : engine.producers[id]? with
      | none =>
        have hfact : id ∉ engine.producers := by simpa using hf
        exact h.fact hchange hid hfact
      | some f =>
        obtain ⟨v, hv, hnew⟩ := h.run hchange hf hpreds
        simp only [hv, Bool.not_false, true_and]
        split_ifs with hequal
        · refine h.recompute hd hnew _ _ fun k hk => ?_
          rcases mem_insert_iff.mp hk with rfl | hk
          · exact .inr ⟨rfl, hequal⟩
          · exact .inl hk
        · exact h.recompute hd hnew _ _ fun k hk => .inl hk
    · -- an equality boundary upstream stops the pass here
      have hstops := mt reached_iff.mpr hreached
      rw [not_or, hids] at hstops
      have hskip : ∀ cutOff, Following engine changed old new dirty (done ++ [id]) { s with report.cutOff := cutOff } :=
        h.skip hchange hdirty hid hstops.1 fun p hp => ⟨hpreds p hp, fun hpass => hstops.2 ⟨p, hp, hpass⟩⟩
      simp only [hreached, Bool.not_false, if_true]
      split_ifs
      · exact hskip _
      · exact hskip s.report.cutOff
  · rw [if_pos hd]
    refine h.skip hchange hdirty hid (fun hin => hd (hdirty id hin)) (fun p hp => ⟨hpreds p hp, ?_⟩) s.report.cutOff
    have hp' : p ∉ dirty := fun hin => hd (hclosed p id hin hp)
    rintro ⟨-, hpass⟩
    split_ifs at hpass
    · exact hp' (h.reached p hpass).1
    · exact hp' hpass

end Visit

def finalPass (engine : RecomputeEngine ArtifactId Value) (old changed : State ArtifactId Value)
    (order : List ArtifactId) : Pass ArtifactId Value :=
  order.foldl (engine.visit old (Std.TreeSet.ofList changed.keys)
    (upwardClosure engine.graph.forward (Std.TreeSet.ofList changed.keys))) { state := overlay old changed }

variable {order : List ArtifactId}

theorem following_finalPass (hchange : Changing engine inputs changed old new)
    (horder : Dag.topologicalOrder engine.graph.forward = .ok order) :
    Following engine changed old new (upwardClosure engine.graph.forward (Std.TreeSet.ofList changed.keys)) order
      (engine.finalPass old changed order) := by
  have hids : ∀ k, k ∈ Std.TreeSet.ofList changed.keys ↔ k ∈ changed := by
    intro k
    rw [Std.TreeSet.mem_ofList, contains_iff_mem, Std.TreeMap.mem_keys]
  obtain ⟨hnodup, hordered, -⟩ := topologicalOrder_sound horder
  have hstart : Following engine changed old new
      (upwardClosure engine.graph.forward (Std.TreeSet.ofList changed.keys)) [] { state := overlay old changed } :=
    ⟨fun k hk => absurd hk not_mem_nil, fun k _ => rfl, fun k => Std.TreeSet.not_mem_emptyc,
      fun k hk => absurd hk Std.TreeSet.not_mem_emptyc, fun k _ hk => absurd hk not_mem_nil,
      fun k hk => absurd hk Std.TreeSet.not_mem_emptyc⟩
  refine hordered.foldl (fun done id s hs hid hpreds => ?_) hnodup hstart
  refine hs.visit hchange hids (fun k hk => ?_) (fun x y hx hedge => ?_) hid hpreds
  · exact mem_upwardClosure_of_mem _ _ ((hids k).mpr hk)
  · exact mem_upwardClosure_of_edge _ _ hx hedge

theorem incremental_of_changing (hchange : Changing engine inputs changed old new)
    (horder : Dag.topologicalOrder engine.graph.forward = .ok order) :
    ∃ incr report, engine.incrementalRecomputeWithReport old changed = .ok (incr, report) ∧
      (∀ id ∈ engine.producers, incr.state[id]? = new[id]?) ∧
      ∀ id ∈ engine.producers, old[id]? ≠ new[id]? → id ∈ incr.recomputed := by
  have hpass := following_finalPass hchange horder
  have hdone : ∀ id ∈ engine.producers, id ∈ order :=
    fun id hid => (topologicalOrder_sound horder).2.2 id (engine.registered id hid)
  have hrun : engine.incrementalRecomputeWithReport old changed =
      .ok (⟨(engine.finalPass old changed order).state, (engine.finalPass old changed order).report.recomputed⟩,
        (engine.finalPass old changed order).report) := by
    rw [incrementalRecomputeWithReport, topologicalOrder, horder]
    rfl
  refine ⟨_, _, hrun, fun id hid => hpass.settled id (hdone id hid), fun id hid hdiffers => ?_⟩
  by_contra hmissing
  have hunreached := mt (fun hin => (hpass.reached id hin).2) hmissing
  exact hdiffers (hpass.unreached id hid (hdone id hid) hunreached).symm

end Pass

/-- Incremental recomputation equals a full rebuild, where each producer depends on its predecessors and on facts that
did not change. -/
theorem incremental_equals_full [DecidableEq Value] (engine : RecomputeEngine ArtifactId Value)
    (inputs changed : State ArtifactId Value)
    (hdepends : engine.DependsOn fun k => k ∉ engine.producers ∧ k ∉ changed)
    (base full : RecomputeResult ArtifactId Value) (hbase : engine.fullRecompute inputs = .ok base)
    (hfull : engine.fullRecompute (overlay inputs changed) = .ok full) :
    ∃ incr report, engine.incrementalRecomputeWithReport base.state changed = .ok (incr, report) ∧
      (∀ id ∈ engine.producers, incr.state[id]? = full.state[id]?) ∧
      ∀ id ∈ engine.producers, base.state[id]? ≠ full.state[id]? → id ∈ incr.recomputed := by
  obtain ⟨⟨order, horder⟩, hbefore⟩ := fullRecompute_solves hdepends (fun k hk => hk.1) hbase
  obtain ⟨-, hafter⟩ := fullRecompute_solves hdepends (fun k hk => hk.1) hfull
  exact incremental_of_changing ⟨hdepends, hbefore, hafter⟩ horder

section Examples

def diamond : RecomputeEngine ℕ ℕ :=
  let graph : DependencyGraph ℕ := ⟨.exactSupport, ∅⟩
  let graph := (((graph.addDependency 0 1).addDependency 0 2).addDependency 1 3).addDependency 2 3
  (((RecomputeEngine.new graph).registerProducer 1 fun s => s[0]?.map (· % 2)).registerProducer 2 fun s =>
    s[0]?.map (· + 1)).registerProducer 3 fun s => do return (← s[1]?) + (← s[2]?)

def unlinked : RecomputeEngine ℕ ℕ :=
  (RecomputeEngine.new ⟨.exactSupport, ∅⟩).registerProducer 1 fun s => s[0]?

def single (n : ℕ) : State ℕ ℕ := (∅ : State ℕ ℕ).insert 0 n

theorem diamond_depends : diamond.DependsOn fun k => k ∉ diamond.producers ∧ k ∉ single 6 := by
  intro id f hf s t hsame
  have hmem : (id, f) ∈ diamond.producers.toList := Std.TreeMap.mem_toList_iff_getElem?_eq_some.mpr hf
  have hlist : diamond.producers.toList = [(1, fun s => s[0]?.map (· % 2)), (2, fun s => s[0]?.map (· + 1)),
      (3, fun s => do return (← s[1]?) + (← s[2]?))] := rfl
  simp only [hlist, mem_cons, not_mem_nil, or_false, Prod.mk.injEq] at hmem
  have hedge : ∀ k, k ∈ predecessors diamond.graph.forward id → s[k]? = t[k]? :=
    fun k hk => hsame k (.inl (mem_predecessors.mp hk))
  rcases hmem with ⟨rfl, rfl⟩ | ⟨rfl, rfl⟩ | ⟨rfl, rfl⟩
  · show s[0]?.map _ = t[0]?.map _
    rw [hedge 0 (by decide +kernel)]
  · show s[0]?.map _ = t[0]?.map _
    rw [hedge 0 (by decide +kernel)]
  · show (do return (← s[1]?) + (← s[2]?)) = (do return (← t[1]?) + (← t[2]?) : Option ℕ)
    rw [hedge 1 (by decide +kernel), hedge 2 (by decide +kernel)]

theorem diamond_incremental : ∃ base full incr report,
    diamond.fullRecompute (single 4) = .ok base ∧ diamond.fullRecompute (overlay (single 4) (single 6)) = .ok full ∧
      diamond.incrementalRecomputeWithReport base.state (single 6) = .ok (incr, report) ∧
      ∀ id ∈ diamond.producers, incr.state[id]? = full.state[id]? := by
  have hok : (diamond.fullRecompute (single 4)).isOk = true ∧
      (diamond.fullRecompute (overlay (single 4) (single 6))).isOk = true := by decide +kernel
  cases hbase : diamond.fullRecompute (single 4) with
  | error e =>
    rw [hbase] at hok
    cases hok.1
  | ok base =>
    cases hfull : diamond.fullRecompute (overlay (single 4) (single 6)) with
    | error e =>
      rw [hfull] at hok
      cases hok.2
    | ok full =>
      obtain ⟨incr, report, hincr, hsame, -⟩ :=
        incremental_equals_full diamond (single 4) (single 6) diamond_depends base full hbase hfull
      exact ⟨base, full, incr, report, rfl, rfl, hincr, hsame⟩

/-- A fact that changes under a producer without an edge to it goes unnoticed. -/
theorem unlinked_fact_missed : (unlinked.DependsOn fun k => k ∉ unlinked.producers) ∧
    (do
      let base ← unlinked.fullRecompute (single 5)
      let full ← unlinked.fullRecompute (overlay (single 5) (single 6))
      let incr ← unlinked.incrementalRecomputeWithReport base.state (single 6)
      Except.ok (incr.1.state[1]?, full.state[1]?, incr.1.recomputed.toList)) = .ok (some 5, some 6, []) := by
  refine ⟨fun id f hf s t hsame => ?_, by decide +kernel⟩
  have hmem : (id, f) ∈ unlinked.producers.toList := Std.TreeMap.mem_toList_iff_getElem?_eq_some.mpr hf
  have hlist : unlinked.producers.toList = [(1, fun s => s[0]?)] := rfl
  simp only [hlist, mem_cons, not_mem_nil, or_false, Prod.mk.injEq] at hmem
  obtain ⟨rfl, rfl⟩ := hmem
  exact hsame 0 (.inr (by decide +kernel))

end Examples
end RecomputeEngine
end Zero.Invalidation
