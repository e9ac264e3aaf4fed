import ZeroStack.Invalidation.Engine
import ZeroStack.Wire.Reader

/-! A full rebuild that ends solves the producers' equations: the first round resolves every producer behind its
predecessors, or one of them can never give a value. -/

open Dag Wire List

set_option linter.unusedSectionVars false

namespace Zero.Invalidation

variable {ArtifactId Value : Type} [Ord ArtifactId] [Std.TransOrd ArtifactId] [Std.LawfulEqOrd ArtifactId]
  [DecidableEq ArtifactId]

section Entries

theorem getElem?_insert_ne (state : State ArtifactId Value) {k id : ArtifactId} (h : k ≠ id) (v : Value) :
    (state.insert id v)[k]? = state[k]? := by
  have hne : ¬compare id k = .eq := fun heq => h (Std.LawfulEqCmp.compare_eq_iff_eq.mp heq).symm
  rw [Std.TreeMap.getElem?_insert, if_neg hne]

theorem mem_erase_iff {pending : Nodes ArtifactId} {k id : ArtifactId} :
    k ∈ pending.erase id ↔ k ≠ id ∧ k ∈ pending := by
  rw [Std.TreeSet.mem_erase, ne_eq, Std.LawfulEqCmp.compare_eq_iff_eq, eq_comm]

theorem mem_of_getElem? {producers : Producers ArtifactId Value} {id : ArtifactId} {f : ProducerFn ArtifactId Value}
    (h : producers[id]? = some f) : id ∈ producers := by
  rw [Std.TreeMap.mem_iff_isSome_getElem?, h]
  rfl

end Entries

namespace RecomputeEngine
variable (engine : RecomputeEngine ArtifactId Value)

def DependsOn (facts : ArtifactId → Prop) : Prop :=
  ∀ (id : ArtifactId) (f : ProducerFn ArtifactId Value), engine.producers[id]? = some f →
    ∀ s t : State ArtifactId Value,
    (∀ k, Edge engine.graph.forward k id ∨ facts k → s[k]? = t[k]?) → f s = f t

structure Solves (inputs state : State ArtifactId Value) : Prop where
  facts : ∀ k, k ∉ engine.producers → state[k]? = inputs[k]?
  produced : ∀ (id : ArtifactId) (f : ProducerFn ArtifactId Value), engine.producers[id]? = some f →
    ∃ v, f state = some v ∧ state[id]? = some v

def Blocked (s : Rebuild ArtifactId Value) : Prop :=
  ∃ id f, engine.producers[id]? = some f ∧ id ∈ s.pending ∧ f s.state = none ∧
    ∀ p, Edge engine.graph.forward p id → p ∉ s.pending

structure Building (inputs : State ArtifactId Value) (s : Rebuild ArtifactId Value) : Prop where
  pending : ∀ k ∈ s.pending, k ∈ engine.producers
  facts : ∀ k, k ∉ engine.producers → s.state[k]? = inputs[k]?
  resolved : ∀ (id : ArtifactId) (f : ProducerFn ArtifactId Value), engine.producers[id]? = some f → id ∉ s.pending →
    (∃ v, f s.state = some v ∧ s.state[id]? = some v) ∧ ∀ p, Edge engine.graph.forward p id → p ∉ s.pending

variable {engine}

variable {s s' : Rebuild ArtifactId Value}

theorem tryProducer_cases {id : ArtifactId} (h : engine.tryProducer s id = .ok s') : (id ∉ s.pending ∧ s' = s) ∨
      ∃ f, engine.producers[id]? = some f ∧ id ∈ s.pending ∧ ((f s.state = none ∧ s' = s) ∨ ∃ v, f s.state = some v ∧
            s' = { state := s.state.insert id v, recomputed := s.recomputed.insert id, pending := s.pending.erase id,
                   progressed := true }) := by
  rw [tryProducer] at h
  by_cases hpending : id ∈ s.pending
  · rw [if_neg (not_not.mpr hpending)] at h
    cases hf : engine.producers[id]? with
    | none =>
      rw [hf] at h
      cases h
    | some f =>
      simp only [hf] at h
      cases hv : f s.state with
      | none =>
        rw [hv] at h
        cases h
        exact .inr ⟨f, rfl, hpending, .inl ⟨hv, rfl⟩⟩
      | some v =>
        rw [hv] at h
        cases h
        exact .inr ⟨f, rfl, hpending, .inr ⟨v, hv, rfl⟩⟩
  · rw [if_pos hpending] at h
    cases h
    exact .inl ⟨hpending, rfl⟩

variable {ids : List ArtifactId}

theorem rebuildLoop_done (rounds : ℕ) {s : Rebuild ArtifactId Value}
    (h : s.pending.toList = []) : engine.rebuildLoop ids rounds s = .ok ⟨s.state, s.recomputed⟩ := by
  cases rounds <;> rw [rebuildLoop, h]

theorem rebuildLoop_round {rounds : ℕ} {s : Rebuild ArtifactId Value}
    {r : RecomputeResult ArtifactId Value} (hpending : s.pending.toList ≠ [])
    (h : engine.rebuildLoop ids rounds s = .ok r) :
    ∃ fewer s', rounds = fewer + 1 ∧ ids.foldlM engine.tryProducer { s with progressed := false } = .ok s' ∧
      engine.rebuildLoop ids fewer s' = .ok r := by
  cases hlist : s.pending.toList with
  | nil => exact absurd hlist hpending
  | cons stuck rest =>
    cases rounds with
    | zero =>
      rw [rebuildLoop, hlist] at h
      cases h
    | succ rounds =>
      rw [rebuildLoop, hlist] at h
      simp only [bind_eq_ok] at h
      obtain ⟨s', hs', hnext⟩ := h
      refine ⟨rounds, s', rfl, hs', ?_⟩
      split at hnext
      · cases hnext
      · exact hnext

section Depends
variable {facts : ArtifactId → Prop} (hdepends : engine.DependsOn facts) (hfacts : ∀ k, facts k → k ∉ engine.producers)
include hdepends hfacts

theorem producer_insert {j id : ArtifactId} {f : ProducerFn ArtifactId Value} (hj : engine.producers[j]? = some f)
    (hid : id ∈ engine.producers) (hedge : ¬Edge engine.graph.forward id j)
    (state : State ArtifactId Value) (v : Value) :
    f (state.insert id v) = f state := by
  refine hdepends j f hj _ _ fun k hk => getElem?_insert_ne state ?_ v
  rintro rfl
  rcases hk with hk | hk
  · exact hedge hk
  · exact hfacts k hk hid

theorem Blocked.tryProducer (hblocked : engine.Blocked s) {j : ArtifactId}
    (h : engine.tryProducer s j = .ok s') : engine.Blocked s' := by
  obtain ⟨id, f, hf, hpending, hnone, hpreds⟩ := hblocked
  rcases tryProducer_cases h with ⟨-, rfl⟩ | ⟨f', hf', hj, ⟨-, rfl⟩ | ⟨v, hv, rfl⟩⟩
  · exact ⟨id, f, hf, hpending, hnone, hpreds⟩
  · exact ⟨id, f, hf, hpending, hnone, hpreds⟩
  · have hne : id ≠ j := by
      rintro rfl
      rw [hf, Option.some.injEq] at hf'
      rw [← hf', hnone] at hv
      cases hv
    have hedge : ¬Edge engine.graph.forward j id := fun hedge => hpreds j hedge hj
    refine ⟨id, f, hf, mem_erase_iff.mpr ⟨hne, hpending⟩, ?_, fun p hp hin => ?_⟩
    · rw [producer_insert hdepends hfacts hf (mem_of_getElem? hf') hedge]
      exact hnone
    · exact hpreds p hp (mem_erase_iff.mp hin).2

theorem Blocked.foldlM (hblocked : engine.Blocked s)
    (h : ids.foldlM engine.tryProducer s = .ok s') : engine.Blocked s' := by
  induction ids generalizing s with
  | nil =>
    cases h
    exact hblocked
  | cons id ids ih =>
    rw [foldlM_cons, bind_eq_ok] at h
    obtain ⟨m, hm, hrest⟩ := h
    exact ih (hblocked.tryProducer hdepends hfacts hm) hrest

theorem Blocked.rebuildLoop (rounds : ℕ) {s : Rebuild ArtifactId Value}
    (hblocked : engine.Blocked s) (r : RecomputeResult ArtifactId Value) : engine.rebuildLoop ids rounds s ≠ .ok r := by
  intro h
  have hpending : s.pending.toList ≠ [] := by
    obtain ⟨id, f, hf, hin, -⟩ := hblocked
    exact ne_nil_of_mem (Std.TreeSet.mem_toList.mpr hin)
  obtain ⟨fewer, s', rfl, hround, hrest⟩ := rebuildLoop_round hpending h
  have hsame : engine.Blocked { s with progressed := false } := hblocked
  exact Blocked.rebuildLoop fewer (hsame.foldlM hdepends hfacts hround) r hrest

variable {inputs : State ArtifactId Value}

theorem Building.tryProducer {id : ArtifactId}
    (hbuild : engine.Building inputs s) (hpreds : ∀ p, Edge engine.graph.forward p id → p ∉ s.pending)
    (h : engine.tryProducer s id = .ok s') :
    engine.Blocked s' ∨ engine.Building inputs s' ∧ id ∉ s'.pending ∧ ∀ k ∉ s.pending, k ∉ s'.pending := by
  rcases tryProducer_cases h with ⟨hdone, rfl⟩ | ⟨f, hf, hpending, ⟨hnone, rfl⟩ | ⟨v, hv, rfl⟩⟩
  · exact .inr ⟨hbuild, hdone, fun k hk => hk⟩
  · exact .inl ⟨id, f, hf, hpending, hnone, hpreds⟩
  · have hid : id ∈ engine.producers := mem_of_getElem? hf
    refine .inr ⟨⟨fun k hk => hbuild.pending k (mem_erase_iff.mp hk).2, fun k hk => ?_, fun j g hj hdone => ?_⟩, ?_, ?_⟩
    · have hne : k ≠ id := by
        rintro rfl
        exact hk hid
      exact (getElem?_insert_ne s.state hne v).trans (hbuild.facts k hk)
    · by_cases hj' : j = id
      · subst hj'
        rw [hf, Option.some.injEq] at hj
        subst hj
        have hself : ¬Edge engine.graph.forward j j := fun hedge => hpreds j hedge hpending
        refine ⟨⟨v, ?_, Std.TreeMap.getElem?_insert_self⟩, fun p hp hin => hpreds p hp (mem_erase_iff.mp hin).2⟩
        rw [producer_insert hdepends hfacts hf hid hself]
        exact hv
      · have hresolved : j ∉ s.pending := fun hin => hdone (mem_erase_iff.mpr ⟨hj', hin⟩)
        obtain ⟨⟨w, hw, hget⟩, hafter⟩ := hbuild.resolved j g hj hresolved
        have hedge : ¬Edge engine.graph.forward id j := fun hedge => hafter id hedge hpending
        refine ⟨⟨w, ?_, ?_⟩, fun p hp hin => hafter p hp (mem_erase_iff.mp hin).2⟩
        · rw [producer_insert hdepends hfacts hj hid hedge]
          exact hw
        · exact (getElem?_insert_ne s.state hj' v).trans hget
    · exact fun hin => (mem_erase_iff.mp hin).1 rfl
    · exact fun k hk hin => hk (mem_erase_iff.mp hin).2

theorem Building.foldlM {done order : List ArtifactId} (horder : Ordered (Edge engine.graph.forward) done order)
    (hbuild : engine.Building inputs s) (hdone : ∀ k ∈ done, k ∉ s.pending)
    (h : (order.filter fun id => engine.producers.contains id).foldlM engine.tryProducer s = .ok s') :
    engine.Blocked s' ∨ engine.Building inputs s' ∧ ∀ k ∈ done ++ order, k ∉ s'.pending := by
  induction order generalizing done s with
  | nil =>
    cases h
    rw [append_nil]
    exact .inr ⟨hbuild, hdone⟩
  | cons id order ih =>
    obtain ⟨hpreds, hrest⟩ := horder
    by_cases hproducer : engine.producers.contains id = true
    · rw [filter_cons_of_pos hproducer, foldlM_cons, bind_eq_ok] at h
      obtain ⟨m, hm, hnext⟩ := h
      rcases hbuild.tryProducer hdepends hfacts (fun p hp => hdone p (hpreds p hp)) hm with
        hblocked | ⟨hbuild', hid, hkept⟩
      · exact .inl (hblocked.foldlM hdepends hfacts hnext)
      · have hdone' : ∀ k ∈ done ++ [id], k ∉ m.pending :=
          forall_mem_append.mpr ⟨fun k hk => hkept k (hdone k hk), forall_mem_singleton.mpr hid⟩
        have hall := ih hrest hbuild' hdone' hnext
        rwa [append_assoc, singleton_append] at hall
    · rw [filter_cons_of_neg hproducer] at h
      have hdone' : ∀ k ∈ done ++ [id], k ∉ s.pending := forall_mem_append.mpr
        ⟨hdone, forall_mem_singleton.mpr fun hin => hproducer (hbuild.pending id hin)⟩
      have hall := ih hrest hbuild hdone' h
      rwa [append_assoc, singleton_append] at hall

omit hdepends hfacts in
theorem Building.solves {s : Rebuild ArtifactId Value}
    (hbuild : engine.Building inputs s) (hempty : ∀ k ∈ engine.producers, k ∉ s.pending) :
    engine.Solves inputs s.state :=
  ⟨hbuild.facts, fun id f hf => (hbuild.resolved id f hf (hempty id (mem_of_getElem? hf))).1⟩

omit hdepends hfacts in
theorem building_start (inputs : State ArtifactId Value) (recomputed : Nodes ArtifactId) (progressed : Bool) :
    engine.Building inputs ⟨inputs, recomputed, Std.TreeSet.ofList engine.producers.keys, progressed⟩ := by
  have hpending : ∀ k, k ∈ Std.TreeSet.ofList engine.producers.keys ↔ k ∈ engine.producers := by
    intro k
    rw [Std.TreeSet.mem_ofList, contains_iff_mem, Std.TreeMap.mem_keys]
  refine ⟨fun k hk => (hpending k).mp hk, fun k hk => rfl, fun id f hf hdone => ?_⟩
  exact absurd ((hpending id).mpr (mem_of_getElem? hf)) hdone

omit hdepends hfacts in
theorem schedule_eq {order : List ArtifactId} (hall : ∀ k ∈ engine.graph.forward, k ∈ order) :
    engine.schedule order = order.filter fun id => engine.producers.contains id := by
  have hkept : ∀ ids : List ArtifactId, (∀ id ∈ ids, id ∈ engine.producers) →
      ids.foldl (fun schedule id => if id ∈ schedule then schedule else schedule ++ [id])
        (order.filter fun id => engine.producers.contains id) =
          order.filter fun id => engine.producers.contains id := by
    intro ids hids
    induction ids with
    | nil => rfl
    | cons id ids ih =>
      obtain ⟨hid, hrest⟩ := forall_mem_cons.mp hids
      have hin : id ∈ order.filter fun id => engine.producers.contains id :=
        mem_filter.mpr ⟨hall id (engine.registered id hid), hid⟩
      rw [foldl_cons, if_pos hin]
      exact ih hrest
  exact hkept _ fun id hid => Std.TreeMap.mem_keys.mp hid

theorem fullRecompute_solves {r : RecomputeResult ArtifactId Value} (h : engine.fullRecompute inputs = .ok r) :
    (∃ order, Dag.topologicalOrder engine.graph.forward = .ok order) ∧ engine.Solves inputs r.state := by
  rw [fullRecompute, bind_eq_ok] at h
  obtain ⟨order, horder, hloop⟩ := h
  have hsorted : Dag.topologicalOrder engine.graph.forward = .ok order := by
    rw [topologicalOrder] at horder
    cases hkahn : Dag.topologicalOrder engine.graph.forward with
    | error nodes =>
      rw [hkahn] at horder
      cases horder
    | ok found =>
      rw [hkahn] at horder
      cases horder
      rfl
  refine ⟨⟨order, hsorted⟩, ?_⟩
  obtain ⟨-, hordered, hall⟩ := topologicalOrder_sound hsorted
  rw [schedule_eq hall] at hloop
  by_cases hnone : (Std.TreeSet.ofList engine.producers.keys).toList = []
  · rw [rebuildLoop_done _ hnone] at hloop
    cases hloop
    refine (building_start inputs ∅ false).solves fun k _ hin => ?_
    have hmem := Std.TreeSet.mem_toList.mpr hin
    rw [hnone] at hmem
    cases hmem
  · obtain ⟨fewer, s', -, hround, hrest⟩ := rebuildLoop_round hnone hloop
    rcases (building_start inputs ∅ false).foldlM hdepends hfacts hordered (fun k hk => absurd hk not_mem_nil)
      hround with hblocked | ⟨hbuild, hdone⟩
    · exact absurd hrest (hblocked.rebuildLoop hdepends hfacts fewer r)
    · have hresolved : ∀ k ∈ engine.producers, k ∉ s'.pending :=
        fun k hk => hdone k (mem_append_right [] (hall k (engine.registered k hk)))
      have hempty : s'.pending.toList = [] := by
        refine eq_nil_iff_forall_not_mem.mpr fun k hk => ?_
        have hin := Std.TreeSet.mem_toList.mp hk
        exact hresolved k (hbuild.pending k hin) hin
      rw [rebuildLoop_done fewer hempty] at hrest
      cases hrest
      exact hbuild.solves hresolved

end Depends

end RecomputeEngine
end Zero.Invalidation
