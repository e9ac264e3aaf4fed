import ZeroStack.Dag.Order

/-! The recompute engine: the full rebuild tries the producers until each has given a value; the incremental pass
follows the closure of the changed inputs and stops where a value comes out as it was. -/

open Dag

namespace Zero.Invalidation

inductive InfluenceClass where
  | exactSupport
  | soundOverapproximation
  | heuristic
  deriving DecidableEq

inductive InvalidationError (ArtifactId : Type) where
  | cycle (nodes : List ArtifactId)
  | unprotectedInfluence (influence : InfluenceClass)
  | missingProducer (id : ArtifactId)
  | equivalenceDivergence (id : ArtifactId)
  deriving DecidableEq

section Model
variable {ArtifactId Value : Type} [Ord ArtifactId]

abbrev State (ArtifactId Value : Type) [Ord ArtifactId] := Std.TreeMap ArtifactId Value

structure DependencyGraph (ArtifactId : Type) [Ord ArtifactId] where
  influence : InfluenceClass
  forward : Adjacency ArtifactId

def DependencyGraph.addDependency (graph : DependencyGraph ArtifactId) (input output : ArtifactId) :
    DependencyGraph ArtifactId :=
  let forward := graph.forward.insert input ((graph.forward.getD input ∅).insert output)
  { graph with forward := forward.insert output (forward.getD output ∅) }

def DependencyGraph.ensureNode (graph : DependencyGraph ArtifactId) (id : ArtifactId) : DependencyGraph ArtifactId :=
  { graph with forward := graph.forward.insert id (graph.forward.getD id ∅) }

abbrev ProducerFn (ArtifactId Value : Type) [Ord ArtifactId] := State ArtifactId Value → Option Value

abbrev Producers (ArtifactId Value : Type) [Ord ArtifactId] := Std.TreeMap ArtifactId (ProducerFn ArtifactId Value)

structure RecomputeEngine (ArtifactId Value : Type) [Ord ArtifactId] where
  graph : DependencyGraph ArtifactId
  producers : Producers ArtifactId Value
  registered : ∀ id ∈ producers, id ∈ graph.forward

structure RecomputeResult (ArtifactId Value : Type) [Ord ArtifactId] where
  state : State ArtifactId Value
  recomputed : Nodes ArtifactId

structure CutoffReport (ArtifactId : Type) [Ord ArtifactId] where
  recomputed : Nodes ArtifactId := ∅
  cutOff : Nodes ArtifactId := ∅
  boundaryNodes : Nodes ArtifactId := ∅

structure Rebuild (ArtifactId Value : Type) [Ord ArtifactId] where
  state : State ArtifactId Value
  recomputed : Nodes ArtifactId
  pending : Nodes ArtifactId
  progressed : Bool

structure Pass (ArtifactId Value : Type) [Ord ArtifactId] where
  state : State ArtifactId Value
  report : CutoffReport ArtifactId := {}
  boundary : Nodes ArtifactId := ∅
  tainted : Nodes ArtifactId := ∅
  reachedIds : Nodes ArtifactId := ∅

namespace RecomputeEngine

def new (graph : DependencyGraph ArtifactId) : RecomputeEngine ArtifactId Value where
  graph := graph
  producers := ∅
  registered := fun _ h => absurd h Std.TreeMap.not_mem_emptyc

def registerProducer [Std.TransOrd ArtifactId] (engine : RecomputeEngine ArtifactId Value) (id : ArtifactId)
    (f : ProducerFn ArtifactId Value) : RecomputeEngine ArtifactId Value where
  graph := engine.graph.ensureNode id
  producers := engine.producers.insert id f
  registered := by
    intro k hk
    show k ∈ engine.graph.forward.insert id _
    rw [Std.TreeMap.mem_insert] at hk ⊢
    exact hk.imp_right (engine.registered k)

variable [DecidableEq ArtifactId] (engine : RecomputeEngine ArtifactId Value)

def topologicalOrder : Except (InvalidationError ArtifactId) (List ArtifactId) :=
  (Dag.topologicalOrder engine.graph.forward).mapError .cycle

def tryProducer (s : Rebuild ArtifactId Value) (id : ArtifactId) :
    Except (InvalidationError ArtifactId) (Rebuild ArtifactId Value) :=
  if id ∉ s.pending then .ok s
  else match engine.producers[id]? with
    | none => .error (.missingProducer id)
    | some prod =>
      match prod s.state with
      | some value => .ok
        { state := s.state.insert id value, recomputed := s.recomputed.insert id, pending := s.pending.erase id,
          progressed := true }
      | none => .ok s

def schedule (engine : RecomputeEngine ArtifactId Value) (order : List ArtifactId) : List ArtifactId :=
  engine.producers.keys.foldl (fun schedule id => if id ∈ schedule then schedule else schedule ++ [id])
    (order.filter fun id => engine.producers.contains id)

def rebuildLoop (engine : RecomputeEngine ArtifactId Value) (schedule : List ArtifactId) :
    ℕ → Rebuild ArtifactId Value → Except (InvalidationError ArtifactId) (RecomputeResult ArtifactId Value)
  | rounds, s =>
    match s.pending.toList with
    | [] => .ok ⟨s.state, s.recomputed⟩
    | stuck :: _ =>
      match rounds with
      | 0 => .error (.missingProducer stuck)
      | rounds + 1 => do
        let s ← schedule.foldlM engine.tryProducer { s with progressed := false }
        match s.progressed, s.pending.toList with
        | false, stuck :: _ => .error (.missingProducer stuck)
        | _, _ => engine.rebuildLoop schedule rounds s

def fullRecompute (inputs : State ArtifactId Value) :
    Except (InvalidationError ArtifactId) (RecomputeResult ArtifactId Value) := do
  let order ← engine.topologicalOrder
  engine.rebuildLoop (engine.schedule order) (engine.producers.size + 2)
    { state := inputs, recomputed := ∅, pending := Std.TreeSet.ofList engine.producers.keys, progressed := false }

def overlay (state changedInputs : State ArtifactId Value) : State ArtifactId Value :=
  changedInputs.toList.foldl (fun state entry => state.insert entry.1 entry.2) state

def reached (changed dirty : Nodes ArtifactId) (s : Pass ArtifactId Value) (id : ArtifactId) : Bool :=
  changed.contains id || (predecessors engine.graph.forward id).any fun p =>
    !s.boundary.contains p && if engine.producers.contains p then s.reachedIds.contains p else dirty.contains p

variable [DecidableEq Value]

def visit (engine : RecomputeEngine ArtifactId Value) (oldState : State ArtifactId Value)
    (changed dirty : Nodes ArtifactId) (s : Pass ArtifactId Value) (id : ArtifactId) : Pass ArtifactId Value :=
  if id ∉ dirty then s
  else if !engine.reached changed dirty s id then
    if engine.producers.contains id then { s with report.cutOff := s.report.cutOff.insert id } else s
  else
    let inputsTainted := (predecessors engine.graph.forward id).any fun p => s.tainted.contains p
    let tainted := if inputsTainted then s.tainted.insert id else s.tainted
    match engine.producers[id]? with
    | none => { s with tainted }
    | some prod =>
      let reachedIds := s.reachedIds.insert id
      match prod s.state with
      | some value =>
        let state := s.state.insert id value
        let recomputed := s.report.recomputed.insert id
        if !inputsTainted ∧ oldState[id]? = some value then
          { s with
            state, reachedIds, tainted, report.recomputed := recomputed, boundary := s.boundary.insert id,
            report.boundaryNodes := s.report.boundaryNodes.insert id }
        else { s with state, reachedIds, tainted, report.recomputed := recomputed }
      | none => { s with reachedIds, tainted := tainted.insert id }

def incrementalRecomputeWithReport (engine : RecomputeEngine ArtifactId Value)
    (oldState changedInputs : State ArtifactId Value) :
    Except (InvalidationError ArtifactId) (RecomputeResult ArtifactId Value × CutoffReport ArtifactId) := do
  let changed := Std.TreeSet.ofList changedInputs.keys
  let dirty := upwardClosure engine.graph.forward changed
  let order ← engine.topologicalOrder
  let s := order.foldl (engine.visit oldState changed dirty) { state := overlay oldState changedInputs }
  .ok (⟨s.state, s.report.recomputed⟩, s.report)

end RecomputeEngine
end Model
end Zero.Invalidation
