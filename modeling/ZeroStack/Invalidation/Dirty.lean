import ZeroStack.Invalidation.Engine

/-! `dirty.rs`: what a journal of changes makes dirty, by the recorded closures of the results and by the influence
graph. The closures are looked at once, before the graph is followed. -/

open Dag

namespace Zero.Invalidation

section Model
variable {ArtifactId Bookmark : Type} [Ord ArtifactId]

structure JournalEvent (ArtifactId : Type) where
  artifact : ArtifactId
  renameTarget : Option ArtifactId

structure DependencyClosureRecord (ArtifactId : Type) [Ord ArtifactId] where
  artifact : ArtifactId
  consulted : Nodes ArtifactId

structure InvalidationCertificate (ArtifactId : Type) [Ord ArtifactId] where
  influence : InfluenceClass
  changed : Nodes ArtifactId
  invalidated : Nodes ArtifactId
  isUpwardClosure : Bool

structure DirtyReport (ArtifactId Bookmark : Type) [Ord ArtifactId] where
  since : Bookmark
  journalChanged : Nodes ArtifactId
  dirtyArtifacts : Nodes ArtifactId
  certificate : InvalidationCertificate ArtifactId

def journalChangedSet (events : List (JournalEvent ArtifactId)) : Nodes ArtifactId :=
  events.foldl (fun out e => (out.insert e.artifact).insertMany e.renameTarget.toList) ∅

def dirtyFromClosure (closures : List (DependencyClosureRecord ArtifactId)) (journalChanged : Nodes ArtifactId) :
    Nodes ArtifactId :=
  closures.foldl (fun dirty rec =>
    if rec.consulted.toList.any journalChanged.contains then dirty.insert rec.artifact else dirty) ∅

def DependencyGraph.certifyInvalidation (graph : DependencyGraph ArtifactId) (changed : Nodes ArtifactId) :
    InvalidationCertificate ArtifactId :=
  ⟨graph.influence, changed, upwardClosure graph.forward changed, true⟩

def dirtySince (since : Bookmark) (events : List (JournalEvent ArtifactId))
    (closures : List (DependencyClosureRecord ArtifactId)) (influence : DependencyGraph ArtifactId) :
    DirtyReport ArtifactId Bookmark :=
  let journalChanged := journalChangedSet events
  let dirty := (dirtyFromClosure closures journalChanged).insertMany journalChanged.toList
  let certificate := influence.certifyInvalidation dirty
  ⟨since, journalChanged, certificate.invalidated, certificate⟩

section Reached
variable (changed : Nodes ArtifactId) (closures : List (DependencyClosureRecord ArtifactId))
  (influence : DependencyGraph ArtifactId)

def Seed (k : ArtifactId) : Prop :=
  k ∈ changed ∨ ∃ rec ∈ closures, rec.artifact = k ∧ ∃ fact ∈ rec.consulted, fact ∈ changed

def Reached (k : ArtifactId) : Prop :=
  ∃ seed, Seed changed closures seed ∧ Relation.ReflTransGen (Edge influence.forward) seed k

/-- A result that consulted no changed fact, but one which the influence edges reach, while no edge leads on to the
result. -/
structure Stranded (rec : DependencyClosureRecord ArtifactId) : Prop where
  unchanged : ∀ fact ∈ rec.consulted, fact ∉ changed
  consulted : ∃ fact ∈ rec.consulted, Reached changed closures influence fact
  result : ¬ Reached changed closures influence rec.artifact

end Reached
end Model

section Completeness
variable {ArtifactId Bookmark : Type} [Ord ArtifactId] [Std.TransOrd ArtifactId] [Std.LawfulEqOrd ArtifactId]

theorem mem_dirtyFromClosure {closures : List (DependencyClosureRecord ArtifactId)} {changed : Nodes ArtifactId}
    {k : ArtifactId} : k ∈ dirtyFromClosure closures changed ↔
      ∃ rec ∈ closures, rec.artifact = k ∧ ∃ fact ∈ rec.consulted, fact ∈ changed := by
  have hloop : ∀ dirty : Nodes ArtifactId, k ∈ closures.foldl (fun dirty rec =>
      if rec.consulted.toList.any changed.contains then dirty.insert rec.artifact else dirty) dirty ↔
        k ∈ dirty ∨ ∃ rec ∈ closures, rec.artifact = k ∧ ∃ fact ∈ rec.consulted, fact ∈ changed := by
    induction closures with
    | nil => simp
    | cons rec closures ih =>
      intro dirty
      have hany : rec.consulted.toList.any changed.contains = true ↔ ∃ fact ∈ rec.consulted, fact ∈ changed := by
        simp [Std.TreeSet.mem_toList]
      rw [List.foldl_cons, ih]
      split_ifs with hhit
      · simp only [mem_insert_iff, List.exists_mem_cons_iff, hany.mp hhit]
        tauto
      · simp only [List.exists_mem_cons_iff, mt hany.mpr hhit]
        tauto
  rw [dirtyFromClosure, hloop]
  simp

theorem mem_dirtySince [DecidableEq ArtifactId] (since : Bookmark) (events : List (JournalEvent ArtifactId))
    (closures : List (DependencyClosureRecord ArtifactId)) (influence : DependencyGraph ArtifactId) (k : ArtifactId) :
    k ∈ (dirtySince since events closures influence).dirtyArtifacts ↔
      Reached (journalChangedSet events) closures influence k := by
  have hseed : ∀ seed, seed ∈ (dirtyFromClosure closures (journalChangedSet events)).insertMany
      (journalChangedSet events).toList ↔ Seed (journalChangedSet events) closures seed := by
    intro seed
    rw [Std.TreeSet.mem_insertMany_list, mem_dirtyFromClosure, List.contains_iff_mem, Std.TreeSet.mem_toList, Seed,
      or_comm]
  refine (mem_upwardClosure_iff influence.forward _).trans (exists_congr fun seed => ?_)
  rw [hseed]

/-- The dirty set holds what has changed and is closed under the edges and under the records, exactly if no record is
stranded. -/
theorem dirty_since_complete [DecidableEq ArtifactId] (since : Bookmark) (events : List (JournalEvent ArtifactId))
    (closures : List (DependencyClosureRecord ArtifactId)) (influence : DependencyGraph ArtifactId) :
    let dirty := (dirtySince since events closures influence).dirtyArtifacts
    ((∀ x ∈ journalChangedSet events, x ∈ dirty) ∧ (∀ x y, x ∈ dirty → Edge influence.forward x y → y ∈ dirty) ∧
      ∀ rec ∈ closures, ∀ fact ∈ rec.consulted, fact ∈ dirty → rec.artifact ∈ dirty) ↔
    ∀ rec ∈ closures, ¬ Stranded (journalChangedSet events) closures influence rec := by
  intro dirty
  have hdirty := mem_dirtySince since events closures influence
  constructor
  · rintro ⟨-, -, hrecords⟩ rec hrec hstranded
    obtain ⟨fact, hfact, hreached⟩ := hstranded.consulted
    exact hstranded.result ((hdirty _).mp (hrecords rec hrec fact hfact ((hdirty fact).mpr hreached)))
  · intro hnone
    refine ⟨fun x hx => (hdirty x).mpr ⟨x, .inl hx, .refl⟩, fun x y hx hxy => ?_, fun rec hrec fact hfact hx => ?_⟩
    · obtain ⟨seed, hseed, hpath⟩ := (hdirty x).mp hx
      exact (hdirty y).mpr ⟨seed, hseed, hpath.tail hxy⟩
    · -- a record with a changed fact is a seed itself
      by_contra hclean
      have hresult := mt (hdirty rec.artifact).mpr hclean
      refine hnone rec hrec ⟨fun changed hchanged hin => hresult ?_, ⟨fact, hfact, (hdirty fact).mp hx⟩, hresult⟩
      exact ⟨rec.artifact, .inr ⟨rec, hrec, rfl, changed, hchanged, hin⟩, .refl⟩

end Completeness

section Samples

def sampleInfluence : DependencyGraph ℕ := DependencyGraph.addDependency ⟨.soundOverapproximation, ∅⟩ 0 1

def sampleRecords : List (DependencyClosureRecord ℕ) := [⟨2, Std.TreeSet.ofList [1]⟩]

theorem linked_record_dirty :
    2 ∈ (dirtySince () [⟨0, none⟩] sampleRecords (sampleInfluence.addDependency 1 2)).dirtyArtifacts := by
  have hlinked : ∀ rec ∈ sampleRecords, ¬ Stranded (journalChangedSet [⟨0, none⟩]) sampleRecords
      (sampleInfluence.addDependency 1 2) rec := by
    intro rec hrec hstranded
    obtain rfl := List.mem_singleton.mp hrec
    obtain ⟨fact, hfact, seed, hseed, hpath⟩ := hstranded.consulted
    have hone : fact ∈ [1] := Std.TreeSet.mem_toList.mpr hfact
    have hedge : Edge (sampleInfluence.addDependency 1 2).forward 1 2 := by
      unfold Edge
      decide +kernel
    obtain rfl := List.mem_singleton.mp hone
    exact hstranded.result ⟨seed, hseed, hpath.tail hedge⟩
  have hone : 1 ∈ (dirtySince () [⟨0, none⟩] sampleRecords (sampleInfluence.addDependency 1 2)).dirtyArtifacts := by
    decide +kernel
  have hcomplete := (dirty_since_complete () [⟨0, none⟩] sampleRecords (sampleInfluence.addDependency 1 2)).mpr hlinked
  exact hcomplete.2.2 _ List.mem_cons_self 1 (by decide +kernel) hone

/-- The change of 0 reaches 1 along the edge, and 2 has consulted 1, but only the closure of the changed facts is looked
up in the records. -/
theorem consulted_fact_missed :
    (dirtySince () [⟨0, none⟩] sampleRecords sampleInfluence).dirtyArtifacts.toList = [0, 1] := by
  decide +kernel

end Samples
end Zero.Invalidation
