import ZeroStack.GraphStore.Maintenance

/-! Acknowledged facts stay visible: a batch is pending or folded into the snapshot, and the queries show its facts,
as long as new segments get no folded numbers and no compaction drops what the snapshot has. -/

open Durable GraphZero.DeltaLog List

namespace GraphZero.Store

def Sees (s : Snapshot) (e : DeltaEntry) : Prop :=
  (∀ d ∈ definition? e, Has CapsuleMatch.defs (s.query d.name) d.name d.shown) ∧
    ∀ p ∈ edge? e, ∃ source, Has CapsuleMatch.edges (s.query p.src) p.src { p.shown with source := source }

/-- The batch fits the log, its new segments get numbers above the folded ones, and its edges start at symbols of the
snapshot or at definitions that are pending or in the batch. -/
def State.FitsBatch (s : State) (steps : List (Option DeltaEntry)) : Prop :=
  (steps.length ≤ maxDeltaSegmentEntries ∧ ∀ e ∈ steps.reduceOption, e.payload.length < 2 ^ 32) ∧
    (match nextSegmentId s.disk.wal with
      | .error _ => True
      | .ok next => ∀ id ∈ foldedSegments s.disk.manifest, id < next) ∧ match openSnapshot s.disk with
      | .error _ => True
      | .ok snapshot => ∀ e ∈ steps.reduceOption, ∀ p ∈ edge? e, p.src ∈ snapshot.global.names ∨
        (∃ d ∈ snapshot.pending.defs, d.name = p.src) ∨ ∃ e' ∈ steps.reduceOption, ∃ d ∈ definition? e', d.name = p.src

/-- The manifest stays within its limits, and no pending entry is about a blob for which the snapshot has facts. -/
def State.FitsCompaction (s : State) : Prop :=
  (s.disk.manifest.length < maxManifestSnapshotCount ∧
    (foldedSegments s.disk.manifest).length + s.disk.wal.ids.length ≤ maxManifestVecCount) ∧
    match openSnapshot s.disk with
    | .error _ => True
    | .ok snapshot => (∀ d ∈ (loadBase snapshot.global).defs, d.blob ∉ snapshot.pending.blobs) ∧
      ∀ r ∈ (loadBase snapshot.global).edges, r.blob ∉ snapshot.pending.blobs

def State.Fits (s : State) : Command → Prop
  | .append entries => s.FitsBatch (entries.map some)
  | .publish edges => s.FitsBatch (publishEntries edges)
  | .compact _ _ => s.FitsCompaction
  | .reopen => True

instance (s : State) (steps : List (Option DeltaEntry)) : Decidable (s.FitsBatch steps) := by
  unfold State.FitsBatch
  haveI : Decidable (match nextSegmentId s.disk.wal with
      | .error _ => True
      | .ok next => ∀ id ∈ foldedSegments s.disk.manifest, id < next) := by
    cases nextSegmentId s.disk.wal <;> infer_instance
  cases openSnapshot s.disk <;> infer_instance

instance (s : State) : Decidable s.FitsCompaction := by
  unfold State.FitsCompaction
  cases openSnapshot s.disk <;> infer_instance

instance (s : State) (command : Command) : Decidable (s.Fits command) := by
  cases command <;> unfold State.Fits <;> infer_instance

def Folded (data : IndexData) (e : DeltaEntry) : Prop :=
  (∀ d ∈ definition? e, ∃ r ∈ data.defs, r.name = d.name ∧ d.shown = r.shown) ∧
    ∀ p ∈ edge? e, ∃ r ∈ data.edges, r.src = p.src ∧ { p.shown with source := none } = r.shown

def Waiting (data : IndexData) (pending : List DeltaEntry) (e : DeltaEntry) : Prop :=
  e ∈ pending ∧ ∀ p ∈ edge? e, p.src ∈ data.global.names ∨ ∃ e' ∈ pending, ∃ d ∈ definition? e', d.name = p.src

structure State.Keeps (s : State) (segments : List Segment) (entry : SnapshotEntry) (data : IndexData) : Prop where
  holds : s.disk.Holds segments entry data
  kept : ∀ e ∈ s.acked, Waiting data (pendingEntries segments entry.segmentIds) e ∨ Folded data e

theorem Waiting.mono {data : IndexData} {pending more : List DeltaEntry} {e : DeltaEntry} (h : Waiting data pending e)
    (hsub : pending ⊆ more) : Waiting data more e := by
  refine ⟨hsub h.1, fun p hp => (h.2 p hp).imp id ?_⟩
  rintro ⟨e', he', hdef⟩
  exact ⟨e', hsub he', hdef⟩

namespace State.Keeps
variable {s : State} {segments : List Segment} {entry : SnapshotEntry} {data : IndexData}

variable (h : s.Keeps segments entry data)
include h

theorem sees {e : DeltaEntry} (he : e ∈ s.acked) : Sees ⟨data.global, pendingFacts segments entry.segmentIds⟩ e := by
  have hclosed := h.holds.closed
  rcases h.kept e he with ⟨hmem, hknown⟩ | ⟨hdefs, hedges⟩
  · constructor
    · intro d hd
      rw [Snapshot.has_defs_query, defs_pendingFacts]
      exact .inr ⟨d, mem_filterMap.mpr ⟨e, hmem, hd⟩, rfl, rfl⟩
    · intro p hp
      refine ⟨p.source, ?_⟩
      rw [Snapshot.has_edges_query, IndexData.named_found, defs_pendingFacts, edges_pendingFacts]
      refine .inr ⟨(hknown p hp).imp id ?_, p, mem_filterMap.mpr ⟨e, hmem, hp⟩, rfl, rfl⟩
      rintro ⟨e', he', d, hd, hname⟩
      exact ⟨d, mem_filterMap.mpr ⟨e', he', hd⟩, hname⟩
  · constructor
    · intro d hd
      rw [Snapshot.has_defs_query, IndexData.has_defs_found hclosed]
      exact .inl (hdefs d hd)
    · intro p hp
      refine ⟨none, ?_⟩
      rw [Snapshot.has_edges_query, IndexData.has_edges_found hclosed]
      exact .inl (hedges p hp)

theorem notMem_folded {own : List Segment} {wal : WalDir} (hstored : Stored wal.entries (segments ++ own))
    (hnext : match nextSegmentId s.disk.wal with
      | .error _ => True
      | .ok next => ∀ id ∈ foldedSegments s.disk.manifest, id < next) : ∀ t ∈ own, t.id ∉ entry.segmentIds := by
  intro t ht hfolded
  have hlt : t.id < 2 ^ 64 := (hstored.readable t (mem_append_right _ ht)).id_lt
  rw [h.holds.foldedSegments_eq, nextSegmentId, h.holds.ids_eq] at hnext
  cases hlast : (segments.map Segment.id).getLast? with
  | none =>
    rw [hlast] at hnext
    exact Nat.not_lt_zero _ (hnext t.id hfolded)
  | some last =>
    obtain ⟨r, hr, rfl⟩ := mem_map.mp (mem_of_getLast? hlast)
    have habove := own_above hstored r hr t ht
    rw [hlast] at hnext
    dsimp only at hnext
    rw [if_pos (by omega)] at hnext
    have hbelow := hnext t.id hfolded
    omega

theorem appended {steps : List (Option DeltaEntry)} (hfits : s.FitsBatch steps) :
    ∃ segments', (s.appended steps).Keeps segments' entry data := by
  obtain ⟨⟨hlength, hpayload⟩, hnext, hknown⟩ := hfits
  obtain ⟨own, hstored, hacked⟩ := appendBatch_extends h.holds.stored hpayload hlength
  have hnew := h.notMem_folded hstored hnext
  have hpending : pendingEntries (segments ++ own) entry.segmentIds =
      pendingEntries segments entry.segmentIds ++ entriesOf own := by
    have hown : own.filter (·.id ∉ entry.segmentIds) = own :=
      filter_eq_self.mpr fun t ht => decide_eq_true (hnew t ht)
    rw [pendingEntries, filter_append, hown, entriesOf_append]
    rfl
  have hsub : pendingEntries segments entry.segmentIds ⊆ pendingEntries (segments ++ own) entry.segmentIds := by
    rw [hpending]
    exact subset_append_left ..
  have hholds : Disk.Holds { s.disk with wal := (appendBatch steps s.disk.wal).2 } (segments ++ own) entry data :=
    ⟨hstored, h.holds.count_le, h.holds.folded_le, h.holds.latest_eq, h.holds.global_eq, h.holds.written,
      h.holds.closed, h.holds.readable⟩
  have hold : ∀ e ∈ s.acked, Waiting data (pendingEntries (segments ++ own) entry.segmentIds) e ∨ Folded data e :=
    fun e he => (h.kept e he).imp (·.mono hsub) id
  refine ⟨segments ++ own, ?_⟩
  unfold State.appended
  dsimp only
  cases hresult : (appendBatch steps s.disk.wal).1 with
  | error error => exact ⟨hholds, hold⟩
  | ok u =>
    refine ⟨hholds, fun e he => ?_⟩
    rcases mem_append.mp he with hbefore | hbatch
    · exact hold e hbefore
    · have hentries : entriesOf own = steps.reduceOption := hacked hresult
      rw [h.holds.openSnapshot_eq] at hknown
      refine .inl ⟨?_, fun p hp => ?_⟩
      · rw [hpending, hentries]
        exact mem_append_right _ hbatch
      · rcases hknown e hbatch p hp with hname | ⟨d, hd, hname⟩ | ⟨e', he', hdef⟩
        · exact .inl hname
        · rw [defs_pendingFacts] at hd
          obtain ⟨e', he', hdef⟩ := mem_filterMap.mp hd
          exact .inr ⟨e', hsub he', d, hdef, hname⟩
        · refine .inr ⟨e', ?_, hdef⟩
          rw [hpending, hentries]
          exact mem_append_right _ he'

theorem folded_compacted (hdefs : ∀ d ∈ data.defs, d.blob ∉ (pendingFacts segments entry.segmentIds).blobs)
    (hedges : ∀ r ∈ data.edges, r.blob ∉ (pendingFacts segments entry.segmentIds).blobs) {e : DeltaEntry}
    (he : e ∈ s.acked) : Folded (compacted data (pendingFacts segments entry.segmentIds)) e := by
  have hclosed := h.holds.closed
  constructor
  · intro d hd
    rw [exists_def_compacted hclosed]
    rcases h.kept e he with ⟨hmem, -⟩ | ⟨hfolded, -⟩
    · rw [defs_pendingFacts]
      exact .inr ⟨d, mem_filterMap.mpr ⟨e, hmem, hd⟩, rfl, rfl⟩
    · obtain ⟨r, hr, hname, hshown⟩ := hfolded d hd
      exact .inl ⟨r, hr, hdefs r hr, hname, hshown⟩
  · intro p hp
    rw [exists_edge_compacted hclosed]
    rcases h.kept e he with ⟨hmem, -⟩ | ⟨-, hfolded⟩
    · rw [edges_pendingFacts]
      exact .inr ⟨p, mem_filterMap.mpr ⟨e, hmem, hp⟩, rfl, rfl⟩
    · obtain ⟨r, hr, hsrc, hshown⟩ := hfolded p hp
      exact .inl ⟨r, hr, hedges r hr, hsrc, hshown⟩

theorem compacted (hfits : s.FitsCompaction) (pins : List ℕ) (cleaned : Bool) :
    ∃ segments' entry' data', (s.step (.compact pins cleaned)).Keeps segments' entry' data' := by
  obtain ⟨⟨hcount, hvec⟩, hclean⟩ := hfits
  rw [h.holds.openSnapshot_eq] at hclean
  rw [h.holds.foldedSegments_eq] at hvec
  unfold State.step
  dsimp only
  rw [h.holds.compact_eq pins cleaned]
  split_ifs with hnothing
  · exact ⟨segments, entry, data, h⟩
  · have hdefs : ∀ d ∈ data.defs, d.blob ∉ (pendingFacts segments entry.segmentIds).blobs := by
      intro d hd
      exact hclean.1 { d with kind := data.kindOf d.name } ((mem_defs_loadBase h.holds.closed).mpr ⟨d, hd, rfl⟩)
    have hedges : ∀ r ∈ data.edges, r.blob ∉ (pendingFacts segments entry.segmentIds).blobs := fun r hr =>
      hclean.2 r ((mem_edges_loadBase h.holds.closed).mpr hr)
    have hwrite : writeSnapshot (Store.compacted data (pendingFacts segments entry.segmentIds)) =
        .ok (Store.compacted data (pendingFacts segments entry.segmentIds)).global :=
      compactGlobal_eq_ok h.holds.closed h.holds.written
    have hlength := (@Disk.Holds.length_allFolded_le s.disk entry).trans hvec
    obtain ⟨next, hnext⟩ : ∃ next : SnapshotEntry, next = ⟨entry.snapshotId + 1, Disk.Holds.allFolded s.disk entry⟩ :=
      ⟨_, rfl⟩
    have hall : ∀ id ∈ s.disk.wal.ids, id ∈ next.segmentIds := by
      rw [hnext]
      exact fun id hid => mem_folded_and_new hid
    obtain ⟨segments', hholds⟩ := @Disk.Holds.publish _ _ _ _ h.holds next _ _ pins (by rw [hnext]) hall rfl hcount
      (by rw [hnext]; exact hlength) hwrite (closed_compacted h.holds.closed (PendingFacts.closed_ofSegments _))
      (loaded_mergePending loaded_loadBase).readable cleaned
    rw [hnext] at hholds
    exact ⟨segments', _, _, hholds, fun e he => .inr (h.folded_compacted hdefs hedges he)⟩

end State.Keeps

def State.indexed (data : IndexData) (folded : List ℕ) : State :=
  ⟨⟨Numbered.empty, [⟨1, folded⟩], Function.update (fun _ => none) 1 (some data.global)⟩, []⟩

theorem State.keeps_indexed {data : IndexData} {folded : List ℕ} (hclosed : data.Closed) (hreadable : data.Readable)
    (hwritten : writeSnapshot data = .ok data.global) (hfolded : folded.length ≤ maxManifestVecCount) :
    (State.indexed data folded).Keeps [] ⟨1, folded⟩ data := by
  have hglobal : Function.update (fun _ => none) 1 (some data.global) 1 = some data.global := Function.update_self ..
  have hcount : 1 ≤ maxManifestSnapshotCount := by decide
  refine ⟨⟨Stored.nil, hcount, ?_, rfl, hglobal, hwritten, hclosed, hreadable⟩, fun e he => (not_mem_nil he).elim⟩
  intro s hs
  rwa [mem_singleton.mp hs]

def State.Kept (s : State) : Prop := ∃ segments entry data, s.Keeps segments entry data

theorem State.Kept.step {s : State} (h : s.Kept) {command : Command} (hfits : s.Fits command) :
    (s.step command).Kept := by
  obtain ⟨segments, entry, data, hkeeps⟩ := h
  cases command with
  | append entries | publish edges =>
    obtain ⟨segments', hkeeps'⟩ := hkeeps.appended hfits
    exact ⟨segments', entry, data, hkeeps'⟩
  | compact pins cleaned => exact hkeeps.compacted hfits pins cleaned
  | reopen => exact ⟨segments, entry, data, hkeeps⟩

/-- After any run, opening the store succeeds and the queries see every acknowledged fact. -/
theorem acked_seen {data : IndexData} {folded : List ℕ} {commands : List Command} (hclosed : data.Closed)
    (hreadable : data.Readable) (hwritten : writeSnapshot data = .ok data.global)
    (hfolded : folded.length ≤ maxManifestVecCount)
    (hfits : Guarded.Along State.step State.Fits (State.indexed data folded) commands) :
    ∃ snapshot, openSnapshot ((State.indexed data folded).run commands).disk = .ok snapshot ∧
      ∀ e ∈ ((State.indexed data folded).run commands).acked, Sees snapshot e := by
  have hstart : (State.indexed data folded).Kept :=
    ⟨[], ⟨1, folded⟩, data, State.keeps_indexed hclosed hreadable hwritten hfolded⟩
  have hend : ((State.indexed data folded).run commands).Kept :=
    hfits.invariant (fun _ _ hs hfit => State.Kept.step hs hfit) hstart
  obtain ⟨segments, entry, data', hkeeps⟩ := hend
  exact ⟨_, hkeeps.holds.openSnapshot_eq, fun e he => hkeeps.sees he⟩

def thirdFile : List DeltaEntry := [⟨symbolEntry, 3, [1, 0, 104, 0, 0, 0, 0, 0, 0, 5, 0, 0, 0]⟩]

section Evaluated
set_option maxRecDepth 20000

theorem acked_seen_after_crash : ∃ snapshot, openSnapshot ((State.indexed oneFunction []).run
        [.append otherFile, .compact [] false, .append thirdFile, .compact [] true]).disk = .ok snapshot ∧
      ∀ e ∈ ((State.indexed oneFunction []).run
        [.append otherFile, .compact [] false, .append thirdFile, .compact [] true]).acked, Sees snapshot e := by
  apply acked_seen oneFunction_closed oneFunction_readable writeSnapshot_oneFunction (by decide)
  decide +kernel

/-- A compaction that cleans up empties the log, the next segment gets the number 0 again, and number 0 is folded: the
batch is acknowledged, and the query for `h` does not show its definition. -/
theorem acked_and_unseen :
    ((State.indexed oneFunction []).run [.append otherFile, .compact [] true, .append thirdFile]).acked =
        otherFile ++ thirdFile ∧ (∃ e ∈ thirdFile, definition? e = some ⟨"h", 3, 0, 5⟩) ∧
        (openSnapshot ((State.indexed oneFunction []).run
          [.append otherFile, .compact [] true, .append thirdFile]).disk).map (·.query "h") = .ok [] := by
  decide +kernel

end Evaluated
end GraphZero.Store
