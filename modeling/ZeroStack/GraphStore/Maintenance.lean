import ZeroStack.GraphStore.Batches

/-! What opening and compacting a store come to: the manifest's newest entry decides which segments are pending, and a
compaction folds all of them. -/

open Durable GraphZero.DeltaLog List

namespace GraphZero.Store

section Latest
variable {snapshots : List SnapshotEntry} {s t : SnapshotEntry}

theorem latest_concat : latest (snapshots ++ [t]) =
    if (latest snapshots).all (·.snapshotId ≤ t.snapshotId) then some t else latest snapshots := by
  rw [latest, foldl_append]
  rfl

theorem mem_of_latest (h : latest snapshots = some s) : s ∈ snapshots := by
  induction snapshots using List.reverseRecOn with
  | nil => cases h
  | append_singleton snapshots t ih =>
    rw [latest_concat] at h
    split_ifs at h
    · cases h
      exact mem_append_right _ mem_cons_self
    · exact mem_append_left _ (ih h)

theorem latest_eq_none (h : latest snapshots = none) : snapshots = [] := by
  cases snapshots using List.reverseRecOn with
  | nil => rfl
  | append_singleton front last =>
    rw [latest_concat] at h
    split_ifs at h with hall
    rw [h] at hall
    exact absurd rfl hall

theorem le_of_latest (h : latest snapshots = some s) : ∀ t ∈ snapshots, t.snapshotId ≤ s.snapshotId := by
  induction snapshots using List.reverseRecOn generalizing s with
  | nil => cases h
  | append_singleton snapshots last ih =>
    intro t ht
    rw [latest_concat] at h
    cases hbefore : latest snapshots with
    | none =>
      have hnil : snapshots = [] := latest_eq_none hbefore
      subst hnil
      cases h
      rw [mem_singleton.mp ht]
    | some best =>
      have hbest := ih hbefore
      simp only [hbefore, Option.all_some, decide_eq_true_eq] at h
      have hle : best.snapshotId ≤ s.snapshotId ∧ last.snapshotId ≤ s.snapshotId := by
        split_ifs at h with hmore
        · cases h
          exact ⟨hmore, le_rfl⟩
        · cases h
          exact ⟨le_rfl, (Nat.not_le.mp hmore).le⟩
      rcases mem_append.mp ht with hfront | hlast
      · exact (hbest t hfront).trans hle.1
      · rw [mem_singleton.mp hlast]
        exact hle.2

theorem latest_eq_some (hmem : s ∈ snapshots) (hmax : ∀ t ∈ snapshots, t ≠ s → t.snapshotId < s.snapshotId) :
    latest snapshots = some s := by
  cases hlatest : latest snapshots with
  | none =>
    rw [latest_eq_none hlatest] at hmem
    cases hmem
  | some best =>
    have hle := le_of_latest hlatest s hmem
    by_contra hne
    have hlt := hmax best (mem_of_latest hlatest) fun h => hne (congrArg some h)
    omega

end Latest

section Publish
variable {manifest : List SnapshotEntry} {entry : SnapshotEntry} {pins : List ℕ}

theorem mem_of_mem_pruneManifest {s : SnapshotEntry} (h : s ∈ pruneManifest pins manifest) : s ∈ manifest :=
  (perm_insertionSort ..).mem_iff.mp (mem_of_mem_filter h)

theorem length_pruneManifest_le : (pruneManifest pins manifest).length ≤ manifest.length := by
  have hfilter := length_filter_le (fun s =>
    decide (s.snapshotId ∈ ((manifest.insertionSort fun a b => a.snapshotId ≤ b.snapshotId).reverse.take 2).map
      SnapshotEntry.snapshotId ∨ s.snapshotId ∈ pins)) (manifest.insertionSort fun a b => a.snapshotId ≤ b.snapshotId)
  rwa [length_insertionSort] at hfilter

theorem mem_pruneManifest (hmem : entry ∈ manifest) (hmax : ∀ t ∈ manifest, t.snapshotId ≤ entry.snapshotId) :
    entry ∈ pruneManifest pins manifest := by
  obtain ⟨sorted, hsorted⟩ : ∃ sorted, sorted = manifest.insertionSort (·.snapshotId ≤ ·.snapshotId) := ⟨_, rfl⟩
  have hperm : ∀ t, t ∈ sorted ↔ t ∈ manifest := fun t => by
    rw [hsorted]
    exact (perm_insertionSort ..).mem_iff
  have hpairwise : sorted.Pairwise fun a b => a.snapshotId ≤ b.snapshotId := by
    rw [hsorted]
    exact pairwise_insertionSort ..
  rw [pruneManifest, ← hsorted]
  refine mem_filter.mpr ⟨(hperm entry).mpr hmem, decide_eq_true (.inl ?_)⟩
  cases sorted using List.reverseRecOn with
  | nil => exact absurd ((hperm entry).mpr hmem) not_mem_nil
  | append_singleton front last =>
    -- the last entry has the number of `entry`
    have hlast : last.snapshotId = entry.snapshotId := by
      have hle := hmax last ((hperm last).mp (mem_append_right _ mem_cons_self))
      rcases mem_append.mp ((hperm entry).mpr hmem) with hfront | hlast
      · have hge := (pairwise_append.mp hpairwise).2.2 entry hfront last mem_cons_self
        omega
      · rw [mem_singleton.mp hlast]
    rw [reverse_append, reverse_singleton, singleton_append, take_succ_cons, map_cons, hlast]
    exact mem_cons_self

theorem latest_publish {previous : SnapshotEntry} (hprevious : latest manifest = some previous)
    (hid : entry.snapshotId = previous.snapshotId + 1) : latest
    (pruneManifest pins (manifest ++ [entry])) = some entry := by
  have hbelow : ∀ t ∈ manifest, t.snapshotId < entry.snapshotId := by
    intro t ht
    have hle := le_of_latest hprevious t ht
    omega
  have hcases : ∀ t ∈ manifest ++ [entry], t = entry ∨ t.snapshotId < entry.snapshotId := by
    intro t ht
    rcases mem_append.mp ht with hold | hnew
    · exact .inr (hbelow t hold)
    · exact .inl (mem_singleton.mp hnew)
  apply latest_eq_some
  · apply mem_pruneManifest (mem_append_right _ mem_cons_self)
    intro t ht
    rcases hcases t ht with rfl | hlt
    · exact le_rfl
    · exact hlt.le
  · intro t ht hne
    exact (hcases t (mem_of_mem_pruneManifest ht)).resolve_left hne

end Publish

variable (segments : List Segment)

def pendingEntries (folded : List ℕ) : List DeltaEntry :=
  entriesOf (segments.filter (·.id ∉ folded))

def pendingFacts (folded : List ℕ) : PendingFacts :=
  PendingFacts.ofSegments ((((live segments).map fun s => (s.id, s.entries)).filter (·.1 ∉ folded)).map Prod.snd)

theorem flatten_pending (folded : List ℕ) :
    ((((live segments).map fun s => (s.id, s.entries)).filter (·.1 ∉ folded)).map Prod.snd).flatten =
      pendingEntries segments folded := by
  have hcomm : (live segments).filter (·.id ∉ folded) = live (segments.filter (·.id ∉ folded)) := by
    rw [live, live, filter_filter, filter_filter]
    congr 1
    funext s
    exact Bool.and_comm ..
  rw [filter_map, map_map, pendingEntries, ← entriesOf_live, ← hcomm]
  rfl

section Pending
variable {segments : List Segment} {folded : List ℕ}

theorem defs_pendingFacts : (pendingFacts segments folded).defs =
    (pendingEntries segments folded).filterMap definition? := by
  rw [pendingFacts, (PendingFacts.of_ofSegments _).defs, flatten_pending]

theorem edges_pendingFacts : (pendingFacts segments folded).edges =
    (pendingEntries segments folded).filterMap edge? := by
  rw [pendingFacts, (PendingFacts.of_ofSegments _).edges, flatten_pending]

end Pending

structure Disk.Holds (disk : Disk) (segments : List Segment) (entry : SnapshotEntry) (data : IndexData) : Prop where
  stored : Stored disk.wal.entries segments
  count_le : disk.manifest.length ≤ maxManifestSnapshotCount
  folded_le : ∀ s ∈ disk.manifest, s.segmentIds.length ≤ maxManifestVecCount
  latest_eq : latest disk.manifest = some entry
  global_eq : disk.globals entry.snapshotId = some data.global
  written : writeSnapshot data = .ok data.global
  closed : data.Closed
  readable : data.Readable

namespace Disk.Holds
variable {disk : Disk} {segments : List Segment} {entry : SnapshotEntry} {data : IndexData}
variable (h : disk.Holds segments entry data)

section
include h

theorem loadManifest_eq : loadManifest disk = .ok disk.manifest := by
  have hany : disk.manifest.any (maxManifestVecCount < ·.segmentIds.length) = false := by
    rw [any_eq_false]
    intro s hs
    simpa using h.folded_le s hs
  rw [loadManifest, if_neg (Nat.not_lt.mpr h.count_le), if_neg (by rw [hany]; simp)]

theorem readWal_eq : readWal disk = .ok ((live segments).map fun s => (s.id, s.entries)) := by
  rw [readWal, h.stored.readAllSegments_eq]
  rfl

theorem readGlobal_eq : readGlobal disk entry.snapshotId = .ok data.global := by
  rw [readGlobal, h.global_eq]

theorem openSnapshot_eq : openSnapshot disk = .ok ⟨data.global, pendingFacts segments entry.segmentIds⟩ := by
  have hmerge : mergeWalIntoPending entry disk = .ok (pendingFacts segments entry.segmentIds) := by
    rw [mergeWalIntoPending, h.readWal_eq]
    rfl
  simp only [openSnapshot, h.loadManifest_eq, bind, Except.bind, h.latest_eq]
  rw [h.readGlobal_eq]
  show (mergeWalIntoPending entry disk >>= _) = _
  rw [hmerge]
  show (openFiles data.global (pendingFacts segments entry.segmentIds)).mapError StoreError.paths = _
  rw [openFiles_eq_ok.mpr ⟨h.readable, rfl⟩]
  rfl

theorem ids_eq : disk.wal.ids = segments.map Segment.id := by
  rw [Numbered.ids, h.stored.files_eq, map_map]
  rfl

theorem foldedSegments_eq : foldedSegments disk.manifest = entry.segmentIds := by
  rw [foldedSegments, h.latest_eq]
  rfl

theorem nextSnapshotId_eq : nextSnapshotId disk.manifest = entry.snapshotId + 1 := by
  rw [nextSnapshotId, h.latest_eq]
  rfl

end

def allFolded (disk : Disk) (entry : SnapshotEntry) : List ℕ :=
  ((entry.segmentIds ++ disk.wal.ids.filter (· ∉ entry.segmentIds)).insertionSort (· ≤ ·)).dedup

theorem length_allFolded_le : (allFolded disk entry).length ≤ entry.segmentIds.length + disk.wal.ids.length := by
  have hdedup := (dedup_sublist ((entry.segmentIds ++ disk.wal.ids.filter (· ∉ entry.segmentIds)).insertionSort
    (· ≤ ·))).length_le
  have hfilter := length_filter_le (fun id => decide (id ∉ entry.segmentIds)) disk.wal.ids
  rw [length_insertionSort, length_append] at hdedup
  rw [allFolded]
  omega

include h

theorem prepareCompactionWork_eq : prepareCompactionWork disk =
    if disk.wal.ids.filter (· ∉ entry.segmentIds) = [] then .error .nothingToCompact
    else .ok ⟨entry.snapshotId + 1, pendingFacts segments entry.segmentIds, allFolded disk entry⟩ := by
  have hfilter : ((live segments).map fun s => (s.id, s.entries)).filter
      (·.1 ∈ disk.wal.ids.filter (· ∉ entry.segmentIds)) =
        ((live segments).map fun s => (s.id, s.entries)).filter (·.1 ∉ entry.segmentIds) := by
    apply filter_congr
    rintro ⟨id, entries⟩ hmem
    obtain ⟨s, hs, hpair⟩ := mem_map.mp hmem
    have hid : id ∈ disk.wal.ids := by
      rw [h.ids_eq, ← (Prod.mk.inj hpair).1]
      exact mem_map_of_mem (mem_of_mem_filter hs)
    simp [hid]
  rw [prepareCompactionWork, h.loadManifest_eq]
  show (if disk.wal.ids.filter (· ∉ foldedSegments disk.manifest) = [] then _ else _) = _
  rw [h.foldedSegments_eq, h.readWal_eq, h.nextSnapshotId_eq]
  split_ifs
  · rfl
  · show Except.ok (⟨_, _, _⟩ : CompactionWork) = _
    rw [hfilter]
    rfl

theorem compact_eq (pins : List ℕ) (cleaned : Bool) : compact pins cleaned disk =
    if disk.wal.ids.filter (· ∉ entry.segmentIds) = [] then .error .nothingToCompact
    else .ok (finish cleaned pins (allFolded disk entry) (publishSnapshot pins
      ⟨entry.snapshotId + 1, allFolded disk entry⟩
      (compacted data (pendingFacts segments entry.segmentIds)).global disk)) := by
  have hbase : baseIndex disk = .ok (loadBase data.global) := by
    rw [baseIndex, h.latest_eq]
    show (readGlobal disk entry.snapshotId).map loadBase = _
    rw [h.readGlobal_eq]
    rfl
  have hwrite : writeSnapshot (mergePending (loadBase data.global) (pendingFacts segments entry.segmentIds)) =
      .ok (compacted data (pendingFacts segments entry.segmentIds)).global := compactGlobal_eq_ok h.closed h.written
  rw [compact, h.prepareCompactionWork_eq]
  split_ifs
  · rfl
  · show compactPrepared pins cleaned disk _ = _
    rw [compactPrepared, hbase]
    show ((writeSnapshot _).mapError _ >>= _) = _
    rw [hwrite]
    rfl

theorem publish {next : SnapshotEntry} {data' : IndexData} {folded pins : List ℕ}
    (hid : next.snapshotId = entry.snapshotId + 1) (hall : ∀ id ∈ disk.wal.ids, id ∈ next.segmentIds)
    (hfolded : folded = next.segmentIds) (hcount : disk.manifest.length < maxManifestSnapshotCount)
    (hlength : next.segmentIds.length ≤ maxManifestVecCount) (hwritten : writeSnapshot data' = .ok data'.global)
    (hclosed : data'.Closed) (hreadable : data'.Readable) (cleaned : Bool) :
    ∃ segments',
      (finish cleaned pins folded (publishSnapshot pins next data'.global disk)).Holds segments' next data' := by
  have hlatest : latest (pruneManifest pins (disk.manifest ++ [next])) = some next := latest_publish h.latest_eq hid
  have hcount' : (pruneManifest pins (disk.manifest ++ [next])).length ≤ maxManifestSnapshotCount := by
    have hle := @length_pruneManifest_le (disk.manifest ++ [next]) pins
    rw [length_append, length_singleton] at hle
    omega
  have hvec : ∀ s ∈ pruneManifest pins (disk.manifest ++ [next]), s.segmentIds.length ≤ maxManifestVecCount := by
    intro s hs
    rcases mem_append.mp (mem_of_mem_pruneManifest hs) with hold | hnew
    · exact h.folded_le s hold
    · rwa [mem_singleton.mp hnew]
  have hglobal : Function.update disk.globals next.snapshotId (some data'.global) next.snapshotId = some data'.global :=
    Function.update_self ..
  cases cleaned with
  | false => exact ⟨segments, h.stored, hcount', hvec, hlatest, hglobal, hwritten, hclosed, hreadable⟩
  | true =>
    have hwal : (disk.wal.removeAll folded).entries = [] := by
      apply filter_eq_nil_iff.mpr
      intro e he
      rw [hfolded]
      simpa using hall e.1 (mem_map_of_mem he)
    have hkept : next.snapshotId ∈ (pruneManifest pins (disk.manifest ++ [next])).map SnapshotEntry.snapshotId ∨
        next.snapshotId ∈ pins := .inl (mem_map_of_mem (mem_of_latest hlatest))
    refine ⟨[], ?_, hcount', hvec, hlatest, ?_, hwritten, hclosed, hreadable⟩
    · show Stored (disk.wal.removeAll folded).entries []
      rw [hwal]
      exact Stored.nil
    · have hglobals : (finish true pins folded (publishSnapshot pins next data'.global disk)).globals next.snapshotId =
          Function.update disk.globals next.snapshotId (some data'.global) next.snapshotId := if_pos hkept
      rw [hglobals]
      exact hglobal

end Disk.Holds
end GraphZero.Store
