import Mathlib.Data.List.ReduceOption
import ZeroStack.DeltaLog.Log
import ZeroStack.GraphStore.Compaction

/-! The store on disk: the write-ahead directory, the manifest and the snapshot files, with the operations that append
to the log and fold it into a snapshot. -/

open Durable GraphZero.DeltaLog

namespace GraphZero.Store

structure SnapshotEntry where
  snapshotId : ℕ
  segmentIds : List ℕ
  deriving DecidableEq

def maxManifestSnapshotCount : ℕ := 10000
def maxManifestVecCount : ℕ := 100000

inductive StoreError where
  | delta (error : DeltaError)
  | manifest (error : String)
  | noSnapshot
  | missingGlobal (snapshot : ℕ)
  | paths (error : String)
  | nothingToCompact
  | unencodable
  | writeSnapshot (error : String)
  deriving DecidableEq

structure Disk where
  wal : WalDir
  manifest : List SnapshotEntry
  globals : ℕ → Option Global

def latest (snapshots : List SnapshotEntry) : Option SnapshotEntry :=
  snapshots.foldl (fun best s => if best.all (·.snapshotId ≤ s.snapshotId) then some s else best) none

variable (disk : Disk)

def loadManifest : Except StoreError (List SnapshotEntry) :=
  if maxManifestSnapshotCount < disk.manifest.length then .error (.manifest "manifest snapshot count exceeds limit")
  else if disk.manifest.any (maxManifestVecCount < ·.segmentIds.length) then
    .error (.manifest "manifest vector count exceeds limit")
  else .ok disk.manifest

def readWal : Except StoreError (List (ℕ × List DeltaEntry)) := (readAllSegments disk.wal).mapError .delta

def mergeWalIntoPending (entry : SnapshotEntry) (disk : Disk) : Except StoreError PendingFacts := do
  let segments ← readWal disk
  .ok (PendingFacts.ofSegments ((segments.filter (·.1 ∉ entry.segmentIds)).map Prod.snd))

def readGlobal (snapshotId : ℕ) : Except StoreError Global :=
  match disk.globals snapshotId with
  | none => .error (.missingGlobal snapshotId)
  | some g => .ok g

def openSnapshot : Except StoreError Snapshot := do
  let manifest ← loadManifest disk
  match latest manifest with
  | none => .error .noSnapshot
  | some entry => do
    let g ← readGlobal disk entry.snapshotId
    let pending ← mergeWalIntoPending entry disk
    (openFiles g pending).mapError .paths

def appendAll : List (Option DeltaEntry) → Writer → WalDir → Except StoreError Writer × WalDir
  | [], log, dir => (.ok log, dir)
  | none :: _, _, dir => (.error .unencodable, dir)
  | some e :: es, log, dir =>
    let eff := append e log dir
    match eff.result with
    | .error error => (.error (.delta error), eff.dir dir)
    | .ok () => appendAll es eff.log (eff.dir dir)

/-- Open the log, append and commit: `append_entries`, and `publish_batch` after its validation. -/
def appendBatch (entries : List (Option DeltaEntry)) (dir : WalDir) : Except StoreError Unit × WalDir :=
  match openDir dir with
  | .error error => (.error (.delta error), dir)
  | .ok log =>
    match appendAll entries log dir with
    | (.error error, dir) => (.error error, dir)
    | (.ok log, dir) => ((commit log dir).result.mapError .delta, (commit log dir).dir dir)

def foldedSegments (manifest : List SnapshotEntry) : List ℕ := ((latest manifest).map SnapshotEntry.segmentIds).getD []

def nextSnapshotId (manifest : List SnapshotEntry) : ℕ := ((latest manifest).map (·.snapshotId + 1)).getD 1

structure CompactionWork where
  snapshotId : ℕ
  pending : PendingFacts
  allFolded : List ℕ

def prepareCompactionWork : Except StoreError CompactionWork := do
  let manifest ← loadManifest disk
  let folded := foldedSegments manifest
  let newSegments := disk.wal.ids.filter (· ∉ folded)
  if newSegments = [] then .error .nothingToCompact
  else do
    let segments ← readWal disk
    .ok ⟨nextSnapshotId manifest, PendingFacts.ofSegments ((segments.filter (·.1 ∈ newSegments)).map Prod.snd),
      ((folded ++ newSegments).insertionSort (· ≤ ·)).dedup⟩

def baseIndex : Except StoreError IndexData :=
  match latest disk.manifest with
  | none => .ok IndexData.empty
  | some entry => (readGlobal disk entry.snapshotId).map loadBase

variable (pins : List ℕ)

def pruneManifest (snapshots : List SnapshotEntry) : List SnapshotEntry :=
  let sorted := snapshots.insertionSort fun a b => a.snapshotId ≤ b.snapshotId
  let recent := (sorted.reverse.take 2).map SnapshotEntry.snapshotId
  sorted.filter fun s => s.snapshotId ∈ recent ∨ s.snapshotId ∈ pins

def publishSnapshot (entry : SnapshotEntry) (g : Global) (disk : Disk) : Disk :=
  { disk with
    manifest := pruneManifest pins (disk.manifest ++ [entry])
    globals := Function.update disk.globals entry.snapshotId (some g) }

def cleanup (pins folded : List ℕ) (disk : Disk) : Disk :=
  { disk with
    wal := disk.wal.removeAll folded
    globals := fun id => if id ∈ disk.manifest.map SnapshotEntry.snapshotId ∨ id ∈ pins then disk.globals id else none }

def finish (cleaned : Bool) (pins folded : List ℕ) (disk : Disk) : Disk :=
  if cleaned then cleanup pins folded disk else disk

def compactPrepared (cleaned : Bool) (disk : Disk) (work : CompactionWork) : Except StoreError Disk := do
  let base ← baseIndex disk
  let g ← (writeSnapshot (mergePending base work.pending)).mapError .writeSnapshot
  .ok (finish cleaned pins work.allFolded (publishSnapshot pins ⟨work.snapshotId, work.allFolded⟩ g disk))

def compact (cleaned : Bool) (disk : Disk) : Except StoreError Disk := do
  let work ← prepareCompactionWork disk
  compactPrepared pins cleaned disk work

inductive Command where
  | append (entries : List DeltaEntry)
  | publish (edges : List ValidatedPublishEdge)
  | compact (pins : List ℕ) (cleaned : Bool)
  | reopen
  deriving DecidableEq

def publishEntries (edges : List ValidatedPublishEdge) : List (Option DeltaEntry) :=
  edges.flatMap fun edge => match publishedEntries edge with
    | none => [none]
    | some entries => entries.map some

structure State where
  disk : Disk
  acked : List DeltaEntry

def State.appended (s : State) (entries : List (Option DeltaEntry)) : State :=
  let (result, wal) := appendBatch entries s.disk.wal
  match result with
  | .error _ => { s with disk := { s.disk with wal := wal } }
  | .ok () => ⟨{ s.disk with wal := wal }, s.acked ++ entries.reduceOption⟩

def State.step (s : State) : Command → State
  | .append entries => s.appended (entries.map some)
  | .publish edges => s.appended (publishEntries edges)
  | .compact pins cleaned =>
    match Store.compact pins cleaned s.disk with
    | .error _ => s
    | .ok disk => { s with disk := disk }
  | .reopen => s

def State.run (s : State) (commands : List Command) : State := commands.foldl State.step s

end GraphZero.Store
