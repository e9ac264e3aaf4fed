import Mathlib.Data.List.Sort
import ZeroStack.GraphStore.Facts
import ZeroStack.GraphStore.Paths
import ZeroStack.Sorted.Ranks

/-! Snapshots of the graph store: a symbol table with its spans and adjacency rows. A query looks a symbol up there
and merges what is pending in the write-ahead log. -/

open Wire

namespace GraphZero.Store

def otherKind : UInt8 := 3

structure DefRecord where
  name : String
  kind : UInt8
  blob : ContentHash
  start : UInt32
  stop : UInt32
  blockStart : UInt32
  blockEnd : UInt32
  deriving DecidableEq

structure EdgeRecord where
  src : String
  dst : String
  kind : UInt8
  confidence : UInt8
  blob : ContentHash
  start : UInt32
  stop : UInt32
  deriving DecidableEq

structure IndexData where
  blobs : Std.TreeMap ContentHash BlobMeta
  blobOrder : List ContentHash
  defs : List DefRecord
  edges : List EdgeRecord

def IndexData.empty : IndexData := ⟨∅, [], [], []⟩

structure SpanEntry where
  blobIdx : ℕ
  start : UInt32
  stop : UInt32
  symbolId : ℕ
  blockStart : UInt32
  blockEnd : UInt32
  deriving DecidableEq

structure CsrEdge where
  src : ℕ
  target : ℕ
  kind : UInt8
  confidence : UInt8
  evidence : SpanEntry
  deriving DecidableEq

structure Global where
  symbols : List (String × UInt8)
  spans : List SpanEntry
  edges : List CsrEdge
  blobHashes : List ContentHash
  sidecar : List Char
  deriving DecidableEq

namespace IndexData

variable (data : IndexData)

/-- `write_snapshot_symbol_table`: the first kind that a name gets stays. -/
def symbolTable : Std.TreeMap String UInt8 :=
  let defined := data.defs.foldl (fun table d => table.insertIfNew d.name d.kind) ∅
  data.edges.foldl (fun table e => (table.insertIfNew e.src otherKind).insertIfNew e.dst otherKind) defined

def blobIdx (hash : ContentHash) : ℕ :=
  data.blobOrder.length - 1 - data.blobOrder.reverse.idxOf hash

def blobMeta (hash : ContentHash) : BlobMeta := (data.blobs[hash]?).getD ⟨[], 0, 0, 0⟩

def symbolId (name : String) : ℕ := data.symbolTable.keys.idxOf name

def span (d : DefRecord) : SpanEntry :=
  ⟨data.blobIdx d.blob, d.start, d.stop, data.symbolId d.name, d.blockStart, d.blockEnd⟩

def csrEdge (e : EdgeRecord) : CsrEdge :=
  ⟨data.symbolId e.src, data.symbolId e.dst, e.kind, e.confidence,
    ⟨data.blobIdx e.blob, e.start, e.stop, data.symbolId e.dst, 0, 0⟩⟩

def global : Global where
  symbols := data.symbolTable.toList
  spans := (data.defs.map data.span).insertionSort fun a b => a.symbolId ≤ b.symbolId
  edges := (data.edges.map data.csrEdge).insertionSort fun a b => a.src ≤ b.src
  blobHashes := data.blobOrder
  sidecar := pathsSidecar (data.blobOrder.map fun hash => (hash, data.blobMeta hash))

end IndexData

def writeSnapshot (data : IndexData) : Except String Global :=
  match data.symbolTable.keys.find? (fun name => 65535 < (utf8Bytes name).length) with
  | some name => .error s!"symbol name length {(utf8Bytes name).length} exceeds u16::MAX (SymbolEntry.name_len)"
  | none => .ok data.global

namespace Global

variable (g : Global)

def names : List String := g.symbols.map Prod.fst

def blobAt (idx : ℕ) : ContentHash := g.blobHashes.getD idx 0

def spanRange (id : ℕ) : List SpanEntry := Sorted.block SpanEntry.symbolId id g.spans

def edgesOf (id : ℕ) : List CsrEdge := Sorted.block CsrEdge.src id g.edges

def nameAt (id : ℕ) : String := g.names.getD id ""

def prefixSearch (start : String) : List ℕ :=
  let lo := g.names.countP (· < start)
  List.range' lo ((g.names.drop lo).takeWhile fun name => start.toList.isPrefixOf name.toList).length

def symbolCandidateIds (symbol : String) : List ℕ :=
  if symbol ∈ g.names then [g.names.idxOf symbol] else (g.prefixSearch symbol).take 5

end Global

/-- The evidence of a definition; its path and staleness are left out. -/
structure CapsuleDef where
  blob : ContentHash
  start : UInt32
  stop : UInt32
  deriving DecidableEq

structure CapsuleEdge where
  kind : UInt8
  target : String
  confidence : UInt8
  blob : ContentHash
  start : UInt32
  stop : UInt32
  source : Option String
  deriving DecidableEq

structure CapsuleMatch where
  name : String
  defs : List CapsuleDef
  edges : List CapsuleEdge
  deriving DecidableEq

def capsuleMatchForSymbol (g : Global) (id : ℕ) : CapsuleMatch where
  name := g.nameAt id
  defs := (g.spanRange id).map fun s => ⟨g.blobAt s.blobIdx, s.start, s.stop⟩
  edges := (g.edgesOf id).map fun e =>
    ⟨e.kind, g.nameAt e.target, e.confidence, g.blobAt e.evidence.blobIdx, e.evidence.start, e.evidence.stop, none⟩

def CapsuleMatch.pushDef (d : CapsuleDef) (m : CapsuleMatch) : CapsuleMatch := { m with defs := m.defs ++ [d] }

def CapsuleMatch.pushEdge (e : CapsuleEdge) (m : CapsuleMatch) : CapsuleMatch := { m with edges := m.edges ++ [e] }

def updateMatch (name : String) (f : CapsuleMatch → CapsuleMatch) : List CapsuleMatch → List CapsuleMatch
  | [] => []
  | m :: ms => if m.name = name then f m :: ms else m :: updateMatch name f ms

def addDef (symbol : String) (ms : List CapsuleMatch) (d : PendingDef) : List CapsuleMatch :=
  if d.name = symbol ∨ symbol.toList.isPrefixOf d.name.toList then
    if ms.any (·.name = d.name) then
      updateMatch d.name (CapsuleMatch.pushDef ⟨d.blob, d.start, d.stop⟩) ms
    else ms ++ [⟨d.name, [⟨d.blob, d.start, d.stop⟩], []⟩]
  else ms

def addEdge (ms : List CapsuleMatch) (e : PendingEdge) : List CapsuleMatch :=
  updateMatch e.src (CapsuleMatch.pushEdge ⟨e.kind, e.dst, e.conf, e.blob, e.start, e.stop, e.source⟩) ms

def mergePendingDefsEdges (pending : PendingFacts) (symbol : String) (ms : List CapsuleMatch) : List CapsuleMatch :=
  pending.edges.foldl addEdge (pending.defs.foldl (addDef symbol) ms)

structure Snapshot where
  global : Global
  pending : PendingFacts

/-- The end of `Snapshot::open`. The loaded paths only say in which file a definition is, and are left out. -/
def openFiles (g : Global) (pending : PendingFacts) : Except String Snapshot := do
  let _ ← loadPathRecords g.sidecar
  .ok ⟨g, pending⟩

namespace Snapshot

variable (s : Snapshot)

def query (symbol : String) : List CapsuleMatch :=
  let found := (s.global.symbolCandidateIds symbol).map (capsuleMatchForSymbol s.global)
  if s.pending.defs = [] ∧ s.pending.edges = [] then found else mergePendingDefsEdges s.pending symbol found

def kind (name : String) : UInt8 := ((s.global.symbols.find? (·.1 = name)).map Prod.snd).getD otherKind

structure VisibleDef where
  name : String
  kind : UInt8
  shown : CapsuleDef
  deriving DecidableEq

structure VisibleEdge where
  src : String
  shown : CapsuleEdge
  deriving DecidableEq

def ShowsDef (d : VisibleDef) : Prop :=
  s.kind d.name = d.kind ∧ ∃ m ∈ s.query d.name, m.name = d.name ∧ d.shown ∈ m.defs

def ShowsEdge (e : VisibleEdge) : Prop := ∃ m ∈ s.query e.src, m.name = e.src ∧ e.shown ∈ m.edges

instance (s : Snapshot) : DecidablePred s.ShowsDef := fun _ => inferInstanceAs (Decidable (_ ∧ _))

def visibleDefs : Set VisibleDef := {d | s.ShowsDef d}

def visibleEdges : Set VisibleEdge := {e | s.ShowsEdge e}

end Snapshot
end GraphZero.Store
