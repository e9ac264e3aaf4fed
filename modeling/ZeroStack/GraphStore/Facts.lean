import Std.Data.TreeMap
import ZeroStack.DeltaLog.Segment
import ZeroStack.Wire.Utf8

/-! The facts in the write-ahead entries of the graph store: definitions and edges, and the blobs that the entries
touch. -/

open Wire GraphZero.DeltaLog List

namespace GraphZero.Store

def blobEntry : UInt8 := 0
def symbolEntry : UInt8 := 1
def edgeEntry : UInt8 := 2
def coverageEntry : UInt8 := 4

/-! The codec of the payloads. A reader takes a field off the front of what is left. -/

section Codec

variable (bytes : List UInt8)

def pushU16LenPrefixed : Option (List UInt8) :=
  if 65535 < bytes.length then none else some (leBytes 2 bytes.length ++ bytes)

def encodeSource : Option String → Option (List UInt8)
  | none => some []
  | some source => pushU16LenPrefixed (utf8Bytes source)

def encodeEdgeWithMeta (src dst : String) (kind conf : UInt8) (start stop : UInt32) (source : Option String) :
    Option (List UInt8) := do
  let src ← pushU16LenPrefixed (utf8Bytes src)
  let dst ← pushU16LenPrefixed (utf8Bytes dst)
  let source ← encodeSource source
  some (src ++ (dst ++ (kind :: conf :: (leBytes 4 start.toNat ++ (leBytes 4 stop.toNat ++ source)))))

def readWord (width : ℕ) (bytes : List UInt8) : Option (ℕ × List UInt8) :=
  if bytes.length < width then none else some (ofLe (bytes.take width), bytes.drop width)

def readUtf8Field (len : ℕ) (bytes : List UInt8) : Option (String × List UInt8) :=
  if bytes.length < len then none else (fromUtf8 (bytes.take len)).map (·, bytes.drop len)

def readText : Option (String × List UInt8) := do
  let (len, bytes) ← readWord 2 bytes
  readUtf8Field len bytes

def readOptionalSource : Option String :=
  if bytes = [] then none else (readText bytes).map Prod.fst

/-- The name and the span; kind and tier of the symbol are decoded and never used. -/
def decodeSymbol : Option (String × UInt32 × UInt32) := do
  let (name, bytes) ← readText bytes
  let (_, bytes) ← readWord 2 bytes
  let (start, bytes) ← readWord 4 bytes
  let (stop, _) ← readWord 4 bytes
  some (name, UInt32.ofNat start, UInt32.ofNat stop)

structure EdgePayload where
  src : String
  dst : String
  kind : UInt8
  conf : UInt8
  start : UInt32
  stop : UInt32
  source : Option String
  deriving DecidableEq

def decodeEdge : Option EdgePayload := do
  let (src, bytes) ← readText bytes
  let (dst, bytes) ← readText bytes
  let (kind, bytes) ← readWord 1 bytes
  let (conf, bytes) ← readWord 1 bytes
  let (start, bytes) ← readWord 4 bytes
  let (stop, bytes) ← readWord 4 bytes
  some ⟨src, dst, UInt8.ofNat kind, UInt8.ofNat conf, UInt32.ofNat start, UInt32.ofNat stop, readOptionalSource bytes⟩

theorem length_of_readText {bytes rest : List UInt8} {s : String} (h : readText bytes = some (s, rest)) :
    (utf8Bytes s).length ≤ 65535 := by
  simp only [readText, bind, Option.bind_eq_some_iff, Prod.exists] at h
  obtain ⟨len, body, hword, hfield⟩ := h
  have hlen : len ≤ 65535 := by
    unfold readWord at hword
    split_ifs at hword with hshort
    cases hword
    have hlt := ofBe_lt (bytes.take 2).reverse
    rw [length_reverse, length_take, min_eq_left (by omega)] at hlt
    rw [ofLe]
    omega
  unfold readUtf8Field at hfield
  split_ifs at hfield with hshort
  obtain ⟨text, htext, hpair⟩ := Option.map_eq_some_iff.mp hfield
  cases hpair
  rw [utf8Bytes_of_fromUtf8 htext, length_take]
  omega

end Codec

structure ValidatedPublishEdge where
  src : String
  dst : String
  kind : UInt8
  confidence : UInt8
  blob : ContentHash
  start : UInt32
  stop : UInt32
  source : String
  deriving DecidableEq

/-- The entries of `append_published_edge`: the edge, and the tier-C mark of its blob. -/
def publishedEntries (edge : ValidatedPublishEdge) : Option (List DeltaEntry) := do
  let payload ← encodeEdgeWithMeta edge.src edge.dst edge.kind edge.confidence edge.start edge.stop (some edge.source)
  some [⟨edgeEntry, edge.blob, payload⟩, ⟨coverageEntry, edge.blob, [0b100]⟩]

structure PendingDef where
  name : String
  blob : ContentHash
  start : UInt32
  stop : UInt32
  deriving DecidableEq

structure PendingEdge where
  src : String
  dst : String
  kind : UInt8
  conf : UInt8
  blob : ContentHash
  start : UInt32
  stop : UInt32
  source : Option String
  deriving DecidableEq

/-- The paths in the payloads of BLOB entries are left out: merging the facts of several segments drops them. -/
structure PendingFacts where
  defs : List PendingDef
  edges : List PendingEdge
  blobs : Std.TreeMap ContentHash UInt8

variable (e : DeltaEntry)

def definition? : Option PendingDef :=
  if e.entryType = symbolEntry then
    (decodeSymbol e.payload).map fun (name, start, stop) => ⟨name, e.blobHash, start, stop⟩
  else none

def edge? : Option PendingEdge :=
  if e.entryType = edgeEntry then
    (decodeEdge e.payload).map fun p => ⟨p.src, p.dst, p.kind, p.conf, e.blobHash, p.start, p.stop, p.source⟩
  else none

namespace PendingFacts

def empty : PendingFacts := ⟨[], [], ∅⟩

def note (facts : PendingFacts) (e : DeltaEntry) : PendingFacts :=
  if e.entryType = symbolEntry then
    match definition? e with
    | none => facts
    | some d => { facts with defs := facts.defs ++ [d], blobs := facts.blobs.insertIfNew e.blobHash 0b001 }
  else if e.entryType = edgeEntry then
    match edge? e with
    | none => facts
    | some d => { facts with edges := facts.edges ++ [d], blobs := facts.blobs.insertIfNew e.blobHash 0b001 }
  else if e.entryType = coverageEntry then { facts with blobs := facts.blobs.insert e.blobHash (e.payload.headD 0) }
  else if e.entryType = blobEntry then { facts with blobs := facts.blobs.insertIfNew e.blobHash 0 }
  else facts

def fromEntries (entries : List DeltaEntry) : PendingFacts := entries.foldl note empty

def extend (facts more : PendingFacts) : PendingFacts :=
  ⟨facts.defs ++ more.defs, facts.edges ++ more.edges, facts.blobs.insertMany more.blobs.toList⟩

def ofSegments (segments : List (List DeltaEntry)) : PendingFacts :=
  segments.foldl (fun facts entries => facts.extend (fromEntries entries)) empty

end PendingFacts

theorem length_name_definition? {e : DeltaEntry} {d : PendingDef} (h : definition? e = some d) :
    (utf8Bytes d.name).length ≤ 65535 := by
  unfold definition? at h
  split_ifs at h
  obtain ⟨⟨name, start, stop⟩, hdecode, rfl⟩ := Option.map_eq_some_iff.mp h
  simp only [decodeSymbol, bind, Option.bind_eq_some_iff, Prod.exists] at hdecode
  obtain ⟨text, rest, hname, _, _, _, _, _, _, _, _, _, hpair⟩ := hdecode
  cases hpair
  exact length_of_readText hname

theorem length_names_edge? {e : DeltaEntry} {d : PendingEdge} (h : edge? e = some d) :
    (utf8Bytes d.src).length ≤ 65535 ∧ (utf8Bytes d.dst).length ≤ 65535 := by
  unfold edge? at h
  split_ifs at h
  obtain ⟨p, hdecode, rfl⟩ := Option.map_eq_some_iff.mp h
  simp only [decodeEdge, bind, Option.bind_eq_some_iff, Prod.exists] at hdecode
  obtain ⟨src, rest, hsrc, dst, rest', hdst, _, _, _, _, _, _, _, _, _, _, _, _, hpayload⟩ := hdecode
  cases hpayload
  exact ⟨length_of_readText hsrc, length_of_readText hdst⟩

def touches : Prop :=
  (definition? e).isSome ∨ (edge? e).isSome ∨ e.entryType = coverageEntry ∨ e.entryType = blobEntry

namespace PendingFacts
variable {facts more : PendingFacts} {e : DeltaEntry} {hash : ContentHash} {entries rest : List DeltaEntry}

structure Of (facts : PendingFacts) (entries : List DeltaEntry) : Prop where
  defs : facts.defs = entries.filterMap definition?
  edges : facts.edges = entries.filterMap edge?
  blobs : ∀ hash, hash ∈ facts.blobs ↔ ∃ e ∈ entries, touches e ∧ e.blobHash = hash

theorem of_empty : Of empty [] := ⟨rfl, rfl, fun hash => by simp [empty]⟩

theorem Of.note (h : Of facts entries) : Of (facts.note e) (entries ++ [e]) := by
  unfold PendingFacts.note
  by_cases hsymbol : e.entryType = symbolEntry
  · have hedge : edge? e = none := if_neg (by rw [hsymbol]; decide)
    rw [if_pos hsymbol]
    cases hdef : definition? e with
    | none =>
      have hquiet : ¬ touches e := by simp [touches, hdef, hedge, hsymbol]; decide
      exact ⟨by simp [h.defs, hdef], by simp [h.edges, hedge], fun hash => by simp [h.blobs, hquiet]⟩
    | some d =>
      have htouch : touches e := .inl (by rw [hdef]; rfl)
      exact ⟨by simp [h.defs, hdef], by simp [h.edges, hedge], fun hash => by simp [h.blobs, htouch, or_comm]⟩
  · have hdef : definition? e = none := if_neg hsymbol
    rw [if_neg hsymbol]
    by_cases hkind : e.entryType = edgeEntry
    · rw [if_pos hkind]
      cases hedge : edge? e with
      | none =>
        have hquiet : ¬ touches e := by simp [touches, hdef, hedge, hkind]; decide
        exact ⟨by simp [h.defs, hdef], by simp [h.edges, hedge], fun hash => by simp [h.blobs, hquiet]⟩
      | some d =>
        have htouch : touches e := .inr (.inl (by rw [hedge]; rfl))
        exact ⟨by simp [h.defs, hdef], by simp [h.edges, hedge], fun hash => by simp [h.blobs, htouch, or_comm]⟩
    · have hedge : edge? e = none := if_neg hkind
      rw [if_neg hkind]
      refine ⟨?_, ?_, fun hash => ?_⟩
      · split_ifs <;> simp [h.defs, hdef]
      · split_ifs <;> simp [h.edges, hedge]
      · split_ifs with hcoverage hblob <;> simp [h.blobs, touches, *, or_comm]

theorem Of.extend (h : Of facts entries) (hmore : Of more rest) : Of (facts.extend more) (entries ++ rest) := by
  refine ⟨?_, ?_, fun hash => ?_⟩
  · rw [filterMap_append, ← h.defs, ← hmore.defs]
    rfl
  · rw [filterMap_append, ← h.edges, ← hmore.edges]
    rfl
  · rw [PendingFacts.extend, Std.TreeMap.mem_insertMany_list, Std.TreeMap.map_fst_toList_eq_keys, contains_iff_mem,
      Std.TreeMap.mem_keys, h.blobs, hmore.blobs]
    simp only [mem_append, or_and_right, exists_or]

theorem of_fromEntries (entries : List DeltaEntry) : Of (fromEntries entries) entries := by
  induction entries using List.reverseRecOn with
  | nil => exact of_empty
  | append_singleton entries e ih =>
    rw [fromEntries, foldl_append]
    exact ih.note

theorem of_ofSegments (segments : List (List DeltaEntry)) : Of (ofSegments segments) segments.flatten := by
  induction segments using List.reverseRecOn with
  | nil => exact of_empty
  | append_singleton segments entries ih =>
    rw [ofSegments, foldl_append, flatten_append, flatten_singleton]
    exact ih.extend (of_fromEntries entries)

end PendingFacts
end GraphZero.Store
