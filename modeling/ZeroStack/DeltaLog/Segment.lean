import ZeroStack.Linked.Chain
import ZeroStack.Wire.Reader

/-! The segments of the delta log: how entries are laid out in a segment file, and what the reader accepts. The
segments of a directory are chained by their checksums. -/

open Wire List

namespace GraphZero

abbrev ContentHash := BitVec 256

def ContentHash.bytes (hash : ContentHash) : List UInt8 := beBytes 32 hash.toNat

def ContentHash.ofBytes (bytes : List UInt8) : ContentHash := BitVec.ofNat 256 (ofBe bytes)

@[simp] theorem ContentHash.length_bytes (hash : ContentHash) : hash.bytes.length = 32 := length_beBytes ..

@[simp] theorem ContentHash.ofBytes_bytes (hash : ContentHash) : ContentHash.ofBytes hash.bytes = hash := by
  have hlt : hash.toNat < 256 ^ 32 := hash.isLt
  rw [ofBytes, bytes, ofBe_beBytes hlt, BitVec.ofNat_toNat, BitVec.setWidth_eq]

namespace DeltaLog

def segmentMaxSize : ℕ := 64000000
def segmentHeaderLen : ℕ := 0x24
def maxDeltaSegmentEntries : ℕ := 1000000

def deltaMagic : List UInt8 := [0x47, 0x5A, 0x44, 0x4C]

/-- `crc32fast::hash`, bit by bit. -/
def crc32 (bytes : List UInt8) : UInt32 :=
  let bit (crc : UInt32) : UInt32 := if crc &&& 1 = 0 then crc >>> 1 else (crc >>> 1) ^^^ 0xEDB88320
  let byte (crc : UInt32) (b : UInt8) : UInt32 := bit (bit (bit (bit (bit (bit (bit (bit (crc ^^^ b.toUInt32))))))))
  bytes.foldl byte 0xFFFFFFFF ^^^ 0xFFFFFFFF

structure DeltaEntry where
  entryType : UInt8
  blobHash : ContentHash
  payload : List UInt8
  deriving DecidableEq

def DeltaEntry.encodedLen (e : DeltaEntry) : ℕ := 1 + 32 + 4 + e.payload.length

/-- `encode_into`; the length is cast to 32 bits. -/
def DeltaEntry.encode (e : DeltaEntry) : List UInt8 :=
  [e.entryType] ++ (e.blobHash.bytes ++ (leBytes 4 e.payload.length ++ e.payload))

def encodeEntries (entries : List DeltaEntry) : List UInt8 := entries.flatMap DeltaEntry.encode

inductive DeltaError where
  | truncated (len : ℕ)
  | badMagic
  | unsupportedVersion (version : UInt8)
  | entryCount (count : ℕ)
  | crcMismatch
  | truncatedMidEntry
  | payloadTruncated
  | trailing
  | idMismatch (header path : ℕ)
  | prevCrcMismatch (segment : ℕ) (expected got : UInt32)
  | idsExhausted
  deriving DecidableEq

structure SegmentHeader where
  segmentId : ℕ
  prevCrc : UInt32
  entryCount : ℕ
  crc : UInt32
  deriving DecidableEq

def SegmentHeader.encode (h : SegmentHeader) : List UInt8 :=
  deltaMagic ++ ([0x01] ++ (List.replicate 11 0 ++ (leBytes 8 h.segmentId ++ (leBytes 4 h.prevCrc.toNat ++
    (leBytes 4 h.entryCount ++ leBytes 4 h.crc.toNat)))))

def parseSegmentHeader (buf : List UInt8) : Except DeltaError SegmentHeader :=
  if buf.length < segmentHeaderLen then .error (.truncated buf.length)
  else if slice buf 0 4 ≠ deltaMagic then .error .badMagic
  else if buf.getD 4 0 ≠ 0x01 then .error (.unsupportedVersion (buf.getD 4 0))
  else
    let segmentId := ofLe (slice buf 0x10 0x18)
    let prevCrc := UInt32.ofNat (ofLe (slice buf 0x18 0x1C))
    let entryCount := ofLe (slice buf 0x1C 0x20)
    if maxDeltaSegmentEntries < entryCount then .error (.entryCount entryCount)
    else
      let storedCrc := UInt32.ofNat (ofLe (slice buf 0x20 0x24))
      if crc32 (buf.drop segmentHeaderLen) ≠ storedCrc then .error .crcMismatch
      else .ok ⟨segmentId, prevCrc, entryCount, storedCrc⟩

/-- The loop of `decode_delta_entries`; `rest` is what stands from `at` on. -/
def decodeDeltaEntries : ℕ → List UInt8 → Except DeltaError (List DeltaEntry)
  | 0, rest => if rest ≠ [] then .error .trailing else .ok []
  | count + 1, rest =>
    let len := ofLe (slice rest 33 37)
    if rest.length < 37 then .error .truncatedMidEntry
    else if rest.length < 37 + len then .error .payloadTruncated
    else do
      let entries ← decodeDeltaEntries count (rest.drop (37 + len))
      .ok (⟨rest.getD 0 0, ContentHash.ofBytes (slice rest 1 33), slice rest 37 (37 + len)⟩ :: entries)

structure ValidatedSegment where
  id : ℕ
  prevCrc : UInt32
  crc : UInt32
  entries : List DeltaEntry
  deriving DecidableEq

def readValidatedSegment (buf : List UInt8) : Except DeltaError ValidatedSegment := do
  let header ← parseSegmentHeader buf
  let entries ← decodeDeltaEntries header.entryCount (buf.drop segmentHeaderLen)
  .ok ⟨header.segmentId, header.prevCrc, header.crc, entries⟩

def checkLink (expectedId : ℕ) (previous : Option ValidatedSegment) (segment : ValidatedSegment) :
    Except DeltaError Unit :=
  if segment.id ≠ expectedId then .error (.idMismatch segment.id expectedId)
  else match previous with
    | none => .ok ()
    | some previous =>
      if segment.prevCrc ≠ previous.crc then .error (.prevCrcMismatch segment.id previous.crc segment.prevCrc)
      else .ok ()

def readSegmentChain : List ValidatedSegment → List (ℕ × List UInt8) → Except DeltaError (List ValidatedSegment)
  | segments, [] => .ok segments
  | segments, (expectedId, buf) :: files =>
    if buf = [] then readSegmentChain segments files
    else do
      let segment ← readValidatedSegment buf
      checkLink expectedId segments.getLast? segment
      readSegmentChain (segments ++ [segment]) files

structure Segment where
  id : ℕ
  prevCrc : UInt32
  entries : List DeltaEntry
  deriving DecidableEq

namespace Segment

variable (s : Segment)

def crc : UInt32 := crc32 (encodeEntries s.entries)

def header : SegmentHeader := ⟨s.id, s.prevCrc, s.entries.length, s.crc⟩

def bytes : List UInt8 := s.header.encode ++ encodeEntries s.entries

def file : ℕ × List UInt8 := (s.id, if s.entries = [] then [] else s.bytes)

def validated : ValidatedSegment := ⟨s.id, s.prevCrc, s.crc, s.entries⟩

structure Readable (s : Segment) : Prop where
  id_lt : s.id < 2 ^ 64
  count_le : s.entries.length ≤ maxDeltaSegmentEntries
  payload_lt : ∀ e ∈ s.entries, e.payload.length < 2 ^ 32

end Segment

section Entry

theorem DeltaEntry.length_encode (e : DeltaEntry) : e.encode.length = e.encodedLen := by
  simp only [DeltaEntry.encode, DeltaEntry.encodedLen, length_append, length_singleton,
    ContentHash.length_bytes, length_leBytes]
  omega

theorem encodeEntries_append (as bs : List DeltaEntry) : encodeEntries
    (as ++ bs) = encodeEntries as ++ encodeEntries bs :=
  flatMap_append

theorem encodeEntries_singleton (e : DeltaEntry) : encodeEntries [e] = e.encode := by simp [encodeEntries]

variable {e : DeltaEntry}

theorem slices_encode (rest : List UInt8) :
    slice (e.encode ++ rest) 1 33 = e.blobHash.bytes ∧ slice (e.encode ++ rest) 33 37 = leBytes 4 e.payload.length ∧
      slice (e.encode ++ rest) 37 (37 + e.payload.length) = e.payload := by
  have htype : [e.entryType].length = 1 := rfl
  simp only [DeltaEntry.encode, append_assoc]
  refine ⟨?_, ?_, ?_⟩
  all_goals
    simp (disch := simp) only [slice_skip, slice_here, htype, ContentHash.length_bytes, length_leBytes, Nat.reduceSub]
  exact slice_here (by omega)

theorem decodeDeltaEntries_cons (h : e.payload.length < 2 ^ 32) (count : ℕ) (rest : List UInt8) :
    decodeDeltaEntries (count + 1) (e.encode ++ rest) = (decodeDeltaEntries count rest).map (e :: ·) := by
  obtain ⟨hhash, hlen, hpayload⟩ := slices_encode rest
  have hword : ofLe (slice (e.encode ++ rest) 33 37) = e.payload.length := by
    rw [hlen, ofLe_leBytes (by simpa using h)]
  have hlength : (e.encode ++ rest).length = 37 + e.payload.length + rest.length := by
    rw [length_append, DeltaEntry.length_encode, DeltaEntry.encodedLen]
  have hdrop : (e.encode ++ rest).drop (37 + e.payload.length) = rest := by
    apply drop_left'
    rw [DeltaEntry.length_encode, DeltaEntry.encodedLen]
  rw [decodeDeltaEntries]
  simp only [hword]
  rw [if_neg (by omega), if_neg (by omega), hdrop, hhash, hpayload, ContentHash.ofBytes_bytes]
  cases decodeDeltaEntries count rest <;> rfl

theorem decodeDeltaEntries_encodeEntries {es : List DeltaEntry} (h : ∀ e ∈ es, e.payload.length < 2 ^ 32) :
    decodeDeltaEntries es.length (encodeEntries es) = .ok es := by
  induction es with
  | nil => rfl
  | cons e es ih =>
    obtain ⟨he, hes⟩ := forall_mem_cons.mp h
    have hcons : encodeEntries (e :: es) = e.encode ++ encodeEntries es := rfl
    rw [hcons, length_cons, decodeDeltaEntries_cons he, ih hes]
    rfl

end Entry

section Header

@[simp] theorem SegmentHeader.length_encode (h : SegmentHeader) : h.encode.length = segmentHeaderLen := by
  simp [SegmentHeader.encode, deltaMagic, segmentHeaderLen]

theorem slices_header (h : SegmentHeader) (body : List UInt8) :
    slice (h.encode ++ body) 0 4 = deltaMagic ∧ (h.encode ++ body).getD 4 0 = 0x01 ∧
      slice (h.encode ++ body) 0x10 0x18 = leBytes 8 h.segmentId ∧
        slice (h.encode ++ body) 0x18 0x1C = leBytes 4 h.prevCrc.toNat ∧
          slice (h.encode ++ body) 0x1C 0x20 = leBytes 4 h.entryCount ∧
            slice (h.encode ++ body) 0x20 0x24 = leBytes 4 h.crc.toNat := by
  have hmagic : deltaMagic.length = 4 := rfl
  have hversion : [(0x01 : UInt8)].length = 1 := rfl
  refine ⟨rfl, rfl, ?_⟩
  simp only [SegmentHeader.encode, append_assoc]
  refine ⟨?_, ?_, ?_, ?_⟩
  all_goals
    simp (disch := simp [hmagic]) only [slice_skip, slice_here, hmagic, hversion, length_replicate, length_leBytes,
      Nat.reduceSub]

theorem ofNat_ofLe_leBytes (c : UInt32) : UInt32.ofNat (ofLe (leBytes 4 c.toNat)) = c := by
  rw [ofLe_leBytes c.toNat_lt, UInt32.ofNat_toNat]

theorem parseSegmentHeader_encode {h : SegmentHeader} {body : List UInt8} (hid : h.segmentId < 2 ^ 64)
    (hcount : h.entryCount < 2 ^ 32) (hcrc : h.crc = crc32 body) : parseSegmentHeader (h.encode ++ body) =
      if maxDeltaSegmentEntries < h.entryCount then .error (.entryCount h.entryCount) else .ok h := by
  obtain ⟨hmagic, hversion, hsid, hsprev, hscount, hscrc⟩ := slices_header h body
  have hlong : ¬ (h.encode ++ body).length < segmentHeaderLen := by
    rw [length_append, SegmentHeader.length_encode]
    omega
  have hbody : (h.encode ++ body).drop segmentHeaderLen = body := drop_left' (SegmentHeader.length_encode h)
  have hidword : ofLe (leBytes 8 h.segmentId) = h.segmentId := ofLe_leBytes hid
  have hcountword : ofLe (leBytes 4 h.entryCount) = h.entryCount := ofLe_leBytes hcount
  rw [parseSegmentHeader]
  simp only [hsid, hsprev, hscount, hscrc, hbody, hidword, hcountword, ofNat_ofLe_leBytes, hcrc, ne_eq, not_true,
    if_false]
  split_ifs
  · rfl
  · rw [← hcrc]

end Header

namespace Segment
variable {s : Segment}

theorem readValidatedSegment_bytes (h : s.Readable) : readValidatedSegment s.bytes = .ok s.validated := by
  have hcount : s.header.entryCount < 2 ^ 32 := lt_of_le_of_lt h.count_le (by decide)
  have hheader : parseSegmentHeader s.bytes = .ok s.header := by
    rw [bytes, parseSegmentHeader_encode h.id_lt hcount rfl]
    exact if_neg (Nat.not_lt.mpr h.count_le)
  have hentries : decodeDeltaEntries s.header.entryCount (encodeEntries s.entries) = .ok s.entries :=
    decodeDeltaEntries_encodeEntries h.payload_lt
  rw [readValidatedSegment, hheader]
  show (decodeDeltaEntries s.header.entryCount (encodeEntries s.entries) >>= _) = _
  rw [hentries]
  rfl

end Segment

def live (segments : List Segment) : List Segment := segments.filter (·.entries ≠ [])

@[simp] theorem live_append (as bs : List Segment) : live (as ++ bs) = live as ++ live bs := filter_append ..

structure Stored (files : List (ℕ × List UInt8)) (segments : List Segment) : Prop where
  files_eq : files = segments.map Segment.file
  readable : ∀ s ∈ segments, s.Readable
  chained : ∃ start, Linked.Chained Segment.crc Segment.prevCrc start (live segments)

theorem checkLink_validated {front : List Segment} {s : Segment} {start : UInt32}
    (h : Linked.Chained Segment.crc Segment.prevCrc start (front ++ [s])) :
    checkLink s.id (front.map Segment.validated).getLast? s.validated = .ok () := by
  obtain ⟨-, hprev⟩ := Linked.chained_concat.mp h
  unfold checkLink
  rw [if_neg (by simp [Segment.validated]), List.getLast?_map]
  cases hlast : front.getLast? with
  | none => rfl
  | some previous =>
    have hcrc : s.prevCrc = previous.crc := by rw [hprev, Linked.head, hlast]; rfl
    exact if_neg (not_not.mpr hcrc)

theorem Stored.readSegmentChain_from {front segments : List Segment} (hreadable : ∀ s ∈ segments, s.Readable)
    {start : UInt32} (hchained : Linked.Chained Segment.crc Segment.prevCrc start (front ++ live segments)) :
    readSegmentChain (front.map Segment.validated) (segments.map Segment.file) =
      .ok ((front ++ live segments).map Segment.validated) := by
  -- `front` is what the loop has read already
  induction segments generalizing front with
  | nil => simp [readSegmentChain, live]
  | cons s segments ih =>
    obtain ⟨hs, hrest⟩ := forall_mem_cons.mp hreadable
    rw [map_cons, Segment.file, readSegmentChain]
    by_cases hempty : s.entries = []
    · have hlive : live (s :: segments) = live segments := by simp [live, hempty]
      rw [hlive] at hchained ⊢
      rw [if_pos (if_pos hempty)]
      exact ih hrest hchained
    · have hlive : front ++ live (s :: segments) = (front ++ [s]) ++ live segments := by simp [live, hempty]
      rw [hlive] at hchained ⊢
      have hlink : checkLink s.id (front.map Segment.validated).getLast? s.validated = .ok () := by
        apply checkLink_validated
        exact Linked.chained_of_append hchained
      have hnext := ih hrest hchained
      rw [map_append] at hnext
      rw [if_neg hempty, Segment.readValidatedSegment_bytes hs]
      show (checkLink s.id _ s.validated >>= _) = _
      rw [hlink]
      exact hnext

theorem Stored.readSegmentChain {files : List (ℕ × List UInt8)} {segments : List Segment} (h : Stored files segments) :
    DeltaLog.readSegmentChain [] files = .ok ((live segments).map Segment.validated) := by
  obtain ⟨start, hchained⟩ := h.chained
  have hread := @Stored.readSegmentChain_from [] segments h.readable start hchained
  rw [h.files_eq]
  exact hread

end DeltaLog
end GraphZero
