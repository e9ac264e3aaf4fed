import Std.Data.TreeMap
import ZeroStack.DeltaLog.Segment
import ZeroStack.Wire.Decimal
import ZeroStack.Wire.Hex
import ZeroStack.Wire.Pieces

/-! The file with the paths of a snapshot, a line for each blob. Opening a snapshot refuses a line that is no record,
and compaction skips it. A path with a newline goes over several lines. -/

open Wire List

namespace GraphZero.Store

structure BlobMeta where
  path : List Char
  mtimeNanos : BitVec 128
  size : UInt64
  tierBits : UInt8
  deriving DecidableEq

/-- `u8::from_str_radix`, which takes digits of either case and a plus sign before them. -/
def hexDigitValue (c : Char) : Option ℕ :=
  if 'A' ≤ c ∧ c ≤ 'F' then some (c.toNat - 55) else hexCharValue c

def readHexByte (high low : Char) : Option UInt8 := do
  let l ← hexDigitValue low
  if high = '+' then some (UInt8.ofNat l)
  else do
    let h ← hexDigitValue high
    some (UInt8.ofNat (16 * h + l))

def readHexBytes : List Char → Option (List UInt8)
  | [] => some []
  | [_] => none
  | high :: low :: text => do
    let b ← readHexByte high low
    let rest ← readHexBytes text
    some (b :: rest)

def fromHex (text : List Char) : Option ContentHash :=
  if text.length ≠ 64 then none else (readHexBytes text).map ContentHash.ofBytes

def lineStart (hash : ContentHash) (record : BlobMeta) : List Char :=
  hexChars hash.bytes ++ ' ' :: (decimal record.mtimeNanos.toNat ++ ' ' ::
    (decimal record.size.toNat ++ ' ' :: (decimal record.tierBits.toNat ++ [' '])))

def pathLine (hash : ContentHash) (record : BlobMeta) : List Char := lineStart hash record ++ record.path

structure PathFields where
  hash : List Char
  mtime : List Char
  size : List Char
  tier : List Char
  path : List Char

def splitFields (line : List Char) : Option PathFields := do
  let (hash, rest) ← splitOnce [' '] line
  let (mtime, rest) ← splitOnce [' '] rest
  let (size, rest) ← splitOnce [' '] rest
  let (tier, path) ← splitOnce [' '] rest
  some ⟨hash, mtime, size, tier, path⟩

def parsePathRecord (line : List Char) : Except String (ContentHash × BlobMeta) := do
  let some fields := splitFields line | .error "malformed path record"
  let some hash := fromHex fields.hash | .error "invalid blob hash"
  let mtime ← (readDecimal (2 ^ 128) fields.mtime).mapError fun _ => "invalid mtime"
  let size ← (readDecimal (2 ^ 64) fields.size).mapError fun _ => "invalid size"
  let tier ← (readDecimal (2 ^ 8) fields.tier).mapError fun _ => "invalid tier bits"
  .ok (hash, ⟨fields.path, BitVec.ofNat 128 mtime, UInt64.ofNat size, UInt8.ofNat tier⟩)

def insertPathRecord (records : Std.TreeMap ContentHash BlobMeta) (line : List Char × ℕ) :
    Except String (Std.TreeMap ContentHash BlobMeta) :=
  match parsePathRecord line.1 with
  | .error error => .error s!"{error} at line {line.2}"
  | .ok (hash, record) => .ok (records.insert hash record)

def loadPathRecords (text : List Char) : Except String (Std.TreeMap ContentHash BlobMeta) :=
  ((textLines text).zipIdx 1).foldlM insertPathRecord ∅

def pathsSidecar (records : List (ContentHash × BlobMeta)) : List Char :=
  records.flatMap fun r => pathLine r.1 r.2 ++ ['\n']

def parsePathSidecarLine (line : List Char) : Option (ContentHash × BlobMeta) := do
  let fields ← splitFields line
  let hash ← fromHex fields.hash
  let number (bound : ℕ) (text : List Char) : ℕ := (readDecimal bound text).toOption.getD 0
  some (hash, ⟨fields.path, BitVec.ofNat 128 (number (2 ^ 128) fields.mtime),
    UInt64.ofNat (number (2 ^ 64) fields.size), UInt8.ofNat (number (2 ^ 8) fields.tier)⟩)

def sidecarBlobs (text : List Char) : List (ContentHash × BlobMeta) := (textLines text).filterMap parsePathSidecarLine

section Records

theorem loadPathRecords_isOk {text : List Char} :
    (∃ records, loadPathRecords text = .ok records) ↔ ∀ line ∈ textLines text, ∃ r, parsePathRecord line = .ok r := by
  have hfold : ∀ (lines : List (List Char)) (records : Std.TreeMap ContentHash BlobMeta) (k : ℕ),
      (∃ all, (lines.zipIdx k).foldlM insertPathRecord records = .ok all) ↔
        ∀ line ∈ lines, ∃ r, parsePathRecord line = .ok r := by
    intro lines
    induction lines with
    | nil => exact fun records k => iff_of_true ⟨records, rfl⟩ fun _ h => (not_mem_nil h).elim
    | cons line lines ih =>
      intro records k
      rw [zipIdx_cons, foldlM_cons, forall_mem_cons, insertPathRecord]
      cases hline : parsePathRecord line with
      | error error => simp [bind, Except.bind]
      | ok r =>
        refine (ih (records.insert r.1 r.2) (k + 1)).trans ?_
        simp
  exact hfold (textLines text) ∅ 1

theorem readHexByte_hexChar (b : UInt8) : readHexByte (hexChar (b.toNat / 16)) (hexChar (b.toNat % 16)) = some b := by
  have hdigit : ∀ n : Fin 16, hexDigitValue (hexChar n) = some n.val ∧ hexChar n ≠ '+' := by decide
  have hb : b.toNat < 256 := b.toNat_lt
  obtain ⟨hhigh, hsign⟩ := hdigit ⟨b.toNat / 16, by omega⟩
  have hlow := (hdigit ⟨b.toNat % 16, by omega⟩).1
  dsimp only at hhigh hsign hlow
  rw [readHexByte, hlow, Option.bind_eq_bind, Option.bind_some, if_neg hsign, hhigh, Option.bind_some,
    Nat.div_add_mod, UInt8.ofNat_toNat]

theorem readHexBytes_hexChars (bytes : List UInt8) : readHexBytes (hexChars bytes) = some bytes := by
  induction bytes with
  | nil => rfl
  | cons b bytes ih =>
    show readHexBytes (hexChar (b.toNat / 16) :: hexChar (b.toNat % 16) :: hexChars bytes) = some (b :: bytes)
    rw [readHexBytes, readHexByte_hexChar, ih]
    rfl

theorem fromHex_hexChars (hash : ContentHash) : fromHex (hexChars hash.bytes) = some hash := by
  have hlength : (hexChars hash.bytes).length = 64 := by
    rw [hexChars, length_flatMap]
    simp
  rw [fromHex, if_neg (not_not_intro hlength), readHexBytes_hexChars, Option.map_some, ContentHash.ofBytes_bytes]

theorem mem_hexChars {bytes : List UInt8} {c : Char} (h : c ∈ hexChars bytes) : ∃ n : Fin 16, hexChar n = c := by
  obtain ⟨b, -, hc⟩ := mem_flatMap.mp h
  have hb : b.toNat < 256 := b.toNat_lt
  simp only [mem_cons, not_mem_nil, or_false] at hc
  rcases hc with rfl | rfl
  · exact ⟨⟨b.toNat / 16, by omega⟩, rfl⟩
  · exact ⟨⟨b.toNat % 16, by omega⟩, rfl⟩

theorem notMem_hexChars {bytes : List UInt8} {c : Char} (h : ∀ n : Fin 16, hexChar n ≠ c) : c ∉ hexChars bytes :=
  fun hmem => (mem_hexChars hmem).elim h

theorem notMem_decimal {n : ℕ} {c : Char} (h : c.isDigit = false) : c ∉ decimal n := by
  intro hmem
  rw [isDigit_of_mem_decimal hmem] at h
  cases h

theorem readDecimal_decimal {bound n : ℕ} (h : n < bound) : readDecimal bound (decimal n) = .ok n := by
  rw [readDecimal_of_digits (decimal_ne_nil n) fun c hc => isDigit_of_mem_decimal hc, readDigits_decimal h]

variable (hash : ContentHash) (record : BlobMeta) (path : List Char)

theorem splitFields_line : splitFields (lineStart hash record ++ path) =
    some ⟨hexChars hash.bytes, decimal record.mtimeNanos.toNat, decimal record.size.toNat,
      decimal record.tierBits.toNat, path⟩ := by
  have hspace : ∀ n, ' ' ∉ decimal n := fun n => notMem_decimal rfl
  have hhash : ' ' ∉ hexChars hash.bytes := notMem_hexChars (by decide)
  simp only [splitFields, lineStart, append_assoc, cons_append, nil_append, splitOnce_append_cons hhash,
    splitOnce_append_cons (hspace _), Option.bind_eq_bind, Option.bind_some]

theorem parsePathRecord_line :
    parsePathRecord (lineStart hash record ++ path) = .ok (hash, { record with path := path }) := by
  rw [parsePathRecord, splitFields_line]
  simp only [fromHex_hexChars, readDecimal_decimal record.mtimeNanos.isLt, readDecimal_decimal record.size.toNat_lt,
    readDecimal_decimal record.tierBits.toNat_lt]
  simp [Except.mapError, bind, Except.bind]

theorem parsePathSidecarLine_line :
    parsePathSidecarLine (lineStart hash record ++ path) = some (hash, { record with path := path }) := by
  rw [parsePathSidecarLine, splitFields_line]
  simp [fromHex_hexChars, readDecimal_decimal record.mtimeNanos.isLt, readDecimal_decimal record.size.toNat_lt,
    readDecimal_decimal record.tierBits.toNat_lt, Except.toOption]

theorem newline_notMem_lineStart : '\n' ∉ lineStart hash record := by
  have hdigit : ∀ n, '\n' ∉ decimal n := fun n => notMem_decimal rfl
  have hhash : '\n' ∉ hexChars hash.bytes := notMem_hexChars (by decide)
  simp [lineStart, hdigit, hhash]

theorem getLast?_lineStart : (lineStart hash record).getLast? = some ' ' := by
  refine List.getLast?_eq_some_iff.mpr ⟨hexChars hash.bytes ++ ' ' :: (decimal record.mtimeNanos.toNat ++ ' ' ::
    (decimal record.size.toNat ++ ' ' :: decimal record.tierBits.toNat)), ?_⟩
  simp [lineStart]

theorem textLines_pathLine : ∃ first rest, textLines (record.path ++ ['\n']) = first :: rest ∧
    textLines (pathLine hash record ++ ['\n']) = (lineStart hash record ++ first) :: rest := by
  have hne : lineStart hash record ≠ [] := by
    intro hnil
    have hlast := getLast?_lineStart hash record
    rw [hnil] at hlast
    cases hlast
  rw [pathLine, append_assoc]
  apply textLines_head hne (newline_notMem_lineStart hash record)
  rw [getLast?_lineStart]
  decide

end Records

/-- What follows the first line of the path would pass for records. -/
def BlobMeta.Readable (record : BlobMeta) : Prop :=
  ∀ line ∈ (textLines (record.path ++ ['\n'])).tail, ∃ r, parsePathRecord line = .ok r

theorem BlobMeta.readable_of_notMem {record : BlobMeta} (h : '\n' ∉ record.path) : record.Readable := by
  have hfree : ∀ c ∈ record.path, decide (c = '\n') = false := by
    intro c hc
    apply decide_eq_false
    rintro rfl
    exact h hc
  have hone : (textLines (record.path ++ ['\n'])).tail = [] := by
    by_cases hnil : record.path = []
    · rw [hnil]
      rfl
    · rw [textLines, splitInclusive_append hnil hfree]
      rfl
  intro line hline
  rw [hone] at hline
  exact (not_mem_nil hline).elim

section Sidecar
variable {records : List (ContentHash × BlobMeta)}

theorem textLines_pathsSidecar :
    textLines (pathsSidecar records) = records.flatMap fun r => textLines (pathLine r.1 r.2 ++ ['\n']) := by
  induction records with
  | nil => rfl
  | cons r records ih =>
    rw [pathsSidecar, flatMap_cons, flatMap_cons, append_assoc, singleton_append, textLines_append, ← ih]
    rfl

theorem loadPathRecords_pathsSidecar :
    (∃ all, loadPathRecords (pathsSidecar records) = .ok all) ↔ ∀ r ∈ records, r.2.Readable := by
  have hlines : ∀ r : ContentHash × BlobMeta, (∀ line ∈ textLines (pathLine r.1 r.2 ++ ['\n']),
      ∃ parsed, parsePathRecord line = .ok parsed) ↔ r.2.Readable := by
    intro r
    obtain ⟨first, rest, hpath, hline⟩ := textLines_pathLine r.1 r.2
    rw [BlobMeta.Readable, hline, hpath, forall_mem_cons, tail_cons]
    exact and_iff_right ⟨_, parsePathRecord_line r.1 r.2 first⟩
  rw [loadPathRecords_isOk, textLines_pathsSidecar]
  simp only [mem_flatMap, forall_exists_index, and_imp, ← hlines]
  exact ⟨fun h r hr line hline => h line r hr hline, fun h line r hr hline => h r hr line hline⟩

theorem exists_mem_sidecarBlobs {r : ContentHash × BlobMeta} (h : r ∈ records) :
    ∃ record, (r.1, record) ∈ sidecarBlobs (pathsSidecar records) := by
  obtain ⟨first, rest, -, hline⟩ := textLines_pathLine r.1 r.2
  refine ⟨_, mem_filterMap.mpr ⟨_, ?_, parsePathSidecarLine_line r.1 r.2 first⟩⟩
  rw [textLines_pathsSidecar]
  refine mem_flatMap.mpr ⟨r, h, ?_⟩
  rw [hline]
  exact mem_cons_self

theorem newline_notMem_path {text : List Char} {r : ContentHash × BlobMeta} (h : r ∈ sidecarBlobs text) :
    '\n' ∉ r.2.path := by
  obtain ⟨line, hline, hparsed⟩ := mem_filterMap.mp h
  have hfree := newline_notMem_of_mem_textLines hline
  simp only [parsePathSidecarLine, splitFields, Option.bind_eq_bind, Option.bind_eq_some_iff, Prod.exists] at hparsed
  obtain ⟨fields, ⟨hash, rest, hfirst, mtime, rest', hsecond, size, rest'', hthird, tier, path, hlast, hfields⟩,
      _, -, hr⟩ :=
    hparsed
  rw [eq_of_splitOnce hfirst, eq_of_splitOnce hsecond, eq_of_splitOnce hthird, eq_of_splitOnce hlast] at hfree
  cases hfields
  cases hr
  intro hmem
  apply hfree
  simp [hmem]

end Sidecar

end GraphZero.Store
