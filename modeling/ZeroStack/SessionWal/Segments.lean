import ZeroStack.Wire.Framing

/-! The session write-ahead log: frames in an active segment and in sealed segments, numbered
from the newest to the oldest. -/

open Wire List

namespace Zero.SessionWal

def sessionWalMaxRecordBytes : ℕ := 64 * 1024 * 1024
def sessionWalMinSegmentBytes : ℕ := 64 * 1024
def frameOverhead : ℕ := 8

/-- `SessionWalConfig`; the two sync policies decide only whether a call that wrote its frame
still returns. -/
structure SessionWalConfig where
  segmentLimit : ℕ
  maxSealedSegments : ℕ
  maxReplayBytes : ℕ
  deriving DecidableEq

inductive SessionWalError where
  | recordTooLarge (len max : ℕ)
  deriving DecidableEq

inductive AppendOutcome where
  | appended
  | needsCompaction
  deriving DecidableEq

structure Replay where
  records : List (List UInt8)
  truncated : Bool
  deriving DecidableEq

inductive WalFile where
  | snapshot
  | active
  | sealed (generation : ℕ)
  deriving DecidableEq

abbrev WalFiles := WalFile → Option (List UInt8)

def WalFiles.rename (src dst : WalFile) (files : WalFiles) : WalFiles :=
  Function.update (Function.update files dst (files src)) src none

def WalFiles.extend (bytes : List UInt8) (files : WalFiles) : WalFiles :=
  Function.update files .active (some ((files .active).getD [] ++ bytes))

def saturatingAdd (a b : ℕ) : ℕ := min (a + b) (2 ^ 64 - 1)

def framedLen (payloadLen : ℕ) : ℕ := saturatingAdd frameOverhead payloadLen

def frame (record : List UInt8) : List UInt8 :=
  leBytes 4 record.length ++ (record ++ leBytes 4 record.length)

def readFrame (rest : List UInt8) : Option (List UInt8 × List UInt8) :=
  let len := ofLe (rest.take 4)
  if rest.length < 4 then none
  else if sessionWalMaxRecordBytes < len then none
  else if rest.length < 4 + len + 4 then none
  else if ofLe ((rest.drop (4 + len)).take 4) ≠ len then none
  else some ((rest.drop 4).take len, rest.drop (4 + len + 4))

theorem length_frame (record : List UInt8) : (frame record).length = 8 + record.length := by
  simp only [frame, length_append, length_leBytes]
  omega

theorem readFrame_frame {record : List UInt8} (h : record.length ≤ sessionWalMaxRecordBytes) (rest : List UInt8) :
    readFrame (frame record ++ rest) = some (record, rest) := by
  have hlt : record.length < 256 ^ 4 := by
    have hmax : sessionWalMaxRecordBytes = 67108864 := rfl
    omega
  have hlength : (frame record ++ rest).length = 8 + record.length + rest.length := by
    rw [length_append, length_frame]
  have htake : (frame record ++ rest).take 4 = leBytes 4 record.length := by
    rw [frame, append_assoc, take_left' (length_leBytes ..)]
  have hpayload : (frame record ++ rest).drop 4 = record ++ (leBytes 4 record.length ++ rest) := by
    rw [frame, append_assoc, drop_left' (length_leBytes ..), append_assoc]
  have htrailer : (frame record ++ rest).drop (4 + record.length) = leBytes 4 record.length ++ rest := by
    rw [← drop_drop, hpayload, drop_left]
  have hrest : (frame record ++ rest).drop (4 + record.length + 4) = rest := by
    rw [← drop_drop, htrailer, drop_left' (length_leBytes ..)]
  unfold readFrame
  simp only [htake, hpayload, ofLe_leBytes hlt, htrailer, hrest, take_left, take_left' (length_leBytes ..)]
  rw [if_neg (by omega), if_neg (by omega), if_neg (by omega), if_neg (not_not.mpr rfl)]

theorem readFrame_torn {record : List UInt8} (h : record.length ≤ sessionWalMaxRecordBytes) {p : List UInt8}
    (hbegin : p <+: frame record) (hne : p ≠ frame record) : readFrame p = none := by
  have hlt : record.length < 256 ^ 4 := by
    have hmax : sessionWalMaxRecordBytes = 67108864 := rfl
    omega
  have hshort : p.length < 8 + record.length := by
    have hle := hbegin.length_le
    have hlength := length_frame record
    rcases Nat.lt_or_ge p.length (frame record).length with hlt | hge
    · omega
    · exact absurd (hbegin.eq_of_length (by omega)) hne
  unfold readFrame
  by_cases hfour : p.length < 4
  · exact if_pos hfour
  · have htake : p.take 4 = leBytes 4 record.length := by
      obtain ⟨q, hq⟩ := hbegin
      have hfront : (p ++ q).take 4 = leBytes 4 record.length := by
        rw [hq, frame, take_left' (length_leBytes ..)]
      rwa [take_append_of_le_length (by omega)] at hfront
    simp only [htake, ofLe_leBytes hlt]
    rw [if_neg hfour, if_neg (by omega), if_pos (by omega)]

def framing : Framing (List UInt8) where
  encode := frame
  parse := readFrame
  Valid record := record.length ≤ sessionWalMaxRecordBytes
  encode_ne_nil record := by
    intro h
    have hlength := length_frame record
    rw [h, length_nil] at hlength
    omega
  parse_encode := readFrame_frame
  parse_torn := readFrame_torn

section Append
variable (config : SessionWalConfig)

def segmentLimit (files : WalFiles) : ℕ :=
  if 0 < config.segmentLimit then config.segmentLimit
  else max ((files .snapshot).elim 0 List.length) sessionWalMinSegmentBytes

def rotateFrom : ℕ → WalFiles → List WalFiles
  | 0, files => [files.rename .active (.sealed 1)]
  | generation + 1, files =>
    if (files (.sealed (generation + 1))).isSome then
      let files := files.rename (.sealed (generation + 1)) (.sealed (generation + 2))
      files :: rotateFrom generation files
    else rotateFrom generation files

def rotateSegments (files : WalFiles) : List WalFiles := rotateFrom (config.maxSealedSegments - 1) files

inductive Plan where
  | tooLarge
  | compact
  | rotate
  | write
  deriving DecidableEq

def plan (record : List UInt8) (files : WalFiles) : Plan :=
  let framed := framedLen record.length
  let limit := segmentLimit config files
  let activeLen := (files .active).elim 0 List.length
  if sessionWalMaxRecordBytes < record.length then .tooLarge
  else if limit < framed then .compact
  else if 0 < activeLen ∧ limit < saturatingAdd activeLen framed then
    if (files (.sealed config.maxSealedSegments)).isSome then .compact else .rotate
  else .write

/-- One append. A `stop` of `some n` kills the process after `n` units of durable work, each
rename of a rotation and each byte of the frame being one. -/
structure Append where
  record : List UInt8
  stop : Option ℕ
  deriving DecidableEq

def writeFrame (record : List UInt8) (stop : Option ℕ) (files : WalFiles) :
    Option (Except SessionWalError AppendOutcome) × WalFiles :=
  match stop with
  | none => (some (.ok .appended), files.extend (frame record))
  | some n => (none, files.extend ((frame record).take n))

def append (call : Append) (files : WalFiles) : Option (Except SessionWalError AppendOutcome) × WalFiles :=
  match plan config call.record files with
  | .tooLarge => (some (.error (.recordTooLarge call.record.length sessionWalMaxRecordBytes)), files)
  | .compact => (some (.ok .needsCompaction), files)
  | .write => writeFrame call.record call.stop files
  | .rotate =>
    let renamed := rotateSegments config files
    match call.stop with
    | none => writeFrame call.record none (renamed.getLastD files)
    | some n =>
      if n < renamed.length then (none, (renamed.take n).getLastD files)
      else writeFrame call.record (some (n - renamed.length)) (renamed.getLastD files)

def run : List Append → WalFiles → WalFiles
  | [], files => files
  | call :: calls, files => run calls (append config call files).2

def appended : List Append → WalFiles → List (List UInt8)
  | [], _ => []
  | call :: calls, files =>
    (if (append config call files).1 = some (.ok .appended) then [call.record] else []) ++
      appended calls (append config call files).2

end Append

section Replay

def decodeFrames (bytes : List UInt8) (replay : Replay) : Replay :=
  let scanned := framing.scan bytes.length bytes
  ⟨replay.records ++ scanned.1, replay.truncated || scanned.2⟩

def replaySegments : List (Option (List UInt8)) → ℕ → Replay → Replay
  | [], _, replay => replay
  | none :: segments, remaining, replay => replaySegments segments remaining replay
  | some bytes :: segments, remaining, replay =>
    if remaining < bytes.length then { replay with truncated := true }
    else
      let replay := decodeFrames bytes replay
      if replay.truncated then replay
      else replaySegments segments (remaining - bytes.length) replay

def replayOrder (config : SessionWalConfig) : List WalFile :=
  (List.range config.maxSealedSegments).reverse.map (fun i => .sealed (i + 1)) ++ [.active]

def replay (config : SessionWalConfig) (files : WalFiles) : Replay :=
  replaySegments ((replayOrder config).map files) config.maxReplayBytes ⟨[], false⟩

end Replay
end Zero.SessionWal
