import ZeroStack.Wire.Utf8
import ZeroStack.Wire.Lines
import ZeroStack.ZeroRef.Text

/-! The bytes that the fragment of a reference selects. -/

open Wire

namespace Zero.Ref

/-- `Strict` refuses an end behind the last line, `ClampEnd` moves it there. -/
inductive LineEndPolicy where
  | strict
  | clampEnd
  deriving DecidableEq

def canonicalLineEndPolicy : LineEndPolicy := .clampEnd

def outOfBounds (message : String) : ZeroRefError := ⟨.rangeOutOfBounds, message⟩

def isNewline (b : UInt8) : Bool := b = newline

variable (bytes : List UInt8)

def lineStartOffsets : List ℕ :=
  if bytes.isEmpty then [] else 0 :: offsetsBehind isNewline bytes

def resolvePolicyEnd (policy : LineEndPolicy) (start stop lineCount : ℕ) (context : String) : Except ZeroRefError ℕ :=
  match policy with
  | .strict =>
    if lineCount < stop then
      .error (outOfBounds s!"line span {start}-{stop} exceeds line count {lineCount}: {context}")
    else .ok stop
  | .clampEnd =>
    if lineCount = 0 then
      .error (outOfBounds s!"line span {start}-{stop} on empty blob (0 lines): {context}")
    else if lineCount < start then
      .error (outOfBounds (s!"line span start {start} exceeds line count {lineCount}: {context}; use " ++
        s!"#L1-{lineCount} or omit the fragment for full content"))
    else .ok (min stop lineCount)

def lineSpanBytes (lineStarts : List ℕ) (start stop : ℕ) : List UInt8 :=
  bytes.extract (lineStarts.getD (start - 1) 0) (lineStarts[stop]?.getD bytes.length)

def selectLines (start stop : ℕ) (context : String) (policy : LineEndPolicy) : Except ZeroRefError (List UInt8) :=
  if (fromUtf8 bytes).isNone then .error ⟨.notUtf8, s!"line fragment over non-UTF-8 content: {context}"⟩
  else do
    let lineStarts := lineStartOffsets bytes
    let stop ← resolvePolicyEnd policy start stop lineStarts.length context
    .ok (lineSpanBytes bytes lineStarts start stop)

def selectFragmentWithPolicy (fragment : ZeroFragment) (context : String)
    (policy : LineEndPolicy) : Except ZeroRefError (List UInt8) :=
  match fragment with
  | .none => .ok bytes
  | .bytes start stop =>
    if stop < start then .error (malformed s!"byte span end before start: {context}")
    else if bytes.length < stop then
      .error (outOfBounds s!"byte span {start}-{stop} exceeds blob length {bytes.length}: {context}")
    else .ok (bytes.extract start stop)
  | .lines start stop =>
    if start = 0 ∨ stop < start then .error (malformed s!"invalid line span: {context}")
    else selectLines bytes start stop context policy

def selectFragment (fragment : ZeroFragment) (context : String) : Except ZeroRefError (List UInt8) :=
  selectFragmentWithPolicy bytes fragment context canonicalLineEndPolicy

def blobLines : List (List UInt8) := splitInclusive isNewline bytes

theorem flatten_blobLines : (blobLines bytes).flatten = bytes := flatten_splitInclusive _ _

theorem lineStartOffsets_eq : lineStartOffsets bytes = startsFrom 0 (blobLines bytes) := by
  cases bytes with
  | nil => rfl
  | cons b bytes => exact cons_offsetsBehind isNewline (List.cons_ne_nil b bytes)

theorem length_lineStartOffsets : (lineStartOffsets bytes).length = (blobLines bytes).length := by
  rw [lineStartOffsets_eq, length_startsFrom]

theorem lineStart {bytes : List UInt8} {i : ℕ} (h : i < (blobLines bytes).length) :
    (lineStartOffsets bytes)[i]? = some (pieceOffset (blobLines bytes) i) := by
  rw [lineStartOffsets_eq, getElem?_startsFrom 0 h, Nat.zero_add]

theorem lineEnd (j : ℕ) : (lineStartOffsets bytes)[j]?.getD bytes.length = pieceOffset (blobLines bytes) j := by
  have h := getD_startsFrom (blobLines bytes) j
  rwa [flatten_blobLines, ← lineStartOffsets_eq] at h

theorem lineOffset_le (j : ℕ) : pieceOffset (blobLines bytes) j ≤ bytes.length := by
  have h := pieceOffset_le_length (blobLines bytes) j
  rwa [flatten_blobLines] at h

theorem extract_lines {i j : ℕ} (h : i ≤ j) :
    bytes.extract (pieceOffset (blobLines bytes) i) (pieceOffset (blobLines bytes) j) =
      ((blobLines bytes).extract i j).flatten := by
  have hcut := extract_pieceOffset (blobLines bytes) h
  rwa [flatten_blobLines] at hcut

theorem lineSpanBytes_eq {bytes : List UInt8} {start : ℕ} (h : start - 1 < (blobLines bytes).length) (stop : ℕ) :
    lineSpanBytes bytes (lineStartOffsets bytes) start stop =
      bytes.extract (pieceOffset (blobLines bytes) (start - 1)) (pieceOffset (blobLines bytes) stop) := by
  rw [lineSpanBytes, List.getD_eq_getElem?_getD, lineStart h, lineEnd]
  rfl

section ClampEnd
variable {bytes : List UInt8} {start stop : ℕ}

theorem selectLines_clampEnd (hvalid : fromUtf8 bytes ≠ none) (hone : 1 ≤ start) (hle : start ≤ stop)
    (hin : start ≤ (blobLines bytes).length) (context : String) :
    selectLines bytes start stop context .clampEnd = .ok (((blobLines bytes).extract (start - 1) stop).flatten) := by
  have hsome : ¬(fromUtf8 bytes).isNone = true := by rwa [Option.isNone_iff_eq_none]
  have hend : resolvePolicyEnd .clampEnd start stop (lineStartOffsets bytes).length context =
      .ok (min stop (blobLines bytes).length) := by
    have hlines : ¬(blobLines bytes).length = 0 := by omega
    rw [length_lineStartOffsets]
    simp only [resolvePolicyEnd, if_neg hlines, if_neg (Nat.not_lt.mpr hin)]
  rw [selectLines, if_neg hsome]
  refine bind_ok hend ?_
  rw [lineSpanBytes_eq (by omega), extract_lines bytes (by omega), extract_min_length]

theorem selectLines_clampEnd_beyond (hin : (blobLines bytes).length < start) (stop : ℕ) (context : String) :
    ∃ e, selectLines bytes start stop context .clampEnd = .error e := by
  rw [selectLines]
  split_ifs
  · exact ⟨_, rfl⟩
  · simp only [resolvePolicyEnd, length_lineStartOffsets]
    split_ifs
    · exact ⟨_, rfl⟩
    · exact ⟨_, rfl⟩

end ClampEnd

end Zero.Ref
