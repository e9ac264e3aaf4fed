import ZeroStack.Kernel.Engine
import ZeroStack.ZeroCas.Expand

/-! Three readers of a range of lines: the fragments of references, the file engine and the object store. On a
blob with at least one line they mean the same bytes. -/

open Wire Zero.Ref List

namespace Zero.LineRange

def invalidInput (detail : String) : Kernel.EngineError := ⟨.invalidInput, detail, false⟩

def positiveLine (s : List Char) : Option ℕ := (readDecimal (2 ^ 64) s).toOption.filter fun line => 0 < line

def lineRange (bytes : List UInt8) (range : List Char) : Except Kernel.EngineError (List UInt8) :=
  match splitOnce [':'] range with
  | none => .error (invalidInput "read range must be START:END with inclusive positive line numbers")
  | some (first, last) =>
    match positiveLine first, positiveLine last with
    | some start, some stop =>
      if stop < start then .error (invalidInput "read range end must be greater than or equal to start")
      else match fromUtf8 bytes with
        | none => .error (invalidInput "line ranges require a UTF-8 file")
        | some text =>
          let lines := splitInclusive (fun c => c = '\n') text.toList
          if lines.length < start then
            .error (invalidInput s!"read range start {start} exceeds file line count {lines.length}")
          else .ok (utf8Bytes (String.ofList (lines.extract (start - 1) (min stop lines.length)).flatten))
    | _, _ => .error (invalidInput "read range must be START:END with inclusive positive line numbers")

def rangeText (start stop : ℕ) : List Char := decimal start ++ ':' :: decimal stop

def Agreed (blob : List UInt8) (selected : Except ZeroRefError (List UInt8))
    (read : Except Kernel.EngineError (List UInt8)) : Except Cas.ZeroCasError (ℕ × ℕ) → Prop
  | .error _ => selected.isOk = false ∧ read.isOk = false
  | .ok (byteStart, byteEnd) => byteStart ≤ byteEnd ∧ byteEnd ≤ blob.length ∧
      selected = .ok (blob.extract byteStart byteEnd) ∧ read = .ok (blob.extract byteStart byteEnd)

def SameLines (text : String) (start stop : ℕ) (context : String) : Prop :=
  Agreed (utf8Bytes text) (selectFragmentWithPolicy (utf8Bytes text) (.lines start stop) context .clampEnd)
    (lineRange (utf8Bytes text) (rangeText start stop))
    ((Cas.SelectionIndex.fromUtf8 text).lineRange start stop (utf8Bytes text).length)

inductive Covering (count : ℕ) : ℕ → List (ℕ × ℕ) → Prop where
  | last {first stop : ℕ} (hin : first ≤ count) (hend : count ≤ stop) : Covering count first [(first, stop)]
  | next {first stop : ℕ} {rest : List (ℕ × ℕ)} (hle : first ≤ stop) (hinside : stop < count)
      (hrest : Covering count (stop + 1) rest) : Covering count first ((first, stop) :: rest)

theorem blobLines_utf8Bytes (text : String) : blobLines (utf8Bytes text) =
      (splitInclusive (fun c => c = '\n') text.toList).map fun line => line.flatMap String.utf8EncodeChar := by
  rw [utf8Bytes_eq_flatMap]
  refine splitInclusive_flatMap (fun c hc => ?_) (fun c hc => ⟨String.utf8EncodeChar_ne_nil, fun b hb => ?_⟩) _
  · rw [of_decide_eq_true hc]
    exact ⟨newline, rfl, rfl⟩
  · -- a line feed among the bytes of another character would be that character
    by_contra hnewline
    have hb' : b = newline := of_decide_eq_true (Bool.eq_true_of_not_eq_false hnewline)
    subst hb'
    have hcode : c.toNat = ('\n').toNat := mem_utf8EncodeChar hb (by decide)
    exact of_decide_eq_false hc (Char.toNat_inj.mp hcode)

theorem positiveLine_decimal {n : ℕ} (hpos : 0 < n) (hfits : n < 2 ^ 64) : positiveLine (decimal n) = some n := by
  have hdigits : ∀ c ∈ decimal n, c.isDigit = true := fun c hc => isDigit_of_mem_decimal hc
  rw [positiveLine, readDecimal_of_digits (decimal_ne_nil n) hdigits, readDigits_decimal hfits]
  simp [Except.toOption, hpos]

theorem utf8Bytes_flatten_extract (text : String) (i j : ℕ) :
    utf8Bytes (String.ofList ((splitInclusive (fun c => c = '\n') text.toList).extract i j).flatten) =
      ((blobLines (utf8Bytes text)).extract i j).flatten := by
  rw [utf8Bytes_ofList, blobLines_utf8Bytes, extract_eq_take_drop, extract_eq_take_drop, ← map_drop,
    ← map_take, flatMap_def, map_flatten, flatten_flatten, map_map]
  rfl

section Ranges
variable {text : String} {start stop : ℕ}

theorem lineRange_rangeText (text : String) (hone : 1 ≤ start) (hle : start ≤ stop) (hfits : stop < 2 ^ 64) :
    lineRange (utf8Bytes text) (rangeText start stop) = if (blobLines (utf8Bytes text)).length < start then
        .error (invalidInput s!"read range start {start} exceeds file line count {(blobLines (utf8Bytes text)).length}")
      else .ok ((blobLines (utf8Bytes text)).extract (start - 1) stop).flatten := by
  have hcolon : ':' ∉ decimal start := fun hmem => absurd (isDigit_of_mem_decimal hmem) (by decide)
  have hcount : (splitInclusive (fun c => decide (c = '\n')) text.toList).length =
      (blobLines (utf8Bytes text)).length := by
    rw [blobLines_utf8Bytes, length_map]
  simp only [lineRange, rangeText, splitOnce_append_cons hcolon, positiveLine_decimal hone (by omega),
    positiveLine_decimal (by omega) hfits, if_neg (Nat.not_lt.mpr hle), fromUtf8_utf8Bytes,
    extract_min_length, utf8Bytes_flatten_extract, hcount]

theorem lineStarts_fromUtf8 (hne : text ≠ "") :
    (Cas.SelectionIndex.fromUtf8 text).lineStarts = lineStartOffsets (utf8Bytes text) := by
  have hbytes : utf8Bytes text ≠ [] := fun h => hne (utf8Bytes_inj h)
  rw [lineStartOffsets_eq]
  exact cons_offsetsBehind isNewline hbytes

theorem lineRange_fromUtf8 (hne : text ≠ "") (hone : 1 ≤ start) (hle : start ≤ stop) :
    (Cas.SelectionIndex.fromUtf8 text).lineRange start stop (utf8Bytes text).length =
      if (blobLines (utf8Bytes text)).length < start then .error (.invalidSelection "line start is beyond the object")
      else .ok (pieceOffset (blobLines (utf8Bytes text)) (start - 1),
        pieceOffset (blobLines (utf8Bytes text)) stop) := by
  have hvalid : ¬(start = 0 ∨ stop < start) := by omega
  rw [Cas.SelectionIndex.lineRange, lineStarts_fromUtf8 hne, length_lineStartOffsets, if_neg hvalid]
  by_cases hin : (blobLines (utf8Bytes text)).length < start
  · rw [if_pos hin, if_pos (by omega)]
  · rw [if_neg hin, if_neg (by omega), getD_eq_getElem?_getD, lineStart (by omega), lineEnd,
      Nat.min_eq_left (lineOffset_le _ _)]
    rfl

theorem selectFragment_lines (hone : 1 ≤ start) (hle : start ≤ stop) (bytes : List UInt8) (context : String) :
    selectFragmentWithPolicy bytes (.lines start stop) context .clampEnd =
      selectLines bytes start stop context .clampEnd := by
  have hvalid : ¬(start = 0 ∨ stop < start) := by omega
  rw [selectFragmentWithPolicy, if_neg hvalid]

theorem sameLines (hne : text ≠ "") (hone : 1 ≤ start) (hle : start ≤ stop) (hfits : stop < 2 ^ 64)
    (context : String) : SameLines text start stop context := by
  have hutf8 : fromUtf8 (utf8Bytes text) ≠ none := by
    rw [fromUtf8_utf8Bytes]
    exact Option.some_ne_none text
  unfold SameLines
  rw [selectFragment_lines hone hle, lineRange_rangeText text hone hle hfits, lineRange_fromUtf8 hne hone hle]
  by_cases hin : start ≤ (blobLines (utf8Bytes text)).length
  · rw [selectLines_clampEnd hutf8 hone hle hin, if_neg (Nat.not_lt.mpr hin), if_neg (Nat.not_lt.mpr hin)]
    have hlen := pieceOffset_le_length (blobLines (utf8Bytes text)) stop
    rw [flatten_blobLines] at hlen
    have hcut := extract_lines (utf8Bytes text) (by omega : start - 1 ≤ stop)
    exact ⟨pieceOffset_mono _ (by omega), hlen, by rw [hcut], by rw [hcut]⟩
  · have hbeyond : (blobLines (utf8Bytes text)).length < start := Nat.lt_of_not_le hin
    obtain ⟨e, he⟩ := selectLines_clampEnd_beyond hbeyond stop context
    rw [he, if_pos hbeyond, if_pos hbeyond]
    exact ⟨rfl, rfl⟩

end Ranges

theorem Covering.flatten_extract {α : Type} {lines : List α} {first : ℕ} {ranges : List (ℕ × ℕ)}
    (h : Covering lines.length first ranges) (hone : 1 ≤ first) :
    (ranges.map fun r => lines.extract (r.1 - 1) r.2).flatten = lines.extract (first - 1) lines.length := by
  induction h with
  | @last first stop hin hend =>
    have hmin : min stop lines.length = lines.length := Nat.min_eq_right hend
    rw [map_singleton, flatten_singleton, ← extract_min_length, hmin]
  | @next first stop rest hle hinside hrest ih =>
    have hlater := ih (Nat.le_add_left 1 stop)
    rw [map_cons, flatten_cons, hlater]
    exact extract_append_extract (by omega) (Nat.le_of_lt hinside)

theorem Covering.bounds {count first : ℕ} {ranges : List (ℕ × ℕ)} (h : Covering count first ranges) :
    ∀ r ∈ ranges, first ≤ r.1 ∧ r.1 ≤ r.2 ∧ r.1 ≤ count := by
  induction h with
  | last hin hend =>
    intro r hr
    rw [mem_singleton.mp hr]
    exact ⟨le_rfl, hin.trans hend, hin⟩
  | next hle hinside hrest ih =>
    intro r hr
    rcases mem_cons.mp hr with rfl | hr
    · exact ⟨le_rfl, hle, hle.trans (Nat.le_of_lt hinside)⟩
    · obtain ⟨hfirst, hspan, hcount⟩ := ih r hr
      exact ⟨by omega, hspan, hcount⟩

/-- One meaning of a range of lines on every blob that has a line, and no byte lost between consecutive ranges. -/
theorem line_ranges_agree (text : String) (hne : text ≠ "") :
    (∀ (start stop : ℕ) (context : String), 1 ≤ start → start ≤ stop → stop < 2 ^ 64 →
        SameLines text start stop context) ∧
      ∀ (ranges : List (ℕ × ℕ)) (context : String), Covering (blobLines (utf8Bytes text)).length 1 ranges →
        (∀ r ∈ ranges, r.2 < 2 ^ 64) → ∃ slices : List (List UInt8), slices.flatten = utf8Bytes text ∧
          List.Forall₂ (fun r slice =>
            selectFragmentWithPolicy (utf8Bytes text) (.lines r.1 r.2) context .clampEnd = .ok slice ∧
              lineRange (utf8Bytes text) (rangeText r.1 r.2) = .ok slice ∧
              ((Cas.SelectionIndex.fromUtf8 text).lineRange r.1 r.2 (utf8Bytes text).length).map
                (fun interval => (utf8Bytes text).extract interval.1 interval.2) = .ok slice) ranges slices := by
  refine ⟨fun start stop context hone hle hfits => sameLines hne hone hle hfits context, ?_⟩
  intro ranges context hcover hfits
  have hutf8 : fromUtf8 (utf8Bytes text) ≠ none := by
    rw [fromUtf8_utf8Bytes]
    exact Option.some_ne_none text
  refine ⟨ranges.map fun r => ((blobLines (utf8Bytes text)).extract (r.1 - 1) r.2).flatten, ?_, ?_⟩
  · have hlines := hcover.flatten_extract le_rfl
    have hnested := congrArg List.flatten hlines
    rw [flatten_flatten, map_map] at hnested
    calc (ranges.map fun r => ((blobLines (utf8Bytes text)).extract (r.1 - 1) r.2).flatten).flatten
        = ((blobLines (utf8Bytes text)).extract 0 (blobLines (utf8Bytes text)).length).flatten := hnested
      _ = (blobLines (utf8Bytes text)).flatten := by simp
      _ = utf8Bytes text := flatten_blobLines _
  · refine List.forall₂_map_right_iff.mpr (List.forall₂_same.mpr fun r hr => ?_)
    obtain ⟨hone, hle, hin⟩ := hcover.bounds r hr
    refine ⟨?_, ?_, ?_⟩
    · rw [selectFragment_lines hone hle, selectLines_clampEnd hutf8 hone hle hin]
    · rw [lineRange_rangeText text hone hle (hfits r hr), if_neg (Nat.not_lt.mpr hin)]
    · rw [lineRange_fromUtf8 hne hone hle, if_neg (Nat.not_lt.mpr hin)]
      exact congrArg Except.ok (extract_lines (utf8Bytes text) (by omega))

theorem two_lines_agree : SameLines "a\r\nb" 2 7 "z://blob/ab" :=
  (line_ranges_agree "a\r\nb" (by decide)).1 2 7 "z://blob/ab" (by decide) (by decide) (by decide)

/-- On the empty blob the first line is beyond the end for two of the readers; the third selects no bytes. -/
theorem empty_blob_disagreement : (selectFragmentWithPolicy [] (.lines 1 1) "z://blob/ab" .clampEnd).isOk = false ∧
      (lineRange [] (rangeText 1 1)).isOk = false ∧
      (Cas.SelectionIndex.fromUtf8 "").lineRange 1 1 0 = .ok (0, 0) ∧ ¬ SameLines "" 1 1 "z://blob/ab" := by
  refine ⟨by decide +kernel, by decide +kernel, by decide +kernel, fun h => ?_⟩
  have hselected : selectFragmentWithPolicy [] (.lines 1 1) "z://blob/ab" .clampEnd = .ok [] := h.2.2.1
  exact absurd hselected (by decide +kernel)

end Zero.LineRange
