import ZeroStack.Reasoning.Contract

/-! Token counts, and the packer that cuts a text at the last boundary its limits allow. A text is its characters. -/

open Wire Zero.Reasoning List

namespace Zero.Tokens

def asBytes (text : List Char) : List UInt8 := text.flatMap String.utf8EncodeChar

inductive TokenClass where
  | separator
  | word
  | whitespace
  deriving DecidableEq

def asciiTokenClass (byte : UInt8) : TokenClass :=
  if (0x30 ≤ byte && byte ≤ 0x39) || (0x41 ≤ byte && byte ≤ 0x5A) || (0x61 ≤ byte && byte ≤ 0x7A) || byte = 0x5F
  then .word
  else if [0x20, 0x09, 0x0A, 0x0D, 0x0B, 0x0C].contains byte then .whitespace
  else .separator

def countAsciiFrom (stopAtNonAscii : Bool) (tokens index : ℕ) (inToken : Bool) : List UInt8 → ℕ × ℕ
  | [] => (tokens, index)
  | byte :: bytes =>
    if stopAtNonAscii && 128 ≤ byte then (tokens, index)
    else
      let cls := asciiTokenClass byte
      countAsciiFrom stopAtNonAscii (tokens + if cls = .separator ∨ cls = .word ∧ inToken = false then 1 else 0)
        (index + 1) (cls = .word) bytes

def countAscii (bytes : List UInt8) (stopAtNonAscii : Bool) : ℕ × ℕ := countAsciiFrom stopAtNonAscii 0 0 false bytes

def isWord (c : Char) : Bool := c.isAlphanum || c = '_'

def countTailFrom (inToken : Bool) : List Char → ℕ
  | [] => 0
  | c :: text => (if !isWhitespace c && (!isWord c || !inToken) then 1 else 0) + countTailFrom (isWord c) text

def charsFrom (start : ℕ) : List Char → List Char
  | [] => []
  | c :: text => if start = 0 then c :: text else charsFrom (start - c.utf8Size) text

def countTokensTail (text : List Char) (start : ℕ) : ℕ :=
  (countAscii ((asBytes text).take start) false).1 + countTailFrom false (charsFrom start text)

def countTokensLexical (text : List Char) : ℕ :=
  let counted := countAscii (asBytes text) true
  if counted.2 = (asBytes text).length then counted.1 else countTokensTail text counted.2

inductive TokenizerFamily where
  | cl100k
  | o200k
  | sentencePiece
  deriving DecidableEq

def TokenizerFamily.charsPerTokenMilli : TokenizerFamily → ℕ
  | .cl100k => 4000
  | .o200k => 4000
  | .sentencePiece => 3500

def eqIgnoreAsciiCase (a b : List UInt8) : Bool :=
  let lower := fun byte : UInt8 => if 0x41 ≤ byte && byte ≤ 0x5A then byte + 32 else byte
  a.map lower = b.map lower

def startsWithIgnoreAsciiCase (value : List UInt8) (start : String) : Bool :=
  eqIgnoreAsciiCase (value.take (utf8Bytes start).length) (utf8Bytes start)

def rules : List (TokenizerFamily × List String) :=
  [(.o200k, ["gpt-4o", "gpt-4.1", "gpt-5", "o1", "o3", "o4"]), (.cl100k, ["gpt-4", "gpt-3.5"]),
    (.sentencePiece, ["llama", "mistral", "mixtral", "gemma"])]

def tokenizerMetadata (modelId : String) : Option TokenizerFamily :=
  let model := (utf8Bytes modelId).rtakeWhile (· ≠ 0x2F)
  if model.tails.any (startsWithIgnoreAsciiCase · "codex") then some .o200k
  else (rules.find? fun rule => rule.2.any (startsWithIgnoreAsciiCase model)).map (·.1)

def approximateTokenCount (text : List Char) (family : TokenizerFamily) : ℕ :=
  (min (text.length * 1000) (2 ^ 64 - 1) + (family.charsPerTokenMilli - 1)) / family.charsPerTokenMilli

def countTokensForModel (text : List Char) (modelId : Option String) : ℕ :=
  match modelId.bind tokenizerMetadata with
  | some family => approximateTokenCount text family
  | none => countTokensLexical text

/-- The loop of `lexical_boundary_prefix`: where it stops, or nothing if it has seen the whole text. The boundary counts
characters. -/
def lexicalBoundaryFrom (maxTokens maxChars seen tokens : ℕ) (inWord : Bool) (boundary : ℕ) : List Char → Option ℕ
  | [] => none
  | c :: rest =>
    if seen = maxChars then some boundary
    else if isWord c then
      if inWord then lexicalBoundaryFrom maxTokens maxChars (seen + 1) tokens true boundary rest
      else if tokens = maxTokens then some boundary
      else lexicalBoundaryFrom maxTokens maxChars (seen + 1) (tokens + 1) true boundary rest
    else if isWhitespace c then lexicalBoundaryFrom maxTokens maxChars (seen + 1) tokens false (seen + 1) rest
    else if tokens = maxTokens then some boundary
    else lexicalBoundaryFrom maxTokens maxChars (seen + 1) (tokens + 1) false (seen + 1) rest

def lexicalBoundaryPrefix (text : List Char) (maxTokens maxChars : ℕ) : List Char :=
  match lexicalBoundaryFrom maxTokens maxChars 0 0 false 0 text with
  | none => text
  | some boundary => text.take boundary

def packToTokenBoundaryForModelWithCharLimit (text : List Char) (maxTokens maxChars : ℕ) (modelId : Option String) :
    List Char :=
  if text = [] ∨ maxTokens = 0 ∨ maxChars = 0 then []
  else match modelId.bind tokenizerMetadata with
    | none => lexicalBoundaryPrefix text maxTokens maxChars
    | some family =>
      let budgetChars := min (maxTokens * family.charsPerTokenMilli) (2 ^ 64 - 1) / 1000
      if text.length ≤ budgetChars ∧ text.length ≤ maxChars then text else text.take (min maxChars budgetChars)

section Count

theorem ascii : ∀ (n : Fin 128) (inToken : Bool), let c := Char.ofNat n; let byte := UInt8.ofNat n
    String.utf8EncodeChar c = [byte] ∧ ¬128 ≤ byte ∧ (asciiTokenClass byte = .word ↔ isWord c = true) ∧
      (asciiTokenClass byte = .separator ∨ isWord c = true ∧ inToken = false ↔
        (!isWhitespace c && (!isWord c || !inToken)) = true) := by
  decide

theorem eq_ofNat {c : Char} (h : c.toNat < 128) : ∃ n : Fin 128, c = Char.ofNat n :=
  ⟨⟨c.toNat, h⟩, (Char.ofNat_toNat c).symm⟩

theorem isWord_ascii {c : Char} (h : isWord c = true) : c.toNat < 128 := by
  delta isWord Char.isAlphanum Char.isAlpha Char.isUpper Char.isLower Char.isDigit at h
  simp [UInt32.le_iff_toNat_le] at h
  rcases h with h | rfl
  · omega
  · decide

theorem not_isWhitespace {c : Char} (h : isWord c = true) : isWhitespace c = false := by
  obtain ⟨n, rfl⟩ := eq_ofNat (isWord_ascii h)
  simpa [h] using (ascii n false).2.2.2.mp (.inr ⟨h, rfl⟩)

theorem countTailFrom_append (b : Bool) (front rest : List Char) : countTailFrom b (front ++ rest) =
    countTailFrom b front + countTailFrom (front.getLast?.elim b isWord) rest := by
  induction front generalizing b with
  | nil => simp [countTailFrom]
  | cons c front ih =>
    rw [cons_append, countTailFrom, countTailFrom, ih, List.getLast?_cons, Nat.add_assoc]
    cases front.getLast? <;> rfl

theorem countTailFrom_pos {text : List Char} (h : text.getLast?.any isWord = true) : 0 < countTailFrom false text := by
  induction text with
  | nil => cases h
  | cons c text ih =>
    cases hblank : isWhitespace c with
    | false => simp [countTailFrom, hblank]
    | true =>
      have hword : isWord c = false := by
        by_contra hword
        simp [not_isWhitespace (by simpa using hword)] at hblank
      have hpos : 0 < countTailFrom false text := by
        apply ih
        cases text with
        | nil => simp [hword] at h
        | cons d text => simpa [List.getLast?_cons_cons] using h
      simpa [countTailFrom, hblank, hword] using hpos

def wordRuns (text : List Char) : ℕ := (text.splitOnP (!isWord ·)).countP (!·.isEmpty)

def otherChars (text : List Char) : ℕ := text.countP fun c => !isWord c && !isWhitespace c

theorem countTailFrom_eq (b : Bool) (text : List Char) : countTailFrom b text =
    (if b then (text.splitOnP (!isWord ·)).tail.countP (!·.isEmpty) else wordRuns text) + otherChars text := by
  induction text generalizing b with
  | nil => cases b <;> rfl
  | cons c text ih =>
    rw [countTailFrom, ih, wordRuns, wordRuns, splitOnP_cons_eq_if_modifyHead]
    cases hword : isWord c with
    | false => cases b <;> cases hspace : isWhitespace c <;> simp [otherChars, hword, hspace] <;> omega
    | true =>
      cases hsplit : text.splitOnP (!isWord ·) with
      | nil => exact absurd hsplit (splitOnP_ne_nil _ _)
      | cons piece pieces =>
        cases b <;> simp [otherChars, hword, not_isWhitespace hword]
        omega

theorem countAsciiFrom_asBytes {stop : Bool} {front rest : List Char} (hfront : ∀ c ∈ front, c.toNat < 128)
    (hrest : ∀ c ∈ rest.head?, stop = true ∧ ¬c.toNat < 128) (tokens index : ℕ) (inToken : Bool) :
    countAsciiFrom stop tokens index inToken (asBytes (front ++ rest)) =
      (tokens + countTailFrom inToken front, index + front.length) := by
  induction front generalizing tokens index inToken with
  | nil =>
    cases rest with
    | nil => rfl
    | cons c rest =>
      obtain ⟨rfl, hc⟩ := hrest c rfl
      obtain ⟨byte, bytes, hencode⟩ := exists_cons_of_length_pos (String.length_utf8EncodeChar c ▸ c.utf8Size_pos)
      have hbyte : 128 ≤ byte := by
        by_contra hlt
        have hascii : byte.toNat < 128 := by simpa [UInt8.le_iff_toNat_le] using hlt
        exact hc (mem_utf8EncodeChar (hencode ▸ mem_cons_self) hascii ▸ hascii)
      simp [countAsciiFrom, asBytes, hencode, hbyte, countTailFrom]
  | cons c front ih =>
    rw [forall_mem_cons] at hfront
    obtain ⟨n, rfl⟩ := eq_ofNat hfront.1
    obtain ⟨hencode, hbyte, hword, hcount⟩ := ascii n inToken
    rw [asBytes, cons_append, flatMap_cons, ← asBytes, hencode, singleton_append, countAsciiFrom]
    simp only [hbyte, hword, hcount, ih hfront.2, decide_false, Bool.and_false, Bool.false_eq_true, if_false,
      Bool.decide_eq_true]
    rw [countTailFrom, length_cons, Nat.add_assoc, Nat.add_right_comm, Nat.add_assoc]

theorem charsFrom_append {front : List Char} (h : ∀ c ∈ front, c.toNat < 128) (rest : List Char) :
    (asBytes front).length = front.length ∧ charsFrom front.length (front ++ rest) = rest := by
  induction front with
  | nil => cases rest <;> exact ⟨rfl, rfl⟩
  | cons c front ih =>
    rw [forall_mem_cons] at h
    obtain ⟨hlength, hfrom⟩ := ih h.2
    obtain ⟨n, rfl⟩ := eq_ofNat h.1
    have hsize : (Char.ofNat n).utf8Size = 1 := by
      rw [← String.length_utf8EncodeChar, (ascii n false).1, length_singleton]
    constructor
    · simpa [asBytes, hsize, Nat.add_comm] using hlength
    · rwa [cons_append, charsFrom, if_neg (by simp), hsize]

theorem countTokensLexical_eq (text : List Char) : countTokensLexical text = countTailFrom false text := by
  obtain ⟨front, rest, rfl, hfront, hrest⟩ : ∃ front rest, text = front ++ rest ∧ (∀ c ∈ front, c.toNat < 128) ∧
      ∀ c ∈ rest.head?, ¬c.toNat < 128 := by
    refine ⟨text.takeWhile (·.toNat < 128), text.dropWhile (·.toNat < 128), takeWhile_append_dropWhile.symm,
      fun c hc => by simpa using mem_takeWhile_imp hc, fun c hc => ?_⟩
    have hnot := List.head?_dropWhile_not (fun c : Char => decide (c.toNat < 128)) text
    rw [hc] at hnot
    simpa using hnot
  obtain ⟨hlength, hfrom⟩ := charsFrom_append hfront rest
  have hbytes : asBytes (front ++ rest) = asBytes front ++ asBytes rest := flatMap_append
  have hwhole : countAsciiFrom true 0 0 false (asBytes (front ++ rest)) = _ :=
    countAsciiFrom_asBytes hfront (fun c hc => ⟨rfl, hrest c hc⟩) 0 0 false
  have hpart : countAsciiFrom false 0 0 false (asBytes (front ++ [])) = _ :=
    countAsciiFrom_asBytes hfront (by simp) 0 0 false
  rw [append_nil] at hpart
  rw [countTokensLexical, countAscii, hwhole, countTailFrom_append]
  simp only [Nat.zero_add, countTokensTail, countAscii, hbytes, hfrom, take_left' hlength, hpart]
  cases rest with
  | nil => simp [asBytes, countTailFrom, ← hlength]
  | cons c rest =>
    have hc : isWord c = false := by
      by_contra hword
      exact hrest c rfl (isWord_ascii (by simpa using hword))
    have hpos := c.utf8Size_pos
    rw [if_neg (by simp [asBytes, ← hlength]; omega)]
    simp [countTailFrom, hc]

end Count

section Pack
variable {modelId : Option String} {maxTokens maxChars : ℕ} {text front rest : List Char}

def Fits (modelId : Option String) (maxTokens maxChars : ℕ) (front : List Char) : Prop :=
  front.length ≤ maxChars ∧ countTokensForModel front modelId ≤ maxTokens

instance : Decidable (Fits modelId maxTokens maxChars front) := inferInstanceAs (Decidable (_ ∧ _))

def insideWord (text front : List Char) : Bool := front.getLast?.any isWord && text[front.length]?.any isWord

structure Longest (modelId : Option String) (maxTokens maxChars : ℕ) (text front : List Char) : Prop where
  start : front <+: text
  fits : Fits modelId maxTokens maxChars front
  whole : modelId.bind tokenizerMetadata = none → insideWord text front = false
  longest : ∀ other, other <+: text → Fits modelId maxTokens maxChars other →
    (modelId.bind tokenizerMetadata = none → insideWord text other = false) → other.length ≤ front.length

/-- For a registered model, not both multiplications saturate. For an unregistered one, a text with characters but no
tokens allowed does not begin with whitespace, and where the text stops fitting behind a letter, the word goes on. -/
structure Clean (modelId : Option String) (maxTokens maxChars : ℕ) (text : List Char) : Prop where
  small : ∀ family ∈ modelId.bind tokenizerMetadata, 2 ^ 64 - 1 ≤ maxTokens * family.charsPerTokenMilli →
    min text.length maxChars * 1000 < 2 ^ 64
  blank : modelId.bind tokenizerMetadata = none → maxTokens = 0 → maxChars ≠ 0 → text.head?.any isWhitespace = false
  word : modelId.bind tokenizerMetadata = none → ∀ n : Fin text.length,
    (text.take n).getLast?.any isWord = true → Fits modelId maxTokens maxChars (text.take n) →
      ¬Fits modelId maxTokens maxChars (text.take (n + 1)) → isWord (text.get n) = true

def boundaryAfter (maxTokens maxChars : ℕ) (front : List Char) : List Char → Option ℕ :=
  lexicalBoundaryFrom maxTokens maxChars front.length (countTailFrom false front) (front.getLast?.any isWord)
    (front.rdropWhile isWord).length

section Lexical
variable (hmodel : modelId.bind tokenizerMetadata = none)
include hmodel

theorem fits_iff : Fits modelId maxTokens maxChars front ↔
    front.length ≤ maxChars ∧ countTailFrom false front ≤ maxTokens := by
  rw [Fits, countTokensForModel, hmodel]
  dsimp only
  rw [countTokensLexical_eq]

theorem Fits.of_append (h : Fits modelId maxTokens maxChars (front ++ rest)) :
    Fits modelId maxTokens maxChars front := by
  rw [fits_iff hmodel, length_append, countTailFrom_append] at h
  rw [fits_iff hmodel]
  omega

theorem boundaryAfter_cons (h : Fits modelId maxTokens maxChars front) (c : Char) :
    boundaryAfter maxTokens maxChars front (c :: rest) = if Fits modelId maxTokens maxChars (front ++ [c])
      then boundaryAfter maxTokens maxChars (front ++ [c]) rest else some (front.rdropWhile isWord).length := by
  have hlast : front.getLast?.elim false isWord = front.getLast?.any isWord := by cases front.getLast? <;> rfl
  rw [fits_iff hmodel] at h
  simp only [fits_iff hmodel, boundaryAfter, lexicalBoundaryFrom, countTailFrom_append, countTailFrom, hlast,
    length_append, length_singleton, List.getLast?_concat, Option.any_some, rdropWhile_concat]
  cases hword : isWord c with
  | true =>
    rw [not_isWhitespace hword]
    cases front.getLast?.any isWord <;> simp <;> split_ifs <;> first | rfl | omega
  | false => cases isWhitespace c <;> simp <;> split_ifs <;> first | rfl | omega

theorem boundaryAfter_cases (h : Fits modelId maxTokens maxChars front) (rest : List Char) :
    boundaryAfter maxTokens maxChars front rest = none ∧ Fits modelId maxTokens maxChars (front ++ rest) ∨
      ∃ read c unread, front ++ rest = read ++ c :: unread ∧ Fits modelId maxTokens maxChars read ∧
        ¬Fits modelId maxTokens maxChars (read ++ [c]) ∧
        boundaryAfter maxTokens maxChars front rest = some (read.rdropWhile isWord).length := by
  induction rest generalizing front with
  | nil => exact .inl ⟨rfl, by rwa [append_nil]⟩
  | cons c rest ih =>
    rw [boundaryAfter_cons hmodel h]
    split_ifs with hnext
    · have hread := ih hnext
      rwa [append_assoc, singleton_append] at hread
    · exact .inr ⟨front, c, rest, rfl, h, hnext, rfl⟩

omit hmodel in
theorem last_rdropWhile (front : List Char) : (front.rdropWhile isWord).getLast?.any isWord = false := by
  induction front using List.reverseRecOn with
  | nil => rfl
  | append_singleton front c ih =>
    rw [rdropWhile_concat]
    split_ifs with hword
    · exact ih
    · simpa using hword

theorem longest_rdropWhile {c : Char} (hfits : Fits modelId maxTokens maxChars front)
    (hstop : ¬Fits modelId maxTokens maxChars (front ++ [c]))
    (hword : front.getLast?.any isWord = true → isWord c = true) :
    Longest modelId maxTokens maxChars (front ++ c :: rest) (front.rdropWhile isWord) := by
  obtain ⟨boundary, hboundary⟩ : ∃ boundary, front.rdropWhile isWord = boundary := ⟨_, rfl⟩
  obtain ⟨word, hrun, hfront⟩ : ∃ word, (∀ a ∈ word, isWord a = true) ∧ boundary ++ word = front :=
    ⟨front.rtakeWhile isWord, fun a => mem_rtakeWhile_imp, hboundary ▸ rdropWhile_append_rtakeWhile ..⟩
  have hlast : boundary.getLast?.any isWord = false := hboundary ▸ last_rdropWhile front
  rw [hboundary]
  subst hfront
  refine ⟨by simp, hfits.of_append hmodel, fun _ => by simp [insideWord, hlast], fun other hother hfit hwhole => ?_⟩
  by_contra hlonger
  have hle : other.length ≤ (boundary ++ word).length := by
    by_contra hlt
    obtain ⟨more, rfl⟩ : (boundary ++ word) ++ [c] <+: other :=
      prefix_of_prefix_length_le (by simp) hother (by simp at hlt ⊢; omega)
    exact hstop (hfit.of_append hmodel)
  rw [length_append] at hle
  have hne : word ≠ [] := ne_nil_of_length_pos (by omega)
  have hin : ∀ i ≤ word.length, (boundary ++ word ++ c :: rest)[boundary.length + i]?.any isWord = true := by
    intro i hi
    rw [append_assoc, List.getElem?_append_right (by omega), Nat.add_sub_cancel_left]
    rcases hi.lt_or_eq with hlt | rfl
    · rw [List.getElem?_append_left hlt, List.getElem?_eq_getElem hlt]
      exact hrun _ (getElem_mem hlt)
    · rw [List.getElem?_append_right le_rfl, Nat.sub_self]
      apply hword
      rw [List.getLast?_append_of_ne_nil _ hne, List.getLast?_eq_some_getLast hne]
      exact hrun _ (getLast_mem hne)
  obtain ⟨j, hj⟩ : ∃ j, other.length = boundary.length + (j + 1) := ⟨other.length - boundary.length - 1, by omega⟩
  have hend : other.getLast?.any isWord = true := by
    have hthere := hin j (by omega)
    rw [prefix_iff_eq_take.mp hother, List.getLast?_take, if_neg (by omega), hj, ← Nat.add_assoc,
      Nat.add_sub_cancel]
    cases hat : (boundary ++ word ++ c :: rest)[boundary.length + j]? with
    | none =>
      rw [hat] at hthere
      cases hthere
    | some a => rwa [hat] at hthere
  have hinside : insideWord (boundary ++ word ++ c :: rest) other = true := by
    rw [insideWord, hend, hj]
    exact hin (j + 1) (by omega)
  rw [hwhole hmodel] at hinside
  cases hinside

end Lexical

theorem isWord_of_longest {c : Char} (hfits : Fits modelId maxTokens maxChars front)
    (h : Longest modelId maxTokens maxChars (front ++ c :: rest) (front.rdropWhile isWord))
    (hlast : front.getLast?.any isWord = true) : isWord c = true := by
  by_contra hword
  have hle := h.longest front (prefix_append _ _) hfits fun _ => by simp [insideWord, hword]
  have hwhole : front.rdropWhile isWord = front := (List.rdropWhile_prefix _ _).eq_of_length_le hle
  have hnot := last_rdropWhile front
  rw [hwhole, hlast] at hnot
  cases hnot

theorem lexical_longest_iff (hmodel : modelId.bind tokenizerMetadata = none) :
    Longest modelId maxTokens maxChars text (lexicalBoundaryPrefix text maxTokens maxChars) ↔
      ∀ n : Fin text.length, (text.take n).getLast?.any isWord = true → Fits modelId maxTokens maxChars (text.take n) →
        ¬Fits modelId maxTokens maxChars (text.take (n + 1)) → isWord (text.get n) = true := by
  have hnil : Fits modelId maxTokens maxChars [] := (fits_iff hmodel).mpr ⟨Nat.zero_le _, Nat.zero_le _⟩
  rw [lexicalBoundaryPrefix, show lexicalBoundaryFrom maxTokens maxChars 0 0 false 0 text =
    boundaryAfter maxTokens maxChars [] text from rfl]
  rcases boundaryAfter_cases hmodel hnil text with ⟨hdone, hfits⟩ | ⟨read, c, unread, rfl, hfits, hstop, hat⟩
  · rw [hdone]
    rw [nil_append] at hfits
    refine iff_of_true
      ⟨prefix_refl _, hfits, fun _ => by simp [insideWord], fun other hother _ _ => hother.length_le⟩
      fun n _ _ hnot => absurd ?_ hnot
    rw [← List.take_append_drop (n + 1) text] at hfits
    exact hfits.of_append hmodel
  · have hboundary : (read ++ c :: unread).take (read.rdropWhile isWord).length = read.rdropWhile isWord :=
      (prefix_iff_eq_take.mp ((List.rdropWhile_prefix _ _).trans (prefix_append _ _))).symm
    rw [hat]
    dsimp only
    rw [hboundary]
    constructor
    · intro hlongest n hlast hfit hnot
      -- Only one length fits while the next does not.
      have hlt : (n : ℕ) ≤ read.length := by
        by_contra hgt
        obtain ⟨more, hmore⟩ : read ++ [c] <+: (read ++ c :: unread).take n :=
          prefix_of_prefix_length_le (by simp) (List.take_prefix _ _) (by simp; omega)
        exact hstop ((hmore ▸ hfit).of_append hmodel)
      have hge : read.length ≤ (n : ℕ) := by
        by_contra hgt
        obtain ⟨more, hmore⟩ : (read ++ c :: unread).take (n + 1) <+: read :=
          prefix_of_prefix_length_le (List.take_prefix _ _) (prefix_append _ _) (by simp; omega)
        exact hnot ((hmore ▸ hfits).of_append hmodel)
      have hn : (n : ℕ) = read.length := le_antisymm hlt hge
      have hword := isWord_of_longest hfits hlongest (by simpa [hn] using hlast)
      simpa [hn] using hword
    · intro hclean
      refine longest_rdropWhile hmodel hfits hstop fun hlast => ?_
      simpa using hclean ⟨read.length, by simp⟩ (by simpa using hlast) (by simpa using hfits)
        (by simpa [take_length_add_append] using hstop)

theorem nil_longest_iff (hmodel : modelId.bind tokenizerMetadata = none) :
    Longest modelId 0 maxChars text [] ↔ (maxChars ≠ 0 → text.head?.any isWhitespace = false) := by
  constructor
  · intro h hchars
    cases text with
    | nil => rfl
    | cons c text =>
      by_contra hspace
      have hblank : isWhitespace c = true := by simpa using hspace
      have hword : isWord c = false := by
        by_contra hword
        rw [not_isWhitespace (by simpa using hword)] at hblank
        cases hblank
      have hfits : Fits modelId 0 maxChars [c] := (fits_iff hmodel).mpr
        ⟨Nat.one_le_iff_ne_zero.mpr hchars, by simp [countTailFrom, hblank]⟩
      exact absurd (h.longest [c] ⟨text, rfl⟩ hfits fun _ => by simp [insideWord, hword]) (by simp)
  · intro h
    refine ⟨List.nil_prefix, (fits_iff hmodel).mpr ⟨Nat.zero_le _, Nat.zero_le _⟩, fun _ => rfl,
      fun other hother hfit _ => ?_⟩
    rw [fits_iff hmodel] at hfit
    cases other with
    | nil => exact le_rfl
    | cons c other =>
      obtain ⟨more, rfl⟩ := hother
      have hblank := h (Nat.ne_of_gt (Nat.lt_of_lt_of_le (Nat.succ_pos _) hfit.1))
      simp_all [countTailFrom]

theorem take_longest_iff {family : TokenizerFamily} (hmodel : modelId.bind tokenizerMetadata = some family) :
    Longest modelId maxTokens maxChars text
        (text.take (min maxChars (min (maxTokens * family.charsPerTokenMilli) (2 ^ 64 - 1) / 1000))) ↔
      (2 ^ 64 - 1 ≤ maxTokens * family.charsPerTokenMilli → min text.length maxChars * 1000 < 2 ^ 64) := by
  have hpos : 0 < family.charsPerTokenMilli := by cases family <;> decide
  have hfits : ∀ front, Fits modelId maxTokens maxChars front ↔ front.length ≤ maxChars ∧
      min (front.length * 1000) (2 ^ 64 - 1) ≤ maxTokens * family.charsPerTokenMilli := by
    intro front
    rw [Fits, countTokensForModel, hmodel]
    dsimp only
    rw [approximateTokenCount, Nat.div_le_iff_le_mul_add_pred hpos, Nat.mul_comm family.charsPerTokenMilli]
    omega
  have hregistered : modelId.bind tokenizerMetadata ≠ none := by simp [hmodel]
  constructor
  · intro h hlarge
    have hle := h.longest (text.take maxChars) (List.take_prefix _ _)
      ((hfits _).mpr ⟨length_take_le _ _, (min_le_right _ _).trans hlarge⟩) (absurd · hregistered)
    rw [length_take, length_take] at hle
    omega
  · intro hsmall
    refine ⟨List.take_prefix _ _, (hfits _).mpr ?_, fun h => absurd h hregistered, fun other hother hfit _ => ?_⟩
    · rw [length_take]
      omega
    · have hle := hother.length_le
      rw [hfits] at hfit
      rw [length_take]
      omega

theorem empty_longest_iff (hmodel : modelId.bind tokenizerMetadata = none)
    (hempty : text = [] ∨ maxTokens = 0 ∨ maxChars = 0) :
    Longest modelId maxTokens maxChars text [] ↔ Clean modelId maxTokens maxChars text := by
  -- No prefix that ends in a word fits, so that only the condition on whitespace is left.
  have hclean : Clean modelId maxTokens maxChars text ↔
      (maxTokens = 0 → maxChars ≠ 0 → text.head?.any isWhitespace = false) := by
    refine ⟨fun h => h.blank hmodel, fun h => ⟨by simp [hmodel], fun _ => h, fun _ n hlast hfit _ => ?_⟩⟩
    rw [fits_iff hmodel] at hfit
    have htokens := countTailFrom_pos hlast
    have hchars : 0 < (text.take n).length := length_pos_of_ne_nil fun hnil => by simp [hnil] at hlast
    rcases hempty with rfl | rfl | rfl
    · exact n.elim0
    · omega
    · omega
  rw [hclean]
  by_cases hzero : maxTokens = 0
  · subst hzero
    rw [nil_longest_iff hmodel]
    exact ⟨fun h _ => h, fun h => h rfl⟩
  · refine iff_of_true ⟨List.nil_prefix, (fits_iff hmodel).mpr ⟨Nat.zero_le _, Nat.zero_le _⟩, fun _ => rfl,
      fun other hother hfit _ => ?_⟩ fun h => absurd h hzero
    rcases hempty with rfl | h | rfl
    · exact hother.length_le
    · exact absurd h hzero
    · exact hfit.1

theorem pack_longest (text : List Char) (maxTokens maxChars : ℕ) (modelId : Option String) :
    (Longest modelId maxTokens maxChars text
        (packToTokenBoundaryForModelWithCharLimit text maxTokens maxChars modelId) ↔
      Clean modelId maxTokens maxChars text) ∧
    ∀ text, countTokensLexical text = wordRuns text + otherChars text := by
  refine ⟨?_, fun text => (countTokensLexical_eq text).trans (countTailFrom_eq false text)⟩
  unfold packToTokenBoundaryForModelWithCharLimit
  cases hmodel : modelId.bind tokenizerMetadata with
  | some family =>
    have hclean : Clean modelId maxTokens maxChars text ↔ _ :=
      Iff.trans
        ⟨fun h => h.small family hmodel, fun h => ⟨by simpa [hmodel] using h, by simp [hmodel], by simp [hmodel]⟩⟩
        (take_longest_iff hmodel).symm
    rw [hclean]
    dsimp only
    split_ifs with hempty hwhole
    · rcases hempty with rfl | rfl | rfl <;> simp
    · rw [take_of_length_le (le_min hwhole.2 hwhole.1)]
    · rfl
  | none =>
    dsimp only
    split_ifs with hempty
    · exact empty_longest_iff hmodel hempty
    · rw [not_or, not_or] at hempty
      rw [lexical_longest_iff hmodel]
      exact ⟨fun h => ⟨by simp [hmodel], fun _ hzero => absurd hzero hempty.2.1, fun _ => h⟩, fun h => h.word hmodel⟩

theorem pack_longest_two_words : packToTokenBoundaryForModelWithCharLimit "ab cd".toList 2 4 none = "ab ".toList ∧
    Longest none 2 4 "ab cd".toList (packToTokenBoundaryForModelWithCharLimit "ab cd".toList 2 4 none) :=
  ⟨by decide, (pack_longest "ab cd".toList 2 4 none).1.mpr ⟨by simp, by decide, by decide⟩⟩

/-- The first word fits, and the packer returns nothing, since it has not looked at what is behind the word. -/
theorem first_word_dropped : packToTokenBoundaryForModelWithCharLimit "foo+bar".toList 1 7 none = [] ∧
    "foo".toList <+: "foo+bar".toList ∧ Fits none 1 7 "foo".toList ∧
    insideWord "foo+bar".toList "foo".toList = false := by
  decide

end Pack
end Zero.Tokens
