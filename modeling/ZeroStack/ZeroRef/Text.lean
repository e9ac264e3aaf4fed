import ZeroStack.Wire.Decimal
import ZeroStack.Wire.Reader
import ZeroStack.Wire.Pieces

/-! Portable blob references and their text. -/

open Wire List

namespace Zero.Ref

inductive ZeroRefErrorClass where
  | malformed
  | unsupported
  | rangeOutOfBounds
  | notUtf8
  | missing
  | io
  | digestMismatch
  | policyDenied
  deriving DecidableEq

structure ZeroRefError where
  errorClass : ZeroRefErrorClass
  message : String
  deriving DecidableEq

def malformed (message : String) : ZeroRefError := ⟨.malformed, message⟩
def unsupported (message : String) : ZeroRefError := ⟨.unsupported, message⟩

inductive ZeroScheme where
  | z
  deriving DecidableEq

def ZeroScheme.all : List ZeroScheme := [.z]

def ZeroScheme.asStr : ZeroScheme → List Char
  | .z => ['z']

def ZeroScheme.parse (s : List Char) : Option ZeroScheme := ZeroScheme.all.find? fun scheme => scheme.asStr = s

def portableKinds : List (List Char) := [['b', 'l', 'o', 'b']]

inductive ZeroFragment where
  | none
  | bytes (start stop : ℕ)
  | lines (start stop : ℕ)
  deriving DecidableEq

structure ZeroRef where
  scheme : ZeroScheme
  hash : List Char
  fragment : ZeroFragment
  deriving DecidableEq

def isLowerHex (c : Char) : Bool := c.isDigit || ('a' ≤ c && c ≤ 'f')

def isFullLowerHex (s : List Char) : Bool := s.length = 64 && s.all isLowerHex

def parseU64Strict (s : List Char) (input : String) : Except ZeroRefError ℕ :=
  let text := String.ofList s
  if s.isEmpty || !s.all Char.isDigit then .error (malformed s!"invalid number '{text}' in ref: {input}")
  else match readDecimal (2 ^ 64) s with
    | .ok n => .ok n
    | .error _ => .error (malformed s!"number '{text}' overflows u64 in ref: {input}")

def parseFragment (f : List Char) (input : String) : Except ZeroRefError ZeroFragment :=
  let text := String.ofList f
  let spanText := String.ofList f.tail
  match f with
  | 'B' :: span =>
    match splitOnce ['-'] span with
    | some (s, e) => do
      let start ← parseU64Strict s input
      let stop ← parseU64Strict e input
      if stop < start then .error (malformed s!"byte span end before start: {input}")
      else .ok (.bytes start stop)
    | .none => .error (malformed s!"malformed byte fragment '#B{spanText}': {input}")
  | 'L' :: span =>
    match splitOnce ['-'] span with
    | some (a, b) => do
      let start ← parseU64Strict a input
      let stop ← parseU64Strict b input
      if start = 0 then .error (malformed s!"line numbering is one-based: {input}")
      else if stop < start then .error (malformed s!"line span end before start: {input}")
      else .ok (.lines start stop)
    | .none => .error (malformed s!"malformed line fragment '#L{spanText}': {input}")
  | _ => .error (malformed s!"unknown fragment '{text}': {input}")

def parseBlob (scheme : ZeroScheme) (tail : List Char) (input : String) : Except ZeroRefError ZeroRef :=
  let (hash, frag) := match splitOnce ['#'] tail with
    | some (h, f) => (h, some f)
    | .none => (tail, .none)
  if '/' ∈ hash then .error (malformed s!"extra path segments after blob hash: {input}")
  else if !isFullLowerHex hash then
    .error (malformed s!"blob hash must be full lowercase 64-hex SHA-256: {input}")
  else match frag with
    | .none => .ok ⟨scheme, hash, .none⟩
    | some f => do
      let fragment ← parseFragment f input
      .ok ⟨scheme, hash, fragment⟩

def parse (input : String) : Except ZeroRefError ZeroRef :=
  match splitOnce [':', '/', '/'] input.toList with
  | .none =>
    if ['g', ':'].isPrefixOf input.toList || ['q', ':'].isPrefixOf input.toList then
      .error (unsupported s!"engine compact ref is not a portable ZeroRef: {input}")
    else .error (malformed s!"not a ZeroRef: {input}")
  | some (schemeStr, rest) =>
    match ZeroScheme.parse schemeStr with
    | .none =>
      let text := String.ofList schemeStr
      .error (unsupported s!"unknown ZeroRef scheme '{text}': {input}")
    | some scheme =>
      match splitOnce ['/'] rest with
      | .none => .error (malformed s!"missing ref path: {input}")
      | some (kind, tail) =>
        if kind ∉ portableKinds then
          let text := String.ofList kind
          .error (unsupported s!"non-blob ref kind '{text}' is engine-owned, not portable: {input}")
        else parseBlob scheme tail input

def ZeroFragment.display : ZeroFragment → List Char
  | .none => []
  | .bytes start stop => '#' :: 'B' :: (decimal start ++ '-' :: decimal stop)
  | .lines start stop => '#' :: 'L' :: (decimal start ++ '-' :: decimal stop)

def ZeroRef.display (r : ZeroRef) : String :=
  String.ofList (r.scheme.asStr ++ "://blob/".toList ++ r.hash ++ r.fragment.display)

def ZeroFragment.InBounds : ZeroFragment → Prop
  | .none => True
  | .bytes start stop => start ≤ stop ∧ stop < 2 ^ 64
  | .lines start stop => 1 ≤ start ∧ start ≤ stop ∧ stop < 2 ^ 64

structure ZeroRef.Constructible (r : ZeroRef) : Prop where
  hash : isFullLowerHex r.hash = true
  fragment : r.fragment.InBounds

structure Numeral (s : List Char) (n : ℕ) : Prop where
  ne_nil : s ≠ []
  digits : ∀ c ∈ s, c.isDigit = true
  value : Nat.ofDigitChars 10 s 0 = n
  fits : n < 2 ^ 64

theorem numeral_decimal {n : ℕ} (h : n < 2 ^ 64) : Numeral (decimal n) n where
  ne_nil := decimal_ne_nil n
  digits := fun _ hc => isDigit_of_mem_decimal hc
  value := Nat.ofDigitChars_ten_toDigits
  fits := h

theorem Numeral.dash_notMem {s : List Char} {n : ℕ} (h : Numeral s n) : '-' ∉ s := by
  intro hmem
  exact absurd (h.digits '-' hmem) (by decide)

inductive Spells : List Char → ZeroFragment → Prop where
  | none : Spells [] .none
  | bytes {a b : List Char} {start stop : ℕ} (ha : Numeral a start) (hb : Numeral b stop) (h : start ≤ stop) :
      Spells ('#' :: 'B' :: (a ++ '-' :: b)) (.bytes start stop)
  | lines {a b : List Char} {start stop : ℕ} (ha : Numeral a start) (hb : Numeral b stop) (hone : 1 ≤ start)
      (h : start ≤ stop) : Spells ('#' :: 'L' :: (a ++ '-' :: b)) (.lines start stop)

theorem spells_display {f : ZeroFragment} (h : f.InBounds) : Spells f.display f := by
  cases f with
  | none => exact .none
  | bytes start stop =>
    obtain ⟨hle, hfits⟩ := h
    exact .bytes (numeral_decimal (by omega)) (numeral_decimal hfits) hle
  | lines start stop =>
    obtain ⟨hone, hle, hfits⟩ := h
    exact .lines (numeral_decimal (by omega)) (numeral_decimal hfits) hone hle

theorem Spells.inBounds {text : List Char} {f : ZeroFragment} (h : Spells text f) : f.InBounds := by
  cases h with
  | none => trivial
  | bytes ha hb hle => exact ⟨hle, hb.fits⟩
  | lines ha hb hone hle => exact ⟨hone, hle, hb.fits⟩

theorem parseU64Strict_eq_ok_iff {s : List Char} {input : String} {n : ℕ} :
    parseU64Strict s input = .ok n ↔ Numeral s n := by
  have hpos : 0 < 2 ^ 64 := Nat.two_pow_pos 64
  rw [parseU64Strict, guard_eq_ok]
  constructor
  · rintro ⟨hchecked, h⟩
    obtain ⟨hne, hdigits⟩ : s ≠ [] ∧ ∀ c ∈ s, c.isDigit = true := by simpa using hchecked
    rw [readDecimal_of_digits hne hdigits] at h
    cases hread : readDigits (2 ^ 64) 0 s with
    | error e =>
      rw [hread] at h
      cases h
    | ok m =>
      rw [hread] at h
      cases h
      obtain ⟨-, hvalue, hfits⟩ := (readDigits_eq_ok_iff hpos).mp hread
      exact ⟨hne, hdigits, hvalue, hfits⟩
  · intro h
    have hread := (readDigits_eq_ok_iff hpos).mpr ⟨h.digits, h.value, h.fits⟩
    refine ⟨by simpa [h.ne_nil] using h.digits, ?_⟩
    rw [readDecimal_of_digits h.ne_nil h.digits, hread]

variable {fragment : ZeroFragment}

theorem parseFragment_sound {f : List Char} {input : String}
    (h : parseFragment f input = .ok fragment) : Spells ('#' :: f) fragment := by
  unfold parseFragment at h
  split at h
  next span =>
    cases hsplit : splitOnce ['-'] span with
    | none =>
      rw [hsplit] at h
      cases h
    | some parts =>
      simp only [hsplit, bind_eq_ok, guard_eq_ok, parseU64Strict_eq_ok_iff, Except.ok.injEq] at h
      obtain ⟨start, ha, stop, hb, hle, rfl⟩ := h
      rw [eq_of_splitOnce hsplit]
      exact .bytes ha hb (Nat.le_of_not_lt hle)
  next span =>
    cases hsplit : splitOnce ['-'] span with
    | none =>
      rw [hsplit] at h
      cases h
    | some parts =>
      simp only [hsplit, bind_eq_ok, guard_eq_ok, parseU64Strict_eq_ok_iff, Except.ok.injEq] at h
      obtain ⟨start, ha, stop, hb, hone, hle, rfl⟩ := h
      rw [eq_of_splitOnce hsplit]
      exact .lines ha hb (Nat.one_le_iff_ne_zero.mpr hone) (Nat.le_of_not_lt hle)
  · cases h

theorem parseFragment_complete {f : List Char} (h : Spells ('#' :: f) fragment)
    (input : String) : parseFragment f input = .ok fragment := by
  cases h with
  | @bytes a b start stop ha hb hle =>
    have hsplit : splitOnce ['-'] (a ++ '-' :: b) = some (a, b) := splitOnce_append_cons ha.dash_notMem
    simp only [parseFragment, hsplit, bind_eq_ok, guard_eq_ok, parseU64Strict_eq_ok_iff]
    exact ⟨start, ha, stop, hb, Nat.not_lt.mpr hle, rfl⟩
  | @lines a b start stop ha hb hone hle =>
    have hsplit : splitOnce ['-'] (a ++ '-' :: b) = some (a, b) := splitOnce_append_cons ha.dash_notMem
    simp only [parseFragment, hsplit, bind_eq_ok, guard_eq_ok, parseU64Strict_eq_ok_iff]
    exact ⟨start, ha, stop, hb, Nat.one_le_iff_ne_zero.mp hone, Nat.not_lt.mpr hle, rfl⟩

def header : List Char := ['z', ':', '/', '/', 'b', 'l', 'o', 'b', '/']

theorem hash_sign_notMem {hash : List Char} {c : Char} (h : isFullLowerHex hash = true) (hc : isLowerHex c = false) :
    c ∉ hash := by
  intro hmem
  rw [isFullLowerHex, Bool.and_eq_true, all_eq_true] at h
  have hhex := h.2 c hmem
  rw [hc] at hhex
  cases hhex

variable {r : ZeroRef}

theorem parseBlob_sound {scheme : ZeroScheme} {tail : List Char} {input : String}
    (h : parseBlob scheme tail input = .ok r) :
    isFullLowerHex r.hash = true ∧ ∃ text, tail = r.hash ++ text ∧ Spells text r.fragment := by
  unfold parseBlob at h
  cases hsplit : splitOnce ['#'] tail with
  | none =>
    simp only [hsplit, guard_eq_ok, Except.ok.injEq] at h
    obtain ⟨-, hhex, rfl⟩ := h
    exact ⟨by simpa using hhex, [], by simp, .none⟩
  | some parts =>
    obtain ⟨hash, f⟩ := parts
    simp only [hsplit, guard_eq_ok, bind_eq_ok, Except.ok.injEq] at h
    obtain ⟨-, hhex, fragment, hfragment, rfl⟩ := h
    exact ⟨by simpa using hhex, '#' :: f, eq_of_splitOnce hsplit, parseFragment_sound hfragment⟩

theorem parseBlob_complete (scheme : ZeroScheme) {hash text : List Char}
    (hhex : isFullLowerHex hash = true) (h : Spells text fragment) (input : String) :
    parseBlob scheme (hash ++ text) input = .ok ⟨scheme, hash, fragment⟩ := by
  have hslash : '/' ∉ hash := hash_sign_notMem hhex (by decide)
  have hsharp : '#' ∉ hash := hash_sign_notMem hhex (by decide)
  have hchecked : ¬(!isFullLowerHex hash) = true := by simp [hhex]
  cases hshape : text with
  | nil =>
    rw [hshape] at h
    cases h
    rw [append_nil]
    simp only [parseBlob, splitOnce_of_notMem hsharp, if_neg hslash, if_neg hchecked]
  | cons c f =>
    have hc : c = '#' := by
      rw [hshape] at h
      cases h <;> rfl
    subst hc hshape
    simp only [parseBlob, splitOnce_append_cons hsharp, if_neg hslash, if_neg hchecked,
      parseFragment_complete h, bind_eq_ok]
    exact ⟨fragment, rfl, rfl⟩

theorem ZeroScheme.parse_eq_some {s : List Char} {scheme : ZeroScheme} (h : ZeroScheme.parse s = some scheme) :
    s = ['z'] := by
  have hfound := List.find?_some h
  cases scheme
  exact (of_decide_eq_true hfound).symm

theorem parse_sound {s : String} (h : parse s = .ok r) :
    isFullLowerHex r.hash = true ∧ ∃ text, s.toList = header ++ (r.hash ++ text) ∧ Spells text r.fragment := by
  unfold parse at h
  split at h
  · split_ifs at h
  next schemeStr rest hinput =>
    split at h
    · cases h
    next scheme hscheme =>
      split at h
      · cases h
      next kind tail hrest =>
        rw [guard_eq_ok, not_not, portableKinds, mem_singleton] at h
        obtain ⟨hkind, hblob⟩ := h
        obtain ⟨hhex, text, htail, hspells⟩ := parseBlob_sound hblob
        refine ⟨hhex, text, ?_, hspells⟩
        rw [eq_of_splitOnce hinput, ZeroScheme.parse_eq_some hscheme, eq_of_splitOnce hrest, hkind, htail]
        rfl

theorem parse_complete {s : String} {hash text : List Char}
    (hs : s.toList = header ++ (hash ++ text)) (hhex : isFullLowerHex hash = true) (h : Spells text fragment) :
    parse s = .ok ⟨.z, hash, fragment⟩ := by
  have hinput : splitOnce [':', '/', '/'] s.toList = some (['z'], ['b', 'l', 'o', 'b'] ++ '/' :: (hash ++ text)) := by
    rw [hs]
    rfl
  have hrest : splitOnce ['/'] (['b', 'l', 'o', 'b'] ++ '/' :: (hash ++ text)) =
      some (['b', 'l', 'o', 'b'], hash ++ text) := splitOnce_append_cons (by decide)
  simp only [parse, hinput, hrest]
  exact parseBlob_complete .z hhex h s

theorem toList_display (r : ZeroRef) : r.display.toList = header ++ (r.hash ++ r.fragment.display) := by
  obtain ⟨scheme, hash, fragment⟩ := r
  cases scheme
  rw [ZeroRef.display, String.toList_ofList]
  rfl

theorem parse_display (h : r.Constructible) : parse r.display = .ok r := by
  obtain ⟨scheme, hash, fragment⟩ := r
  cases scheme
  exact parse_complete (toList_display _) h.hash (spells_display h.fragment)

theorem constructible_of_parse {s : String} (h : parse s = .ok r) : r.Constructible := by
  obtain ⟨hhex, text, -, hspells⟩ := parse_sound h
  exact ⟨hhex, hspells.inBounds⟩

def fragmentNumbers (s : List Char) : List (List Char) :=
  match splitOnce ['#'] s with
  | some (_, _ :: span) =>
    match splitOnce ['-'] span with
    | some (a, b) => [a, b]
    | none => []
  | _ => []

theorem fragmentNumbers_eq {front a b : List Char} {c : Char} (hfront : '#' ∉ front) (ha : '-' ∉ a) :
    fragmentNumbers (front ++ '#' :: c :: (a ++ '-' :: b)) = [a, b] := by
  simp only [fragmentNumbers, splitOnce_append_cons hfront, splitOnce_append_cons ha]

theorem Numeral.decimal_eq {s : List Char} {n : ℕ} (h : Numeral s n) (hfree : LeadingZeroFree s) : decimal n = s := by
  rw [← h.value]
  exact decimal_ofDigitChars h.ne_nil h.digits hfree

theorem Spells.display_eq {front text : List Char} (h : Spells text fragment)
    (hfront : '#' ∉ front) (hfree : ∀ n ∈ fragmentNumbers (front ++ text), LeadingZeroFree n) :
    fragment.display = text := by
  cases h with
  | none => rfl
  | bytes ha hb hle | lines ha hb hone hle =>
    rw [fragmentNumbers_eq hfront ha.dash_notMem] at hfree
    rw [ZeroFragment.display, ha.decimal_eq (hfree _ (by simp)), hb.decimal_eq (hfree _ (by simp))]

theorem display_of_parse {s : String} (h : parse s = .ok r)
    (hfree : ∀ n ∈ fragmentNumbers s.toList, LeadingZeroFree n) : r.display = s := by
  obtain ⟨hhex, text, hs, hspells⟩ := parse_sound h
  have hfront : '#' ∉ header ++ r.hash := by
    rw [mem_append, not_or]
    exact ⟨by decide, hash_sign_notMem hhex (by decide)⟩
  rw [hs] at hfree
  have htext := hspells.display_eq hfront hfree
  rw [← String.toList_inj, toList_display, htext, hs]

/-- A lowercase digest of 64 hexadecimal digits, with no fragment, a span of bytes or a span of lines. -/
def Documented (s : String) : Prop :=
  ∃ hash, isFullLowerHex hash = true ∧ (s.toList = header ++ hash ∨
      ∃ a b start stop, Numeral a start ∧ Numeral b stop ∧ start ≤ stop ∧
        (s.toList = header ++ hash ++ '#' :: 'B' :: (a ++ '-' :: b) ∨
          1 ≤ start ∧ s.toList = header ++ hash ++ '#' :: 'L' :: (a ++ '-' :: b)))

theorem documented_iff (s : String) :
    Documented s ↔ ∃ hash text fragment, s.toList = header ++ (hash ++ text) ∧ isFullLowerHex hash = true ∧
      Spells text fragment := by
  constructor
  · rintro ⟨hash, hhex, hplain | ⟨a, b, start, stop, ha, hb, hle, hbytes | ⟨hone, hlines⟩⟩⟩
    · exact ⟨hash, [], .none, by simpa using hplain, hhex, .none⟩
    · exact ⟨hash, _, _, by rw [hbytes, append_assoc], hhex, .bytes ha hb hle⟩
    · exact ⟨hash, _, _, by rw [hlines, append_assoc], hhex, .lines ha hb hone hle⟩
  · rintro ⟨hash, text, fragment, hs, hhex, hspells⟩
    cases hspells with
    | none => exact ⟨hash, hhex, .inl (by simpa using hs)⟩
    | bytes ha hb hle => exact ⟨hash, hhex, .inr ⟨_, _, _, _, ha, hb, hle, .inl hs⟩⟩
    | lines ha hb hone hle => exact ⟨hash, hhex, .inr ⟨_, _, _, _, ha, hb, hle, .inr ⟨hone, hs⟩⟩⟩

theorem parse_accepts_iff (s : String) : (∃ r, parse s = .ok r) ↔ Documented s := by
  rw [documented_iff]
  constructor
  · rintro ⟨r, h⟩
    obtain ⟨hhex, text, hs, hspells⟩ := parse_sound h
    exact ⟨r.hash, text, r.fragment, hs, hhex, hspells⟩
  · rintro ⟨hash, text, fragment, hs, hhex, hspells⟩
    exact ⟨_, parse_complete hs hhex hspells⟩

/-- The text of a reference is canonical: what is displayed is read back, what is read is displayed as it
was written up to zeros before its numbers, and the documented texts are the ones accepted. -/
theorem canonical_text : (∀ r : ZeroRef, r.Constructible → parse r.display = .ok r) ∧
      (∀ (s : String) (r : ZeroRef), parse s = .ok r →
        parse r.display = .ok r ∧ ((∀ n ∈ fragmentNumbers s.toList, LeadingZeroFree n) → r.display = s)) ∧
      ∀ s : String, (∃ r, parse s = .ok r) ↔ Documented s := by
  refine ⟨fun r h => parse_display h, fun s r h => ?_, parse_accepts_iff⟩
  exact ⟨parse_display (constructible_of_parse h), display_of_parse h⟩

theorem lines_reference_reads_back :
    parse (ZeroRef.display ⟨.z, List.replicate 64 'a', .lines 1 12⟩) = .ok ⟨.z, List.replicate 64 'a', .lines 1 12⟩ :=
  canonical_text.1 _ ⟨by decide, by decide, by decide, by decide⟩

example :
    (parse ("z://blob/" ++ String.ofList (List.replicate 64 'a') ++ "#L007-12")).map (·.fragment.display) =
      .ok "#L7-12".toList := by
  decide +kernel

end Zero.Ref
