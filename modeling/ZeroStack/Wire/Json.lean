import Mathlib.Tactic.Ring
import ZeroStack.Wire.Lines

/-! JSON strings in their shortest form: what a writer emits, and a reader that takes it back. -/

namespace Wire

open List

def quote : UInt8 := 34
def backslash : UInt8 := 92

def hexByte (n : ℕ) : UInt8 := UInt8.ofNat (if n < 10 then 48 + n else 87 + n)

variable (b : UInt8)

def hexValue : ℕ := if b.toNat < 97 then b.toNat - 48 else b.toNat - 87

def shortEscape : Option UInt8 :=
  if b = quote then some quote
  else if b = backslash then some backslash
  else if b = 8 then some 98
  else if b = 12 then some 102
  else if b = newline then some 110
  else if b = carriageReturn then some 114
  else if b = 9 then some 116
  else none

def shortUnescape (c : UInt8) : Option UInt8 :=
  if c = quote then some quote
  else if c = backslash then some backslash
  else if c = 98 then some 8
  else if c = 102 then some 12
  else if c = 110 then some newline
  else if c = 114 then some carriageReturn
  else if c = 116 then some 9
  else none

def escapeByte : List UInt8 :=
  match shortEscape b with
  | some c => [backslash, c]
  | none => if b.toNat < 32 then [backslash, 117, 48, 48, hexByte (b.toNat / 16), hexByte (b.toNat % 16)] else [b]

def readChar : List UInt8 → Option (UInt8 × List UInt8)
  | [] => none
  | b :: rest =>
    if b ≠ backslash then some (b, rest)
    else match rest with
      | [] => none
      | c :: rest =>
        match shortUnescape c with
        | some b => some (b, rest)
        | none =>
          match rest with
          | _ :: _ :: h :: l :: rest =>
            if c = 117 then some (UInt8.ofNat (16 * hexValue h + hexValue l), rest) else none
          | _ => none

def readString : ℕ → List UInt8 → Option (List UInt8 × List UInt8)
  | 0, _ => none
  | _ + 1, [] => none
  | fuel + 1, b :: bytes =>
    if b = quote then some ([], bytes)
    else do
      let (c, rest) ← readChar (b :: bytes)
      let (s, rest) ← readString fuel rest
      some (c :: s, rest)

variable (s : List UInt8)

def escape : List UInt8 := s.flatMap escapeByte

theorem shortUnescape_of_shortEscape {b c : UInt8} (h : shortEscape b = some c) : shortUnescape c = some b := by
  unfold shortEscape at h
  split_ifs at h with h1 h2 h3 h4 h5 h6 h7 <;> cases h <;> subst b <;> rfl

theorem hexValue_control {b : UInt8} (h : b.toNat < 32) :
    UInt8.ofNat (16 * hexValue (hexByte (b.toNat / 16)) + hexValue (hexByte (b.toNat % 16))) = b := by
  have hall : ∀ n : Fin 32, 16 * hexValue (hexByte (n / 16)) + hexValue (hexByte (n % 16)) = n := by decide
  have hn := hall ⟨b.toNat, h⟩
  rw [hn, UInt8.ofNat_toNat]

theorem readChar_escapeByte (rest : List UInt8) : readChar (escapeByte b ++ rest) = some (b, rest) := by
  unfold escapeByte
  cases hshort : shortEscape b with
  | some c => simp [readChar, shortUnescape_of_shortEscape hshort]
  | none =>
    have hu : shortUnescape 117 = none := by decide
    have hback : b ≠ backslash := by
      rintro rfl
      exact absurd hshort (by decide)
    split_ifs with hcontrol
    · simp [readChar, hu, hexValue_control hcontrol]
    · simp [readChar, hback]

theorem escapeByte_cons : ∃ c rest, escapeByte b = c :: rest ∧ c ≠ quote := by
  unfold escapeByte
  cases hshort : shortEscape b with
  | some c => exact ⟨backslash, [c], rfl, by decide⟩
  | none =>
    have hquote : b ≠ quote := by
      rintro rfl
      exact absurd hshort (by decide)
    split_ifs with hcontrol
    · exact ⟨backslash, _, rfl, by decide⟩
    · exact ⟨b, [], rfl, hquote⟩

theorem readString_escape {s : List UInt8} {fuel : ℕ} (h : s.length < fuel) (rest : List UInt8) :
    readString fuel (escape s ++ quote :: rest) = some (s, rest) := by
  induction s generalizing fuel with
  | nil =>
    cases fuel with
    | zero => omega
    | succ fuel => simp [escape, readString]
  | cons b s ih =>
    cases fuel with
    | zero => omega
    | succ fuel =>
      have hbytes : escape (b :: s) ++ quote :: rest = escapeByte b ++ (escape s ++ quote :: rest) := by simp [escape]
      have hchar := readChar_escapeByte b (escape s ++ quote :: rest)
      obtain ⟨c, front, hfront, hc⟩ := escapeByte_cons b
      have hrest : readString fuel (escape s ++ quote :: rest) = some (s, rest) := ih (by simpa using h)
      rw [hfront, cons_append] at hchar
      rw [hbytes, hfront, cons_append, readString, if_neg hc, hchar]
      simp [hrest]

theorem newline_notMem_escapeByte : newline ∉ escapeByte b := by
  unfold escapeByte
  cases hshort : shortEscape b with
  | some c =>
    have hc : c ≠ newline := by
      rintro rfl
      have hback := shortUnescape_of_shortEscape hshort
      exact absurd hback (by simp [shortUnescape, newline, quote, backslash])
    have hback : newline ≠ backslash := by decide
    simp [hback, hc.symm]
  | none =>
    have hb : b ≠ newline := by
      rintro rfl
      exact absurd hshort (by decide)
    split_ifs with hcontrol
    · have hall : ∀ n : Fin 32, newline ∉ [backslash, 117, 48, 48, hexByte (n / 16), hexByte (n % 16)] := by decide
      exact hall ⟨b.toNat, hcontrol⟩
    · simpa using hb.symm

theorem newline_notMem_escape : newline ∉ escape s := by
  intro h
  obtain ⟨b, -, hb⟩ := mem_flatMap.mp h
  exact newline_notMem_escapeByte b hb

theorem length_le_escape : s.length ≤ (escape s).length := by
  induction s with
  | nil => exact le_rfl
  | cons b s ih =>
    obtain ⟨c, front, hfront, -⟩ := escapeByte_cons b
    have hlength : (escape (b :: s)).length = front.length + 1 + (escape s).length := by
      rw [escape, flatMap_cons, length_append, hfront]
      rfl
    rw [length_cons]
    omega

def stripLiteral (literal bytes : List UInt8) : Option (List UInt8) :=
  if literal.isPrefixOf bytes then some (bytes.drop literal.length) else none

theorem stripLiteral_append (literal rest : List UInt8) : stripLiteral literal (literal ++ rest) = some rest := by
  have hbegin : literal.isPrefixOf (literal ++ rest) = true := isPrefixOf_iff_prefix.mpr (prefix_append ..)
  rw [stripLiteral, if_pos hbegin, drop_left]

structure Keys where
  first : List UInt8
  second : List UInt8
  third : List UInt8
  plain : newline ∉ first ++ second ++ third

namespace Keys
variable (keys : Keys)

def lead (mark : UInt8) (key : List UInt8) : List UInt8 := [mark, quote] ++ key ++ [quote, 58, quote]

variable (values : List UInt8 × List UInt8 × List UInt8)

def write : List UInt8 :=
  lead 123 keys.first ++ (escape values.1 ++ quote :: (lead 44 keys.second ++ (escape values.2.1 ++
    quote :: (lead 44 keys.third ++ (escape values.2.2 ++ quote :: [125])))))

def readAt (bytes : List UInt8) : Option ((List UInt8 × List UInt8 × List UInt8) × List UInt8) := do
  let rest ← stripLiteral (lead 123 keys.first) bytes
  let (first, rest) ← readString (bytes.length + 1) rest
  let rest ← stripLiteral (lead 44 keys.second) rest
  let (second, rest) ← readString (bytes.length + 1) rest
  let rest ← stripLiteral (lead 44 keys.third) rest
  let (third, rest) ← readString (bytes.length + 1) rest
  let rest ← stripLiteral [125] rest
  some ((first, second, third), rest)

def read (bytes : List UInt8) : Option (List UInt8 × List UInt8 × List UInt8) :=
  match keys.readAt bytes with
  | some (values, _) => if keys.write values = bytes then some values else none
  | none => none

theorem readAt_write (rest : List UInt8) : keys.readAt (keys.write values ++ rest) = some (values, rest) := by
  obtain ⟨first, second, third⟩ := values
  have hlength : first.length < (keys.write (first, second, third) ++ rest).length + 1 ∧
      second.length < (keys.write (first, second, third) ++ rest).length + 1 ∧
        third.length < (keys.write (first, second, third) ++ rest).length + 1 := by
    have h1 := length_le_escape first
    have h2 := length_le_escape second
    have h3 := length_le_escape third
    simp only [write, length_append, length_cons]
    omega
  unfold readAt
  generalize (keys.write (first, second, third) ++ rest).length + 1 = fuel at hlength
  simp only [write, append_assoc, cons_append, stripLiteral_append, Option.bind_eq_bind,
    Option.bind_some, readString_escape hlength.1, readString_escape hlength.2.1, readString_escape hlength.2.2]
  rfl

theorem read_eq_some {bytes : List UInt8} {values : List UInt8 × List UInt8 × List UInt8} :
    keys.read bytes = some values ↔ bytes = keys.write values := by
  constructor
  · intro h
    unfold read at h
    cases hread : keys.readAt bytes with
    | none =>
      rw [hread] at h
      cases h
    | some found =>
      rw [hread] at h
      dsimp only at h
      split_ifs at h with hwrite
      cases h
      exact hwrite.symm
  · rintro rfl
    have hread := keys.readAt_write values []
    rw [append_nil] at hread
    rw [read, hread]
    exact if_pos rfl

theorem write_append_inj {a b : List UInt8 × List UInt8 × List UInt8} {x y : List UInt8}
    (h : keys.write a ++ x = keys.write b ++ y) : a = b ∧ x = y := by
  have hread := keys.readAt_write a x
  rw [h, keys.readAt_write b y] at hread
  cases hread
  exact ⟨rfl, rfl⟩

theorem read_append {rest : List UInt8} (h : rest ≠ []) : keys.read (keys.write values ++ rest) = none := by
  cases hread : keys.read (keys.write values ++ rest) with
  | none => rfl
  | some found =>
    have hjoined := keys.read_eq_some.mp hread
    exact absurd (keys.write_append_inj (hjoined.trans (append_nil _).symm)).2 h

theorem read_of_begin {p : List UInt8} (hbegin : p <+: keys.write values) (hne : p ≠ keys.write values) :
    keys.read p = none := by
  obtain ⟨q, hq⟩ := hbegin
  cases hread : keys.read p with
  | none => rfl
  | some found =>
    rw [keys.read_eq_some.mp hread] at hq hne
    have hempty := (keys.write_append_inj (hq.trans (append_nil _).symm)).2
    rw [hempty, append_nil] at hq
    exact absurd hq hne

theorem write_ne_nil : keys.write values ≠ [] := by
  simp [write, lead]

theorem newline_notMem_write : newline ∉ keys.write values := by
  have hplain := keys.plain
  have hescape := newline_notMem_escape
  have hmarks : newline ≠ 123 ∧ newline ≠ 44 ∧ newline ≠ 58 ∧ newline ≠ 125 ∧ newline ≠ quote := by decide
  simp only [mem_append, not_or] at hplain
  simp [write, lead, hplain, hescape, hmarks]

theorem getLast_write : (keys.write values).getLast? = some 125 := by
  simp [write, List.getLast?_cons]

end Keys
end Wire
