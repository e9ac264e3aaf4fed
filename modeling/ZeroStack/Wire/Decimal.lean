import Mathlib.Data.List.DropRight
import Mathlib.Tactic.IntervalCases

/-! Bounded numbers as decimal text. -/

namespace Wire

open List

inductive ParseIntError where
  | empty
  | invalidDigit
  | posOverflow
  deriving DecidableEq

def ParseIntError.display : ParseIntError → String
  | .empty => "cannot parse integer from empty string"
  | .invalidDigit => "invalid digit found in string"
  | .posOverflow => "number too large to fit in target type"

def readDigits (bound : ℕ) : ℕ → List Char → Except ParseIntError ℕ
  | n, [] => .ok n
  | n, c :: text =>
    if !c.isDigit then .error .invalidDigit
    else if bound ≤ 10 * n + (c.toNat - 48) then .error .posOverflow
    else readDigits bound (10 * n + (c.toNat - 48)) text

def readDecimal (bound : ℕ) : List Char → Except ParseIntError ℕ
  | [] => .error .empty
  | ['+'] => .error .invalidDigit
  | '+' :: text => readDigits bound 0 text
  | text => readDigits bound 0 text

def isSpace (c : Char) : Bool :=
  let n := c.toNat
  (9 ≤ n ∧ n ≤ 13) ∨ n ∈ [0x20, 0x85, 0xA0, 0x1680, 0x2028, 0x2029, 0x202F, 0x205F, 0x3000] ∨ (0x2000 ≤ n ∧ n ≤ 0x200A)

def trim (text : List Char) : List Char := (text.dropWhile isSpace).rdropWhile isSpace

def decimal (n : ℕ) : List Char := Nat.toDigits 10 n

theorem decimal_ne_nil (n : ℕ) : decimal n ≠ [] := Nat.toDigits_ne_nil

theorem isDigit_of_mem_decimal {n : ℕ} {c : Char} (h : c ∈ decimal n) : c.isDigit = true :=
  Nat.isDigit_of_mem_toDigits (by decide) le_rfl h

theorem le_ofDigitChars (s : List Char) (n : ℕ) : n ≤ Nat.ofDigitChars 10 s n := by
  rw [Nat.ofDigitChars_eq_ofDigitChars_zero]
  have hpow : 1 ≤ 10 ^ s.length := Nat.one_le_pow _ _ (by decide)
  have hmul : 1 * n ≤ 10 ^ s.length * n := Nat.mul_le_mul_right n hpow
  omega

theorem readDigits_eq_ok_iff {bound n m : ℕ} {s : List Char} (hn : n < bound) : readDigits bound n s = .ok m ↔
      (∀ c ∈ s, c.isDigit = true) ∧ Nat.ofDigitChars 10 s n = m ∧ m < bound := by
  induction s generalizing n with
  | nil =>
    rw [readDigits, Except.ok.injEq]
    constructor
    · rintro rfl
      exact ⟨by simp, rfl, hn⟩
    · exact fun h => h.2.1
  | cons c s ih =>
    have hvalue : Nat.ofDigitChars 10 (c :: s) n = Nat.ofDigitChars 10 s (10 * n + (c.toNat - 48)) :=
      Nat.ofDigitChars_cons
    rw [readDigits, forall_mem_cons]
    cases hdigit : c.isDigit with
    | false => simp
    | true =>
      by_cases hlarge : bound ≤ 10 * n + (c.toNat - 48)
      · have hgrows := le_ofDigitChars s (10 * n + (c.toNat - 48))
        simp only [if_pos hlarge]
        constructor
        · intro h
          cases h
        · rintro ⟨-, hm, hbound⟩
          omega
      · simp only [if_neg hlarge, true_and]
        exact ih (by omega)

theorem readDigits_decimal {bound n : ℕ} (h : n < bound) : readDigits bound 0 (decimal n) = .ok n := by
  refine (readDigits_eq_ok_iff (Nat.zero_lt_of_lt h)).mpr ⟨fun c hc => isDigit_of_mem_decimal hc, ?_, h⟩
  exact Nat.ofDigitChars_ten_toDigits

theorem readDecimal_of_digits {bound : ℕ} {text : List Char} (hne : text ≠ []) (h : ∀ c ∈ text, c.isDigit = true) :
    readDecimal bound text = readDigits bound 0 text := by
  cases text with
  | nil => exact absurd rfl hne
  | cons c text =>
    unfold readDecimal
    split
    · contradiction
    · simp_all
    · simp_all
    · rfl

theorem not_isSpace_of_isDigit {c : Char} (h : c.isDigit = true) : ¬ isSpace c = true := by
  simp only [Char.isDigit, Bool.and_eq_true, decide_eq_true_eq] at h
  have hlow : 48 ≤ c.toNat := h.1
  have hhigh : c.toNat ≤ 57 := h.2
  simp only [isSpace, decide_eq_true_eq, mem_cons, not_mem_nil, or_false]
  omega

theorem trim_of_digits {text : List Char} (h : ∀ c ∈ text, c.isDigit = true) : trim text = text := by
  have hnone : ∀ c ∈ text, ¬ isSpace c = true := fun c hc => not_isSpace_of_isDigit (h c hc)
  have hleft : text.dropWhile isSpace = text := by
    cases text with
    | nil => rfl
    | cons c text => exact dropWhile_cons_of_neg (hnone c mem_cons_self)
  rw [trim, hleft]
  refine rdropWhile_eq_self_iff.mpr fun hne => ?_
  exact hnone _ (getLast_mem hne)

theorem readDecimal_trim_decimal {bound n : ℕ} (h : n < bound) : readDecimal bound (trim (decimal n)) = .ok n := by
  have hdigits : ∀ c ∈ decimal n, c.isDigit = true := fun c hc => isDigit_of_mem_decimal hc
  rw [trim_of_digits hdigits, readDecimal_of_digits (decimal_ne_nil n) hdigits, readDigits_decimal h]

theorem digitChar_sub_of_isDigit {c : Char} (h : c.isDigit = true) :
    c.toNat - 48 < 10 ∧ Nat.digitChar (c.toNat - 48) = c := by
  simp only [Char.isDigit, Bool.and_eq_true, decide_eq_true_eq] at h
  have hlow : 48 ≤ c.toNat := h.1
  have hhigh : c.toNat ≤ 57 := h.2
  have hlt : c.toNat - 48 < 10 := by omega
  refine ⟨hlt, Char.toNat_inj.mp ?_⟩
  rw [Nat.toNat_digitChar_of_lt_ten hlt]
  omega

theorem decimal_append_digits {n : ℕ} {s : List Char} (hn : 0 < n) (h : ∀ c ∈ s, c.isDigit = true) :
    decimal n ++ s = decimal (Nat.ofDigitChars 10 s n) := by
  induction s generalizing n with
  | nil => rw [append_nil, Nat.ofDigitChars_nil]
  | cons c s ih =>
    obtain ⟨hc, hs⟩ := forall_mem_cons.mp h
    obtain ⟨hlt, hchar⟩ := digitChar_sub_of_isDigit hc
    have hone : decimal n ++ [c] = decimal (10 * n + (c.toNat - 48)) := by
      have hjoin := Nat.toDigits_append_toDigits (by decide) hn hlt
      rwa [Nat.toDigits_of_lt_base hlt, hchar] at hjoin
    calc decimal n ++ c :: s = (decimal n ++ [c]) ++ s := by simp
      _ = decimal (10 * n + (c.toNat - 48)) ++ s := by rw [hone]
      _ = decimal (Nat.ofDigitChars 10 s (10 * n + (c.toNat - 48))) := ih (by omega) hs
      _ = decimal (Nat.ofDigitChars 10 (c :: s) n) := by rw [Nat.ofDigitChars_cons]; rfl

def LeadingZeroFree (s : List Char) : Prop := s = ['0'] ∨ s.head? ≠ some '0'

theorem decimal_ofDigitChars {s : List Char} (hne : s ≠ []) (h : ∀ c ∈ s, c.isDigit = true)
    (hfree : LeadingZeroFree s) : decimal (Nat.ofDigitChars 10 s 0) = s := by
  rcases hfree with rfl | hhead
  · rfl
  · cases s with
    | nil => exact absurd rfl hne
    | cons c s =>
      obtain ⟨hc, hs⟩ := forall_mem_cons.mp h
      obtain ⟨hlt, hchar⟩ := digitChar_sub_of_isDigit hc
      have hpos : 0 < c.toNat - 48 := by
        refine Nat.pos_of_ne_zero fun hzero => hhead ?_
        rw [hzero] at hchar
        rw [← hchar]
        rfl
      have hvalue : Nat.ofDigitChars 10 (c :: s) 0 = Nat.ofDigitChars 10 s (c.toNat - 48) := by
        rw [Nat.ofDigitChars_cons, Nat.zero_add]
        rfl
      have hdigit : decimal (c.toNat - 48) = [c] := by
        rw [decimal, Nat.toDigits_of_lt_base hlt, hchar]
      rw [hvalue, ← decimal_append_digits hpos hs, hdigit, singleton_append]

end Wire
