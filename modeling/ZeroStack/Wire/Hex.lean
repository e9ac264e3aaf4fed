import Mathlib.Data.List.Basic

/-! Bytes as pairs of lowercase hexadecimal digits. -/

namespace Wire

def hexChar (n : ℕ) : Char :=
  ['0', '1', '2', '3', '4', '5', '6', '7', '8', '9', 'a', 'b', 'c', 'd', 'e', 'f'].getD n '0'

def hexChars (bytes : List UInt8) : List Char :=
  bytes.flatMap fun b => [hexChar (b.toNat / 16), hexChar (b.toNat % 16)]

def hexCharValue (c : Char) : Option ℕ :=
  if '0' ≤ c ∧ c ≤ '9' then some (c.toNat - 48) else if 'a' ≤ c ∧ c ≤ 'f' then some (c.toNat - 87) else none

def unhex : List Char → Option (List UInt8)
  | [] => some []
  | [_] => none
  | high :: low :: text => do
    let h ← hexCharValue high
    let l ← hexCharValue low
    let rest ← unhex text
    return UInt8.ofNat (16 * h + l) :: rest

theorem hexCharValue_hexChar {n : ℕ} (h : n < 16) : hexCharValue (hexChar n) = some n := by
  have hall : ∀ n : Fin 16, hexCharValue (hexChar n) = some n.val := by decide
  exact hall ⟨n, h⟩

theorem unhex_hexChars (bytes : List UInt8) : unhex (hexChars bytes) = some bytes := by
  induction bytes with
  | nil => rfl
  | cons b bytes ih =>
    have hb : b.toNat < 256 := b.toNat_lt
    have hhigh : hexCharValue (hexChar (b.toNat / 16)) = some (b.toNat / 16) := hexCharValue_hexChar (by omega)
    have hlow : hexCharValue (hexChar (b.toNat % 16)) = some (b.toNat % 16) := hexCharValue_hexChar (by omega)
    have hbyte : UInt8.ofNat (16 * (b.toNat / 16) + b.toNat % 16) = b := by
      rw [Nat.div_add_mod, UInt8.ofNat_toNat]
    show unhex (hexChar (b.toNat / 16) :: hexChar (b.toNat % 16) :: hexChars bytes) = some (b :: bytes)
    rw [unhex, hhigh, hlow, ih]
    exact congrArg (fun b => some (b :: bytes)) hbyte

theorem hexPairs_injective {α : Type} {digit : ℕ → α} (h : ∀ m n : Fin 16, digit m = digit n → m = n) :
    Function.Injective fun bytes : List UInt8 =>
      bytes.flatMap fun b => [digit (b.toNat / 16), digit (b.toNat % 16)] := by
  intro a b hab
  induction a generalizing b with
  | nil =>
    cases b with
    | nil => rfl
    | cons y b => cases hab
  | cons x a ih =>
    cases b with
    | nil => cases hab
    | cons y b =>
      simp only [List.flatMap_cons, List.cons_append, List.cons.injEq] at hab
      obtain ⟨hhigh, hlow, hrest⟩ := hab
      have hx := x.toNat_lt
      have hy := y.toNat_lt
      have hdiv := Fin.mk.inj (h ⟨x.toNat / 16, by omega⟩ ⟨y.toNat / 16, by omega⟩ hhigh)
      have hmod := Fin.mk.inj (h ⟨x.toNat % 16, by omega⟩ ⟨y.toNat % 16, by omega⟩ hlow)
      have hxy : x = y := UInt8.toNat_inj.mp (by omega)
      rw [hxy, ih hrest]

end Wire
