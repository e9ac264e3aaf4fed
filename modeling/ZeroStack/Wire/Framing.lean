import ZeroStack.Wire.Words

/-! Logs of self-delimiting frames. A frame says where it ends, and no proper beginning of a frame
parses, so a scan returns what was written up to the first torn frame. -/

namespace Wire

open List

structure Framing (α : Type) where
  encode : α → List UInt8
  parse : List UInt8 → Option (α × List UInt8)
  Valid : α → Prop
  encode_ne_nil : ∀ a, encode a ≠ []
  parse_encode : ∀ {a}, Valid a → ∀ rest, parse (encode a ++ rest) = some (a, rest)
  parse_torn : ∀ {a}, Valid a → ∀ {p}, p <+: encode a → p ≠ encode a → parse p = none

namespace Framing
variable {α : Type} (F : Framing α)

def encodeAll (as : List α) : List UInt8 := as.flatMap F.encode

def scan : ℕ → List UInt8 → List α × Bool
  | 0, bytes => ([], !bytes.isEmpty)
  | fuel + 1, bytes =>
    if bytes.isEmpty then ([], false)
    else match F.parse bytes with
      | none => ([], true)
      | some (a, rest) => (a :: (scan fuel rest).1, (scan fuel rest).2)

def Torn (tail : List UInt8) : Prop := tail = [] ∨ ∃ a, F.Valid a ∧ tail <+: F.encode a ∧ tail ≠ F.encode a

variable {F}

theorem torn_take {a : α} (ha : F.Valid a) {n : ℕ} (hn : n < (F.encode a).length) : F.Torn ((F.encode a).take n) := by
  refine .inr ⟨a, ha, take_prefix .., fun h => ?_⟩
  have hlength := congrArg List.length h
  rw [length_take] at hlength
  omega

theorem encodeAll_append (as bs : List α) : F.encodeAll (as ++ bs) = F.encodeAll as ++ F.encodeAll bs :=
  flatMap_append

theorem encodeAll_singleton (a : α) : F.encodeAll [a] = F.encode a := by simp [encodeAll]

theorem length_le_encodeAll (as : List α) : as.length ≤ (F.encodeAll as).length := by
  induction as with
  | nil => exact Nat.zero_le _
  | cons a as ih =>
    have hpos := length_pos_iff.mpr (F.encode_ne_nil a)
    rw [← singleton_append, encodeAll_append, encodeAll_singleton, length_append, length_append,
      length_singleton]
    omega

theorem scan_torn {tail : List UInt8} (h : F.Torn tail) {fuel : ℕ} (hfuel : tail.length ≤ fuel) :
    F.scan fuel tail = ([], !tail.isEmpty) := by
  cases fuel with
  | zero => rfl
  | succ fuel =>
    rcases h with rfl | ⟨a, ha, hbegin, hne⟩
    · rfl
    · rw [scan, F.parse_torn ha hbegin hne]
      cases tail <;> rfl

theorem scan_encodeAll {as : List α} (has : ∀ a ∈ as, F.Valid a) {tail : List UInt8} (htail : F.Torn tail)
    {fuel : ℕ} (hfuel : as.length + tail.length ≤ fuel) :
    F.scan fuel (F.encodeAll as ++ tail) = (as, !tail.isEmpty) := by
  induction as generalizing fuel with
  | nil => exact scan_torn htail (by simpa using hfuel)
  | cons a as ih =>
    rw [forall_mem_cons] at has
    rw [length_cons] at hfuel
    cases fuel with
    | zero => omega
    | succ fuel =>
      have hbytes : F.encodeAll (a :: as) ++ tail = F.encode a ++ (F.encodeAll as ++ tail) := by
        rw [← singleton_append, encodeAll_append, encodeAll_singleton, append_assoc]
      have hnonempty : (F.encode a ++ (F.encodeAll as ++ tail)).isEmpty = false := by
        simp [F.encode_ne_nil]
      have hrest : F.scan fuel (F.encodeAll as ++ tail) = (as, !tail.isEmpty) := ih has.2 (by omega)
      rw [hbytes, scan, hnonempty, F.parse_encode has.1]
      simp only [Bool.false_eq_true, if_false, hrest]

end Framing
end Wire
