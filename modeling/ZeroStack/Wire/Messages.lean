import ZeroStack.Wire.Words

/-! Messages put together from parts that say where they end, so that a message determines its parts. -/

namespace Wire

open List

variable {α : Type*} {f : α → List UInt8}

def Delimited (f : α → List UInt8) : Prop :=
  ∀ ⦃a b : α⦄ ⦃r s : List UInt8⦄, f a ++ r = f b ++ s → a = b ∧ r = s

theorem Delimited.append_inj (hf : Delimited f) {a b : α} {r s : List UInt8} : f a ++ r = f b ++ s ↔ a = b ∧ r = s := by
  constructor
  · exact fun h => hf h
  · rintro ⟨rfl, rfl⟩
    rfl

theorem Delimited.injective (hf : Delimited f) : Function.Injective f := by
  intro a b h
  have hends : f a ++ [] = f b ++ [] := by rw [h]
  exact (hf hends).1

theorem delimited_of_length {w : ℕ} (hlength : ∀ a, (f a).length = w) (hinj : Function.Injective f) : Delimited f := by
  intro a b r s h
  have hsame : (f a).length = (f b).length := by rw [hlength, hlength]
  obtain ⟨hhead, hrest⟩ := append_inj h hsame
  exact ⟨hinj hhead, hrest⟩

def optionBytes (f : α → List UInt8) : Option α → List UInt8
  | none => [0]
  | some a => 1 :: f a

theorem Delimited.optionBytes (hf : Delimited f) : Delimited (optionBytes f) := by
  intro a b r s h
  cases a with
  | none =>
    cases b with
    | none => exact ⟨rfl, (List.cons.inj h).2⟩
    | some b => exact absurd (List.cons.inj h).1 (by decide)
  | some a =>
    cases b with
    | none => exact absurd (List.cons.inj h).1 (by decide)
    | some b =>
      obtain ⟨rfl, hrest⟩ := hf (List.cons.inj h).2
      exact ⟨rfl, hrest⟩

theorem flatMap_append_inj {xs ys : List α} {r s : List UInt8}
    (hf : ∀ a ∈ xs, ∀ b ∈ ys, ∀ r s, f a ++ r = f b ++ s → a = b ∧ r = s) (hlength : xs.length = ys.length)
    (h : xs.flatMap f ++ r = ys.flatMap f ++ s) : xs = ys ∧ r = s := by
  induction xs generalizing ys with
  | nil =>
    cases ys with
    | nil => exact ⟨rfl, h⟩
    | cons y ys => cases hlength
  | cons x xs ih =>
    cases ys with
    | nil => cases hlength
    | cons y ys =>
      simp only [flatMap_cons, append_assoc] at h
      obtain ⟨rfl, htail⟩ := hf x mem_cons_self y mem_cons_self _ _ h
      obtain ⟨rfl, hrest⟩ := ih (fun a ha b hb => hf a (mem_cons_of_mem _ ha) b (mem_cons_of_mem _ hb))
        (Nat.succ.inj hlength) htail
      exact ⟨rfl, hrest⟩

def u16Bytes (n : UInt16) : List UInt8 := beBytes 2 n.toNat

def u32Bytes (n : UInt32) : List UInt8 := beBytes 4 n.toNat

def u64Bytes (n : UInt64) : List UInt8 := beBytes 8 n.toNat

def boundedBytes (bytes : List UInt8) : List UInt8 := beBytes 8 bytes.length ++ bytes

theorem delimited_beBytes {w : ℕ} {toNat : α → ℕ} (hfits : ∀ a, toNat a < 256 ^ w) (hinj : Function.Injective toNat) :
    Delimited fun a => beBytes w (toNat a) := by
  have hwords : Function.Injective fun a => beBytes w (toNat a) :=
    fun a b h => hinj (beBytes_inj (hfits a) (hfits b) h)
  exact delimited_of_length (fun a => length_beBytes w (toNat a)) hwords

theorem delimited_u16Bytes : Delimited u16Bytes :=
  delimited_beBytes (fun n => n.toNat_lt.trans_eq (by norm_num)) fun _ _ h => UInt16.toNat_inj.mp h

theorem delimited_u32Bytes : Delimited u32Bytes :=
  delimited_beBytes (fun n => n.toNat_lt.trans_eq (by norm_num)) fun _ _ h => UInt32.toNat_inj.mp h

theorem delimited_u64Bytes : Delimited u64Bytes :=
  delimited_beBytes (fun n => n.toNat_lt.trans_eq (by norm_num)) fun _ _ h => UInt64.toNat_inj.mp h

theorem boundedBytes_append_inj {a b r s : List UInt8} (ha : a.length < 2 ^ 64) (hb : b.length < 2 ^ 64) :
    boundedBytes a ++ r = boundedBytes b ++ s ↔ a = b ∧ r = s := by
  constructor
  · intro h
    have hwidth : (256 : ℕ) ^ 8 = 2 ^ 64 := by norm_num
    exact delimited_inj (hwidth ▸ ha) (hwidth ▸ hb) h
  · rintro ⟨rfl, rfl⟩
    rfl

end Wire
