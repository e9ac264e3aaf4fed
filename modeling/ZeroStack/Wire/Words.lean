import Mathlib.Data.List.Induction
import Mathlib.Tactic.Ring

/-! Words of a fixed number of bytes, and fields of a buffer at fixed offsets. -/

namespace Wire

open List

def beBytes : ℕ → ℕ → List UInt8
  | 0, _ => []
  | w + 1, n => beBytes w (n / 256) ++ [UInt8.ofNat n]

variable (bs : List UInt8)

def ofBe : ℕ := bs.foldl (fun n b => n * 256 + b.toNat) 0

def leBytes (w n : ℕ) : List UInt8 := (beBytes w n).reverse

def ofLe : ℕ := ofBe bs.reverse

@[simp] theorem length_beBytes (w n : ℕ) : (beBytes w n).length = w := by
  induction w generalizing n with
  | zero => rfl
  | succ w ih => simp [beBytes, ih]

theorem ofBe_append_singleton (b : UInt8) : ofBe (bs ++ [b]) = ofBe bs * 256 + b.toNat := by
  simp [ofBe]

theorem ofBe_beBytes {w n : ℕ} (h : n < 256 ^ w) : ofBe (beBytes w n) = n := by
  induction w generalizing n with
  | zero =>
    have hn : n = 0 := by simpa using h
    rw [hn]
    rfl
  | succ w ih =>
    have hdiv : n / 256 < 256 ^ w := by
      apply Nat.div_lt_of_lt_mul
      rwa [pow_succ, mul_comm] at h
    rw [beBytes, ofBe_append_singleton, ih hdiv, UInt8.toNat_ofNat']
    omega

theorem ofBe_lt : ofBe bs < 256 ^ bs.length := by
  induction bs using List.reverseRecOn with
  | nil => exact Nat.one_pos
  | append_singleton bs b ih =>
    have hb := b.toNat_lt
    rw [ofBe_append_singleton, length_append, length_singleton]
    omega

theorem beBytes_ofBe : beBytes bs.length (ofBe bs) = bs := by
  induction bs using List.reverseRecOn with
  | nil => rfl
  | append_singleton bs b ih =>
    have hb := b.toNat_lt
    have hdiv : (ofBe bs * 256 + b.toNat) / 256 = ofBe bs := by omega
    have hlast : UInt8.ofNat (ofBe bs * 256 + b.toNat) = b := by
      apply UInt8.toNat_inj.mp
      rw [UInt8.toNat_ofNat']
      omega
    rw [length_append, length_singleton, ofBe_append_singleton, beBytes, hdiv, ih, hlast]

theorem beBytes_inj {w m n : ℕ} (hm : m < 256 ^ w) (hn : n < 256 ^ w) (h : beBytes w m = beBytes w n) : m = n := by
  have hword := congrArg ofBe h
  rwa [ofBe_beBytes hm, ofBe_beBytes hn] at hword

theorem delimited_inj {w : ℕ} {a b r s : List UInt8} (ha : a.length < 256 ^ w) (hb : b.length < 256 ^ w)
    (h : (beBytes w a.length ++ a) ++ r = (beBytes w b.length ++ b) ++ s) : a = b ∧ r = s := by
  simp only [append_assoc] at h
  obtain ⟨hword, hrest⟩ := append_inj h (by simp)
  exact append_inj hrest (beBytes_inj ha hb hword)

@[simp] theorem length_leBytes (w n : ℕ) : (leBytes w n).length = w := by simp [leBytes]

theorem ofLe_leBytes {w n : ℕ} (h : n < 256 ^ w) : ofLe (leBytes w n) = n := by
  rw [ofLe, leBytes, reverse_reverse, ofBe_beBytes h]

def slice (bytes : List UInt8) (start stop : ℕ) : List UInt8 := (bytes.drop start).take (stop - start)

theorem slice_append_left {a b : List UInt8} {start stop : ℕ} (h : stop ≤ a.length) :
    slice (a ++ b) start stop = slice a start stop := by
  unfold slice
  rcases Nat.lt_or_ge start a.length with hstart | hstart
  · rw [drop_append_of_le_length hstart.le, take_append_of_le_length]
    rw [length_drop]
    omega
  · have hempty : stop - start = 0 := by omega
    simp [hempty]

theorem slice_skip {a b : List UInt8} {start stop : ℕ} (h : a.length ≤ start) :
    slice (a ++ b) start stop = slice b (start - a.length) (stop - a.length) := by
  rw [slice, slice, drop_append, drop_of_length_le h, nil_append]
  congr 1
  omega

theorem slice_here {m r : List UInt8} {stop : ℕ} (h : m.length = stop) : slice (m ++ r) 0 stop = m :=
  take_left' h

@[simp] theorem take_word (w n : ℕ) (rest : List UInt8) : (beBytes w n ++ rest).take w = beBytes w n :=
  take_left' (length_beBytes w n)

@[simp] theorem drop_word (w n : ℕ) (rest : List UInt8) : (beBytes w n ++ rest).drop w = rest :=
  drop_left' (length_beBytes w n)

theorem word_take {w : ℕ} {bytes : List UInt8} (h : ¬bytes.length < w) :
    ofBe (bytes.take w) < 256 ^ w ∧ beBytes w (ofBe (bytes.take w)) = bytes.take w := by
  have hlength : (bytes.take w).length = w := length_take_of_le (Nat.not_lt.mp h)
  have hbound := ofBe_lt (bytes.take w)
  have hround := beBytes_ofBe (bytes.take w)
  rw [hlength] at hbound hround
  exact ⟨hbound, hround⟩

end Wire
