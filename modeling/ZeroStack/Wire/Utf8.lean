import Mathlib.Data.List.Basic

/-! Texts and the bytes that encode them. -/

namespace Wire

def utf8Bytes (s : String) : List UInt8 := s.toByteArray.data.toList

theorem utf8Bytes_inj {s t : String} (h : utf8Bytes s = utf8Bytes t) : s = t := by
  apply String.toByteArray_inj.mp
  exact ByteArray.ext (Array.ext' h)

def fromUtf8 (bytes : List UInt8) : Option String := String.fromUTF8? ⟨bytes.toArray⟩

@[simp]
theorem fromUtf8_utf8Bytes (s : String) : fromUtf8 (utf8Bytes s) = some s := by
  have hbytes : (⟨(utf8Bytes s).toArray⟩) = s.toByteArray := by
    rw [utf8Bytes]
  rw [fromUtf8, hbytes, String.fromUTF8?, dif_pos s.isValidUTF8]
  rfl

theorem utf8Bytes_of_fromUtf8 {bytes : List UInt8} {s : String} (h : fromUtf8 bytes = some s) :
    utf8Bytes s = bytes := by
  rw [fromUtf8, String.fromUTF8?] at h
  split_ifs at h with hvalid
  cases h
  rfl

theorem utf8Bytes_ofList (l : List Char) : utf8Bytes (String.ofList l) = l.flatMap String.utf8EncodeChar := by
  rw [utf8Bytes, String.toByteArray_ofList, List.utf8Encode]
  simp

theorem utf8Bytes_eq_flatMap (s : String) : utf8Bytes s = s.toList.flatMap String.utf8EncodeChar := by
  rw [← utf8Bytes_ofList, String.ofList_toList]

theorem mem_utf8EncodeChar {c : Char} {b : UInt8} (h : b ∈ String.utf8EncodeChar c) (hb : b.toNat < 128) :
    c.toNat = b.toNat := by
  have hval : c.val.toNat = c.toNat := rfl
  have hcode : ∀ n, b = UInt8.ofNat n → n % 256 = b.toNat := by
    rintro n rfl
    rw [UInt8.toNat_ofNat']
  simp only [String.utf8EncodeChar] at h
  split_ifs at h with hone htwo hthree <;> simp only [List.mem_cons, List.not_mem_nil, or_false] at h
  · have hbyte := hcode _ h
    omega
  -- each byte of a longer code is at least 128
  · rcases h with h | h
    all_goals
      have hbyte := hcode _ h
      omega
  · rcases h with h | h | h
    all_goals
      have hbyte := hcode _ h
      omega
  · rcases h with h | h | h | h
    all_goals
      have hbyte := hcode _ h
      omega

end Wire
