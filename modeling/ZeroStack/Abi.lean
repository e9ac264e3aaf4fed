import ZeroStack.Wire.CanonicalJson
import ZeroStack.Wire.Reader

/-! The identities that all parts of the store share, and how they are written: a digest as text, or as the array of its
bytes. -/

open Wire

namespace Zero

abbrev Sha256Digest := BitVec 256

def Sha256Digest.zero : Sha256Digest := 0

instance : LawfulBEq Sha256Digest := inferInstance

inductive DurableProfileId where
  | portableStrict
  | apfsStrict
  | ext4XfsStrict
  | ntfsStrict
  deriving DecidableEq

inductive EffectClass where
  | readOnly
  | reversibleMutation
  | approvalRequiredMutation
  | irreversible
  deriving DecidableEq

def digestBytes (d : Sha256Digest) : List UInt8 := beBytes 32 d.toNat

theorem digestBytes_inj : Function.Injective digestBytes := by
  intro d e h
  have hlimit : ∀ d : Sha256Digest, d.toNat < 256 ^ 32 := fun d => d.isLt
  exact BitVec.eq_of_toNat_eq (beBytes_inj (hlimit d) (hlimit e) h)

@[simp] theorem length_digestBytes (d : Sha256Digest) : (digestBytes d).length = 32 := by simp [digestBytes]

def Sha256Digest.json (d : Sha256Digest) : Json := .hex (digestBytes d)

theorem Sha256Digest.json_inj : Function.Injective Sha256Digest.json := Json.hex_inj.comp digestBytes_inj

end Zero
