import ZeroStack.Zbf.Format

/-! The decoder of the Zero Binary Format. -/

open Wire

namespace Zero.Zbf

abbrev ZbfReader := Reader ZbfError

namespace Cursor

def take (len : ℕ) : ZbfReader (List UInt8) := Reader.take .lengthOverflow .unexpectedEof len
def u8 : ZbfReader UInt8 := UInt8.ofNat <$> Reader.beWord .lengthOverflow .unexpectedEof 1
def u16 : ZbfReader UInt16 := UInt16.ofNat <$> Reader.beWord .lengthOverflow .unexpectedEof 2
def u32 : ZbfReader ℕ := Reader.beWord .lengthOverflow .unexpectedEof 4
def u64 : ZbfReader UInt64 := UInt64.ofNat <$> Reader.beWord .lengthOverflow .unexpectedEof 8
def digest : ZbfReader Sha256Digest :=
  BitVec.ofNat 256 <$> Reader.beWord .lengthOverflow .unexpectedEof 32

def magic : ZbfReader Unit :=
  Reader.check .lengthOverflow .unexpectedEof .badMagic 8 fun bytes => bytes = zbfMagic

def kind : ZbfReader ZbfArtifactKind := u16.decode ZbfArtifactKind.fromU16 .invalidKind

def owner : ZbfReader ArtifactOwner := u8.decode ownerFromU8 .invalidOwner

def reserved : ZbfReader Unit :=
  Reader.check .lengthOverflow .unexpectedEof .reservedNonZero 8 fun bytes => !bytes.any (· ≠ 0)

end Cursor

def headerFields : ZbfReader ZbfHeader := do
  Cursor.magic
  let schemaMajor ← Cursor.u16
  let schemaMinor ← Cursor.u16
  let kind ← Cursor.kind
  let owner ← Cursor.owner
  let flags ← Cursor.u8
  let payloadLen ← Cursor.u64
  let assemblyManifestDigest ← Cursor.digest
  let durableProfileDigest ← Cursor.digest
  let sourceRootDigest ← Cursor.digest
  let producerContractDigest ← Cursor.digest
  let payloadDigest ← Cursor.digest
  Cursor.reserved
  pure ⟨schemaMajor, schemaMinor, kind, owner, flags, payloadLen, assemblyManifestDigest,
    durableProfileDigest, sourceRootDigest, producerContractDigest, payloadDigest⟩

def readAll {α : Type} (p : ZbfReader α) (bytes : List UInt8) : Except ZbfError α :=
  match p.run (Wire.Cursor.new bytes) with
  | .error e => .error e
  | .ok (a, c) => if c.rest.length ≠ 0 then .error .trailingBytes else .ok a

def decodeHeader (bytes : List UInt8) : Except ZbfError ZbfHeader := readAll headerFields bytes

section Decode
variable (sha256 : List UInt8 → Sha256Digest) (profile : DurableProfile) (expected : Sha256Digest)

def childReader (decode : List UInt8 → Except ZbfError ZbfObject) : ZbfReader ZbfObject := do
  let childLen ← Cursor.u64
  if childLen.toNat < zbfHeaderLen then throw .containerMalformed
  else do
    let childBytes ← Cursor.take childLen.toNat
    liftM (decode childBytes)

def childrenReader (room : ℕ) (decode : List UInt8 → Except ZbfError ZbfObject) : ZbfReader (List ZbfObject) := do
  let count ← Cursor.u32
  if profile.maxChildren < count then throw (.tooManyChildren count profile.maxChildren)
  else do
    liftM (requireDepth profile room)
    (childReader decode).times count

def decodeChildren (room : ℕ) (decode : List UInt8 → Except ZbfError ZbfObject)
    (payload : List UInt8) : Except ZbfError (List ZbfObject) :=
  readAll (childrenReader profile room decode) payload

def openPayload (room : ℕ) (decode : List UInt8 → Except ZbfError ZbfObject) (header : ZbfHeader)
    (payload : List UInt8) : Except ZbfError ZbfObject :=
  if payload.length < header.payloadLen.toNat then .error .unexpectedEof
  else if header.payloadLen.toNat < payload.length then .error .trailingBytes
  else if sha256 payload ≠ header.payloadDigest then
    .error (.digestMismatch header.payloadDigest (sha256 payload))
  else if header.flags = zbfContainerFlag then do
    let children ← decodeChildren profile room decode payload
    .ok (.container header children)
  else .ok (.leaf header payload)

def decodeObject : ℕ → List UInt8 → Except ZbfError ZbfObject
  | 0, _ => .error (.depthExceeded (profile.maxDepth + 1) profile.maxDepth)
  | room + 1, bytes =>
    if profile.maxObjectBytes < bytes.length then
      .error (.objectTooLarge bytes.length profile.maxObjectBytes)
    else if bytes.length < zbfHeaderLen then .error .unexpectedEof
    else do
      let header ← decodeHeader (bytes.take zbfHeaderLen)
      validateHeaderContract sha256 profile header
      if header.assemblyManifestDigest ≠ expected then
        .error (.assemblyMismatch expected header.assemblyManifestDigest)
      else if profile.maxPayloadBytes < header.payloadLen.toNat then
        .error (.payloadTooLarge header.payloadLen.toNat profile.maxPayloadBytes)
      else openPayload sha256 profile room (decodeObject room) header (bytes.drop zbfHeaderLen)

def fromBytes (bytes : List UInt8) : Except ZbfError ZbfObject :=
  decodeObject sha256 profile expected (profile.maxDepth + 1) bytes

end Decode

section Header

theorem Cursor.exact_u8 : Cursor.u8.Exact (fun _ => True) (fun b => [b]) := by
  have hword : ∀ b, [b] = beBytes 1 b.toNat := by
    simp [beBytes]
  simp only [hword]
  exact (Reader.exact_beWord ZbfError.lengthOverflow .unexpectedEof 1).map
    (fun b _ => ⟨b.toNat_lt, UInt8.ofNat_toNat⟩) fun _ hn => ⟨trivial, UInt8.toNat_ofNat_of_lt' hn⟩

theorem Cursor.exact_u16 : Cursor.u16.Exact (fun _ => True) (fun n => beBytes 2 n.toNat) :=
  (Reader.exact_beWord ZbfError.lengthOverflow .unexpectedEof 2).map
    (fun n _ => ⟨n.toNat_lt, UInt16.ofNat_toNat⟩) fun _ hn => ⟨trivial, UInt16.toNat_ofNat_of_lt' hn⟩

theorem Cursor.exact_u64 : Cursor.u64.Exact (fun _ => True) (fun n => beBytes 8 n.toNat) :=
  (Reader.exact_beWord ZbfError.lengthOverflow .unexpectedEof 8).map
    (fun n _ => ⟨n.toNat_lt, UInt64.ofNat_toNat⟩) fun _ hn => ⟨trivial, UInt64.toNat_ofNat_of_lt' hn⟩

theorem Cursor.exact_digest : Cursor.digest.Exact (fun _ => True) digestBytes := by
  have hbound : 256 ^ 32 = 2 ^ 256 := by norm_num
  refine (Reader.exact_beWord ZbfError.lengthOverflow .unexpectedEof 32).map (fun d _ => ⟨?_, ?_⟩)
    fun n hn => ⟨trivial, ?_⟩
  · exact d.isLt
  · exact BitVec.eq_of_toNat_eq (by rw [BitVec.toNat_ofNat, Nat.mod_eq_of_lt d.isLt])
  · rw [hbound] at hn
    rw [BitVec.toNat_ofNat, Nat.mod_eq_of_lt hn]

theorem Cursor.exact_magic : Cursor.magic.Exact (fun _ => True) (fun _ => zbfMagic) :=
  Reader.exact_check _ _ ZbfError.badMagic zbfMagic fun bs _ => by simp

theorem Cursor.exact_kind : Cursor.kind.Exact (fun _ => True) (fun kind => beBytes 2 kind.toU16.toNat) :=
  Cursor.exact_u16.decode (fun _ _ => fromU16_eq_some) .invalidKind

theorem Cursor.exact_owner : Cursor.owner.Exact (fun _ => True) (fun owner => [ownerToU8 owner]) :=
  Cursor.exact_u8.decode (fun _ _ => ownerFromU8_eq_some) .invalidOwner

theorem Cursor.exact_reserved : Cursor.reserved.Exact (fun _ => True) (fun _ => List.replicate 8 0) := by
  have hzero : ∀ bs : List UInt8, bs.length = (List.replicate 8 (0 : UInt8)).length →
      ((!bs.any (· ≠ 0)) = true ↔ bs = List.replicate 8 0) := by
    intro bs hlen
    rw [List.eq_replicate_iff]
    simpa using fun _ => hlen
  exact Reader.exact_check _ _ ZbfError.reservedNonZero _ hzero

theorem exact_headerFields : headerFields.Exact (fun _ => True) encodeHeader := by
  refine .after Cursor.exact_magic ?_
  refine .bind Cursor.exact_u16 ZbfHeader.schemaMajor fun schemaMajor => ?_
  refine .bind Cursor.exact_u16 ZbfHeader.schemaMinor fun schemaMinor => ?_
  refine .bind Cursor.exact_kind ZbfHeader.kind fun kind => ?_
  refine .bind Cursor.exact_owner ZbfHeader.owner fun owner => ?_
  refine .bind Cursor.exact_u8 ZbfHeader.flags fun flags => ?_
  refine .bind Cursor.exact_u64 ZbfHeader.payloadLen fun payloadLen => ?_
  refine .bind Cursor.exact_digest ZbfHeader.assemblyManifestDigest fun assembly => ?_
  refine .bind Cursor.exact_digest ZbfHeader.durableProfileDigest fun durable => ?_
  refine .bind Cursor.exact_digest ZbfHeader.sourceRootDigest fun sourceRoot => ?_
  refine .bind Cursor.exact_digest ZbfHeader.producerContractDigest fun producer => ?_
  refine .bind Cursor.exact_digest ZbfHeader.payloadDigest fun payload => ?_
  -- every field of the header is known by now
  refine Cursor.exact_reserved.close fun header => ⟨?_, ?_⟩
  · rintro ⟨⟨⟨⟨⟨⟨⟨⟨⟨⟨⟨-, rfl⟩, rfl⟩, rfl⟩, rfl⟩, rfl⟩, rfl⟩, rfl⟩, rfl⟩, rfl⟩, rfl⟩, rfl⟩
    rfl
  · rintro rfl
    exact ⟨⟨⟨⟨⟨⟨⟨⟨⟨⟨⟨trivial, rfl⟩, rfl⟩, rfl⟩, rfl⟩, rfl⟩, rfl⟩, rfl⟩, rfl⟩, rfl⟩, rfl⟩, rfl⟩

theorem readAll_eq_ok {α : Type} {p : ZbfReader α} {P : α → Prop} {e : α → List UInt8} (hp : p.Exact P e)
    {bytes : List UInt8} (hb : bytes.length < 2 ^ 64) {a : α} : readAll p bytes = .ok a ↔ P a ∧ bytes = e a := by
  have hc : (Wire.Cursor.new bytes).Bounded := by simpa [Wire.Cursor.Bounded, Wire.Cursor.new] using hb
  have hiff : readAll p bytes = .ok a ↔ ∃ c, p.run (Wire.Cursor.new bytes) = .ok (a, c) ∧ c.rest = [] := by
    unfold readAll
    cases p.run (Wire.Cursor.new bytes) with
    | error e => simp
    | ok x =>
      obtain ⟨a', c⟩ := x
      by_cases hrest : c.rest = []
      · simp [hrest]
      · simp [hrest]
  rw [hiff]
  simp only [hp _ hc, and_assoc, exists_and_left]
  rw [Wire.Cursor.splits_new]

theorem decodeHeader_eq_ok {bytes : List UInt8} (hb : bytes.length < 2 ^ 64) {header : ZbfHeader} :
    decodeHeader bytes = .ok header ↔ bytes = encodeHeader header := by
  rw [decodeHeader, readAll_eq_ok exact_headerFields hb, true_and]

end Header
end Zero.Zbf
