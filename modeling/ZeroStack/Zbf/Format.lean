import ZeroStack.Abi

/-! The Zero Binary Format: objects, durable profiles and the encoder. A node of an object is a
header of 192 bytes and a payload, which is plain bytes or a table of complete objects. -/

open Wire

namespace Zero.Zbf

def zbfMagic : List UInt8 := [0x5a, 0x45, 0x52, 0x4f, 0x5a, 0x42, 0x46, 0x31]

def zbfSchemaMajor : UInt16 := 1
def zbfSchemaMinor : UInt16 := 0
def zbfHeaderLen : ℕ := 192
def zbfContainerFlag : UInt8 := 0x01
def zbfMaxObjectBytes : ℕ := 16 * 1024 * 1024
def zbfMaxChildren : ℕ := 1024
def zbfMaxDepth : ℕ := 16

def profileIdText : DurableProfileId → String
  | .portableStrict => "portable_strict"
  | .apfsStrict => "apfs_strict"
  | .ext4XfsStrict => "ext4_xfs_strict"
  | .ntfsStrict => "ntfs_strict"

def profileFilesystem : DurableProfileId → String
  | .portableStrict => "portable"
  | .apfsStrict => "apfs"
  | .ext4XfsStrict => "ext4_or_xfs"
  | .ntfsStrict => "ntfs"

structure DurableProfile where
  id : DurableProfileId
  deriving DecidableEq

namespace DurableProfile

def profileVersion (_ : DurableProfile) : ℕ := 1
def maxObjectBytes (_ : DurableProfile) : ℕ := zbfMaxObjectBytes
def maxPayloadBytes (_ : DurableProfile) : ℕ := zbfMaxObjectBytes - zbfHeaderLen
def maxChildren (_ : DurableProfile) : ℕ := zbfMaxChildren
def maxDepth (_ : DurableProfile) : ℕ := zbfMaxDepth

def canonicalBytes (p : DurableProfile) : List UInt8 :=
  let text := s!"\x7b\"atomic_publish\":true,\"filesystem\":\"{profileFilesystem p.id}\",\"hash\":\"sha256\"," ++
    s!"\"max_children\":{p.maxChildren},\"max_depth\":{p.maxDepth},\"max_object_bytes\":{p.maxObjectBytes}," ++
    s!"\"max_payload_bytes\":{p.maxPayloadBytes},\"profile_id\":\"{profileIdText p.id}\"," ++
    s!"\"profile_version\":{p.profileVersion},\"sync_file_before_publish\":true," ++
    "\"sync_parent_directory_after_publish\":true,\"unknown_required_versions\":\"reject\"," ++
    s!"\"zbf_schema_major\":{zbfSchemaMajor},\"zbf_schema_minor\":{zbfSchemaMinor}\x7d"
  text.toUTF8.toList

def domain : List UInt8 := "zerostack.zbf_profile".toUTF8.toList ++ [0]

def digest (sha256 : List UInt8 → Sha256Digest) (p : DurableProfile) : Sha256Digest :=
  sha256 (domain ++ p.canonicalBytes)

end DurableProfile

inductive ZbfArtifactKind where
  | assemblyManifest
  | fsPack
  | graphPack
  | tokenPack
  | plan
  | receipt
  | witness
  | effect
  | snapshot
  deriving DecidableEq

def ZbfArtifactKind.toU16 : ZbfArtifactKind → UInt16
  | .assemblyManifest => 1
  | .fsPack => 2
  | .graphPack => 3
  | .tokenPack => 4
  | .plan => 5
  | .receipt => 6
  | .witness => 7
  | .effect => 8
  | .snapshot => 9

def ZbfArtifactKind.fromU16 (value : UInt16) : Option ZbfArtifactKind :=
  if value = 1 then some .assemblyManifest
  else if value = 2 then some .fsPack
  else if value = 3 then some .graphPack
  else if value = 4 then some .tokenPack
  else if value = 5 then some .plan
  else if value = 6 then some .receipt
  else if value = 7 then some .witness
  else if value = 8 then some .effect
  else if value = 9 then some .snapshot
  else none

inductive ArtifactOwner where
  | zeroStack
  | fsZero
  | graphZero
  | tokenZero
  | piZeroStack
  deriving DecidableEq

def ownerToU8 : ArtifactOwner → UInt8
  | .zeroStack => 0
  | .fsZero => 1
  | .graphZero => 2
  | .tokenZero => 3
  | .piZeroStack => 4

def ownerFromU8 (value : UInt8) : Option ArtifactOwner :=
  if value = 0 then some .zeroStack
  else if value = 1 then some .fsZero
  else if value = 2 then some .graphZero
  else if value = 3 then some .tokenZero
  else if value = 4 then some .piZeroStack
  else none

theorem fromU16_eq_some {value : UInt16} {kind : ZbfArtifactKind} :
    ZbfArtifactKind.fromU16 value = some kind ↔ value = kind.toU16 := by
  unfold ZbfArtifactKind.fromU16
  constructor
  · intro h
    split_ifs at h <;> cases h <;> assumption
  · rintro rfl
    cases kind <;> rfl

theorem ownerFromU8_eq_some {value : UInt8} {owner : ArtifactOwner} :
    ownerFromU8 value = some owner ↔ value = ownerToU8 owner := by
  unfold ownerFromU8
  constructor
  · intro h
    split_ifs at h <;> cases h <;> assumption
  · rintro rfl
    cases owner <;> rfl

structure ZbfHeader where
  schemaMajor : UInt16
  schemaMinor : UInt16
  kind : ZbfArtifactKind
  owner : ArtifactOwner
  flags : UInt8
  payloadLen : UInt64
  assemblyManifestDigest : Sha256Digest
  durableProfileDigest : Sha256Digest
  sourceRootDigest : Sha256Digest
  producerContractDigest : Sha256Digest
  payloadDigest : Sha256Digest
  deriving DecidableEq

/-- `ZbfObject`, with the two kinds of `ZbfPayload` as its constructors. -/
inductive ZbfObject where
  | leaf (header : ZbfHeader) (bytes : List UInt8)
  | container (header : ZbfHeader) (children : List ZbfObject)

def ZbfObject.header : ZbfObject → ZbfHeader
  | .leaf header _ => header
  | .container header _ => header

inductive ZbfError where
  | unexpectedEof
  | badMagic
  | unsupportedVersion (major minor : UInt16)
  | invalidKind (value : UInt16)
  | invalidOwner (value : UInt8)
  | unknownFlags (flags : UInt8)
  | reservedNonZero
  | lengthOverflow
  | objectTooLarge (actual maximum : ℕ)
  | payloadTooLarge (actual maximum : ℕ)
  | tooManyChildren (actual maximum : ℕ)
  | depthExceeded (actual maximum : ℕ)
  | trailingBytes
  | digestMismatch (expected actual : Sha256Digest)
  | assemblyMismatch (expected actual : Sha256Digest)
  | profileMismatch (expected actual : Sha256Digest)
  | headerPayloadMismatch
  | containerMalformed
  deriving DecidableEq

def encodeHeader (header : ZbfHeader) : List UInt8 :=
  zbfMagic ++ (beBytes 2 header.schemaMajor.toNat ++ (beBytes 2 header.schemaMinor.toNat ++
    (beBytes 2 header.kind.toU16.toNat ++ ([ownerToU8 header.owner] ++ ([header.flags] ++
      (beBytes 8 header.payloadLen.toNat ++ (digestBytes header.assemblyManifestDigest ++
        (digestBytes header.durableProfileDigest ++ (digestBytes header.sourceRootDigest ++
          (digestBytes header.producerContractDigest ++ (digestBytes header.payloadDigest ++
            List.replicate 8 0)))))))))))

theorem length_encodeHeader (header : ZbfHeader) : (encodeHeader header).length = zbfHeaderLen := by
  simp [encodeHeader, digestBytes, zbfMagic, zbfHeaderLen]

def boundedPayloadLen (actual : ℕ) (profile : DurableProfile) : Except ZbfError UInt64 :=
  if 2 ^ 64 ≤ actual then .error .lengthOverflow
  else if profile.maxPayloadBytes < actual then .error (.payloadTooLarge actual profile.maxPayloadBytes)
  else .ok (UInt64.ofNat actual)

section Encode
variable (sha256 : List UInt8 → Sha256Digest) (profile : DurableProfile)

def validateHeaderContract (header : ZbfHeader) : Except ZbfError Unit :=
  if header.schemaMajor ≠ zbfSchemaMajor ∨ header.schemaMinor ≠ zbfSchemaMinor then
    .error (.unsupportedVersion header.schemaMajor header.schemaMinor)
  else if header.flags &&& ~~~zbfContainerFlag ≠ 0 then .error (.unknownFlags header.flags)
  else if header.durableProfileDigest ≠ profile.digest sha256 then
    .error (.profileMismatch (profile.digest sha256) header.durableProfileDigest)
  else .ok ()

/-- `require_depth`: `room` counts the levels that the profile still allows, from
`max_depth + 1` at the root down. -/
def requireDepth (room : ℕ) : Except ZbfError Unit :=
  if room = 0 then .error (.depthExceeded (profile.maxDepth + 1 - room) profile.maxDepth) else .ok ()

def encodeFrames (encode : ZbfObject → Except ZbfError (List UInt8)) (payload : List UInt8) :
    List ZbfObject → Except ZbfError (List UInt8)
  | [] => .ok payload
  | child :: children => do
    let bytes ← encode child
    let nextLen := payload.length + 8 + bytes.length
    let _ ← boundedPayloadLen nextLen profile
    encodeFrames encode (payload ++ (beBytes 8 bytes.length ++ bytes)) children

def encodeChildren (room : ℕ) (encode : ZbfObject → Except ZbfError (List UInt8))
    (children : List ZbfObject) : Except ZbfError (List UInt8) := do
  if 2 ^ 32 ≤ children.length then .error (.tooManyChildren (2 ^ 32 - 1) profile.maxChildren)
  else if profile.maxChildren < children.length then
    .error (.tooManyChildren children.length profile.maxChildren)
  else do
    requireDepth profile room
    encodeFrames profile encode (beBytes 4 children.length) children

/-- `to_bytes_at` from the encoded payload on. -/
def sealPayload (header : ZbfHeader) (payload : List UInt8) : Except ZbfError (List UInt8) := do
  let payloadLen ← boundedPayloadLen payload.length profile
  if header.payloadLen ≠ payloadLen ∨ header.payloadDigest ≠ sha256 payload then
    .error .headerPayloadMismatch
  else if profile.maxObjectBytes < zbfHeaderLen + payload.length then
    .error (.objectTooLarge (zbfHeaderLen + payload.length) profile.maxObjectBytes)
  else .ok (encodeHeader header ++ payload)

def toBytesAt : ℕ → ZbfObject → Except ZbfError (List UInt8)
  | 0, _ => .error (.depthExceeded (profile.maxDepth + 1) profile.maxDepth)
  | room + 1, o => do
    validateHeaderContract sha256 profile o.header
    match o with
    | .leaf header bytes =>
      if header.flags ≠ 0 then .error .headerPayloadMismatch
      else do
        let _ ← boundedPayloadLen bytes.length profile
        sealPayload sha256 profile header bytes
    | .container header children =>
      if header.flags ≠ zbfContainerFlag then .error .headerPayloadMismatch
      else do
        let payload ← encodeChildren profile room (toBytesAt room) children
        sealPayload sha256 profile header payload

def toBytes (o : ZbfObject) : Except ZbfError (List UInt8) :=
  toBytesAt sha256 profile (profile.maxDepth + 1) o

variable (kind : ZbfArtifactKind)

def newHeader (owner : ArtifactOwner) (flags : UInt8)
    (assemblyManifestDigest sourceRootDigest producerContractDigest : Sha256Digest) (payloadLen : UInt64)
    (payload : List UInt8) : ZbfHeader where
  schemaMajor := zbfSchemaMajor
  schemaMinor := zbfSchemaMinor
  kind := kind
  owner := owner
  flags := flags
  payloadLen := payloadLen
  assemblyManifestDigest := assemblyManifestDigest
  durableProfileDigest := profile.digest sha256
  sourceRootDigest := sourceRootDigest
  producerContractDigest := producerContractDigest
  payloadDigest := sha256 payload

def newLeaf (owner : ArtifactOwner)
    (assemblyManifestDigest sourceRootDigest producerContractDigest : Sha256Digest) (payload : List UInt8) :
    Except ZbfError ZbfObject := do
  let payloadLen ← boundedPayloadLen payload.length profile
  .ok (.leaf (newHeader sha256 profile kind owner 0 assemblyManifestDigest sourceRootDigest
    producerContractDigest payloadLen payload) payload)

def newContainer (owner : ArtifactOwner)
    (assemblyManifestDigest sourceRootDigest producerContractDigest : Sha256Digest) (children : List ZbfObject) :
    Except ZbfError ZbfObject := do
  let payload ← encodeChildren profile profile.maxDepth (toBytesAt sha256 profile profile.maxDepth) children
  let payloadLen ← boundedPayloadLen payload.length profile
  .ok (.container (newHeader sha256 profile kind owner zbfContainerFlag assemblyManifestDigest sourceRootDigest
    producerContractDigest payloadLen payload) children)

end Encode
end Zero.Zbf
