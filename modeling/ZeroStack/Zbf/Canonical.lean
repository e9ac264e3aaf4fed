import ZeroStack.Wire.Messages
import ZeroStack.Zbf.Decode

/-! One layout for each object. The encoder returns it for the objects that are canonical under the profile and
refuses all others; the decoder accepts these layouts and nothing else. -/

open Wire List

namespace Zero.Zbf

mutual
def ZbfObject.layout : ZbfObject → List UInt8
  | .leaf header bytes => encodeHeader header ++ bytes
  | .container header children => encodeHeader header ++ (beBytes 4 children.length ++ frames children)

def frames : List ZbfObject → List UInt8
  | [] => []
  | child :: children => (beBytes 8 child.layout.length ++ child.layout) ++ frames children
end

def ZbfObject.payload : ZbfObject → List UInt8
  | .leaf _ bytes => bytes
  | .container _ children => beBytes 4 children.length ++ frames children

theorem ZbfObject.layout_eq (o : ZbfObject) : o.layout = encodeHeader o.header ++ o.payload := by
  cases o <;> simp [layout, payload, header]

theorem ZbfObject.length_layout (o : ZbfObject) : o.layout.length = zbfHeaderLen + o.payload.length := by
  rw [layout_eq, length_append, length_encodeHeader]

theorem ZbfObject.take_layout (o : ZbfObject) : o.layout.take zbfHeaderLen = encodeHeader o.header := by
  rw [o.layout_eq, ← length_encodeHeader o.header, take_left]

theorem ZbfObject.drop_layout (o : ZbfObject) : o.layout.drop zbfHeaderLen = o.payload := by
  rw [o.layout_eq, ← length_encodeHeader o.header, drop_left]

theorem frames_eq_flatMap (children : List ZbfObject) :
    frames children = children.flatMap fun child => beBytes 8 child.layout.length ++ child.layout := by
  induction children with
  | nil => simp [frames]
  | cons child children ih => simp [frames, ih]

theorem maxPayloadBytes_add (profile : DurableProfile) :
    zbfHeaderLen + profile.maxPayloadBytes = profile.maxObjectBytes := by
  have hle : zbfHeaderLen ≤ zbfMaxObjectBytes := by decide
  exact Nat.add_sub_of_le hle

theorem maxObjectBytes_lt (profile : DurableProfile) : profile.maxObjectBytes < 2 ^ 64 := by
  simp [DurableProfile.maxObjectBytes, zbfMaxObjectBytes]

mutual
def ZbfObject.Assembled (d : Sha256Digest) : ZbfObject → Prop
  | .leaf header _ => header.assemblyManifestDigest = d
  | .container header children => header.assemblyManifestDigest = d ∧ AllAssembled d children

def AllAssembled (d : Sha256Digest) : List ZbfObject → Prop
  | [] => True
  | child :: children => child.Assembled d ∧ AllAssembled d children
end

theorem allAssembled_iff {d : Sha256Digest} {children : List ZbfObject} :
    AllAssembled d children ↔ ∀ child ∈ children, child.Assembled d := by
  induction children with
  | nil => simp [AllAssembled]
  | cons child children ih => simp [AllAssembled, ih]

section Canonical
variable (sha256 : List UInt8 → Sha256Digest) (profile : DurableProfile)

structure ZbfHeader.Binds (header : ZbfHeader) (payload : List UInt8) : Prop where
  contract : validateHeaderContract sha256 profile header = .ok ()
  length : header.payloadLen.toNat = payload.length
  bounded : payload.length ≤ profile.maxPayloadBytes
  digest : header.payloadDigest = sha256 payload

def Canonical : ℕ → ZbfObject → Prop
  | 0, _ => False
  | _ + 1, .leaf header bytes => header.flags = 0 ∧ header.Binds sha256 profile bytes
  | room + 1, .container header children =>
    header.flags = zbfContainerFlag ∧ header.Binds sha256 profile (beBytes 4 children.length ++ frames children) ∧
      children.length ≤ profile.maxChildren ∧ 0 < room ∧ ∀ child ∈ children, Canonical room child

end Canonical

variable {sha256 : List UInt8 → Sha256Digest} {profile : DurableProfile} {room : ℕ} {o : ZbfObject}
  {payload : List UInt8} {children : List ZbfObject}

section Encode

theorem boundedPayloadLen_eq_ok {actual : ℕ} {len : UInt64} :
    boundedPayloadLen actual profile = .ok len ↔ actual ≤ profile.maxPayloadBytes ∧ len.toNat = actual := by
  have hmax := maxObjectBytes_lt profile
  have hadd := maxPayloadBytes_add profile
  unfold boundedPayloadLen
  constructor
  · intro h
    split_ifs at h with hover hlarge
    cases h
    have hlt : actual < 2 ^ 64 := by omega
    exact ⟨by omega, UInt64.toNat_ofNat_of_lt' hlt⟩
  · rintro ⟨hle, rfl⟩
    rw [if_neg (by omega), if_neg (by omega), UInt64.ofNat_toNat]

theorem sealPayload_eq_ok {header : ZbfHeader} {payload b : List UInt8}
    (hcontract : validateHeaderContract sha256 profile header = .ok ()) :
    sealPayload sha256 profile header payload = .ok b ↔
      header.Binds sha256 profile payload ∧ b = encodeHeader header ++ payload := by
  have hadd := maxPayloadBytes_add profile
  unfold sealPayload
  rw [bind_eq_ok]
  constructor
  · rintro ⟨len, hlen, h⟩
    obtain ⟨hle, hlen⟩ := boundedPayloadLen_eq_ok.mp hlen
    split_ifs at h with hmismatch hlarge
    cases h
    rw [not_or, not_not, not_not] at hmismatch
    exact ⟨⟨hcontract, by rw [hmismatch.1, hlen], hle, hmismatch.2⟩, rfl⟩
  · rintro ⟨hbinds, rfl⟩
    have hle := hbinds.bounded
    refine ⟨header.payloadLen, boundedPayloadLen_eq_ok.mpr ⟨hle, hbinds.length⟩, ?_⟩
    rw [if_neg (by simp [hbinds.digest]), if_neg (by omega)]

theorem requireDepth_eq_ok : requireDepth profile room = .ok () ↔ 0 < room := by
  unfold requireDepth
  split_ifs with h
  · simp [h]
  · simpa using Nat.pos_of_ne_zero h

theorem encodeFrames_eq_ok {encode : ZbfObject → Except ZbfError (List UInt8)} {C : ZbfObject → Prop}
    (hencode : ∀ o b, encode o = .ok b ↔ C o ∧ b = o.layout) (children : List ZbfObject)
    {before payload : List UInt8} (hbefore : before.length ≤ profile.maxPayloadBytes) :
    encodeFrames profile encode before children = .ok payload ↔
      (∀ child ∈ children, C child) ∧ payload = before ++ frames children ∧
        payload.length ≤ profile.maxPayloadBytes := by
  induction children generalizing before with
  | nil =>
    simp only [frames, append_nil]
    constructor
    · intro h
      cases h
      exact ⟨fun _ hc => (not_mem_nil hc).elim, rfl, hbefore⟩
    · rintro ⟨-, rfl, -⟩
      rfl
  | cons child children ih =>
    unfold encodeFrames
    rw [bind_eq_ok, forall_mem_cons, frames]
    constructor
    · rintro ⟨bytes, hbytes, h⟩
      obtain ⟨len, hlen, h⟩ := bind_eq_ok.mp h
      obtain ⟨hC, rfl⟩ := (hencode child bytes).mp hbytes
      obtain ⟨hle, -⟩ := boundedPayloadLen_eq_ok.mp hlen
      have hnext : (before ++ (beBytes 8 child.layout.length ++ child.layout)).length ≤ profile.maxPayloadBytes := by
        simp only [length_append, length_beBytes]
        omega
      obtain ⟨hall, rfl, htotal⟩ := (ih hnext).mp h
      exact ⟨⟨hC, hall⟩, by rw [append_assoc], htotal⟩
    · rintro ⟨⟨hC, hall⟩, rfl, htotal⟩
      have hnext : (before ++ (beBytes 8 child.layout.length ++ child.layout)).length ≤ profile.maxPayloadBytes := by
        simp only [length_append] at htotal ⊢
        omega
      have hle : before.length + 8 + child.layout.length ≤ profile.maxPayloadBytes := by
        simp only [length_append, length_beBytes] at hnext
        omega
      refine ⟨child.layout, (hencode child _).mpr ⟨hC, rfl⟩,
        bind_eq_ok.mpr ⟨UInt64.ofNat (before.length + 8 + child.layout.length), ?_, ?_⟩⟩
      · have hmax := maxObjectBytes_lt profile
        have hadd := maxPayloadBytes_add profile
        have hlt : before.length + 8 + child.layout.length < 2 ^ 64 := by omega
        exact boundedPayloadLen_eq_ok.mpr ⟨hle, UInt64.toNat_ofNat_of_lt' hlt⟩
      · exact (ih hnext).mpr ⟨hall, (append_assoc ..).symm, htotal⟩

theorem encodeChildren_eq_ok {encode : ZbfObject → Except ZbfError (List UInt8)}
    {C : ZbfObject → Prop} (hencode : ∀ o b, encode o = .ok b ↔ C o ∧ b = o.layout) :
    encodeChildren profile room encode children = .ok payload ↔
      children.length ≤ profile.maxChildren ∧ 0 < room ∧ (∀ child ∈ children, C child) ∧
        payload = beBytes 4 children.length ++ frames children ∧ payload.length ≤ profile.maxPayloadBytes := by
  have hfour : (beBytes 4 children.length).length ≤ profile.maxPayloadBytes := by
    simp [DurableProfile.maxPayloadBytes, zbfMaxObjectBytes, zbfHeaderLen]
  have hchildren : profile.maxChildren < 2 ^ 32 := by simp [DurableProfile.maxChildren, zbfMaxChildren]
  unfold encodeChildren
  constructor
  · intro h
    split_ifs at h with hover hmany
    obtain ⟨⟨⟩, hdepth, h⟩ := bind_eq_ok.mp h
    exact ⟨by omega, requireDepth_eq_ok.mp hdepth, (encodeFrames_eq_ok hencode children hfour).mp h⟩
  · rintro ⟨hle, hroom, h⟩
    rw [if_neg (by omega), if_neg (by omega)]
    exact bind_ok (requireDepth_eq_ok.mpr hroom) ((encodeFrames_eq_ok hencode children hfour).mpr h)

theorem toBytesAt_eq_ok (room : ℕ) (o : ZbfObject) (b : List UInt8) :
    toBytesAt sha256 profile room o = .ok b ↔ Canonical sha256 profile room o ∧ b = o.layout := by
  induction room generalizing o b with
  | zero =>
    simp [toBytesAt, Canonical]
  | succ room ih =>
    unfold toBytesAt
    rw [bind_eq_ok]
    cases o with
    | leaf header bytes =>
      simp only [ZbfObject.layout]
      constructor
      · rintro ⟨⟨⟩, hcontract, h⟩
        split_ifs at h with hflags
        obtain ⟨len, -, h⟩ := bind_eq_ok.mp h
        obtain ⟨hbinds, rfl⟩ := (sealPayload_eq_ok hcontract).mp h
        exact ⟨⟨not_not.mp hflags, hbinds⟩, rfl⟩
      · rintro ⟨⟨hflags, hbinds⟩, rfl⟩
        refine ⟨(), hbinds.contract, ?_⟩
        rw [if_neg (not_not.mpr hflags)]
        refine bind_eq_ok.mpr ⟨header.payloadLen, ?_, (sealPayload_eq_ok hbinds.contract).mpr ⟨hbinds, rfl⟩⟩
        exact boundedPayloadLen_eq_ok.mpr ⟨hbinds.bounded, hbinds.length⟩
    | container header children =>
      simp only [ZbfObject.layout]
      constructor
      · rintro ⟨⟨⟩, hcontract, h⟩
        split_ifs at h with hflags
        obtain ⟨payload, hpayload, h⟩ := bind_eq_ok.mp h
        obtain ⟨hle, hroom, hall, rfl, -⟩ := (encodeChildren_eq_ok ih).mp hpayload
        obtain ⟨hbinds, rfl⟩ := (sealPayload_eq_ok hcontract).mp h
        exact ⟨⟨not_not.mp hflags, hbinds, hle, hroom, hall⟩, rfl⟩
      · rintro ⟨⟨hflags, hbinds, hle, hroom, hall⟩, rfl⟩
        refine ⟨(), hbinds.contract, ?_⟩
        rw [if_neg (not_not.mpr hflags)]
        refine bind_ok ?_ ((sealPayload_eq_ok hbinds.contract).mpr ⟨hbinds, rfl⟩)
        exact (encodeChildren_eq_ok ih).mpr ⟨hle, hroom, hall, rfl, hbinds.bounded⟩

end Encode

section Decode
variable {d : Sha256Digest}

theorem run_liftM_ok {α : Type} {x : Except ZbfError α} {a : α} {c c' : Wire.Cursor} :
    (liftM x : ZbfReader α).run c = .ok (a, c') ↔ x = .ok a ∧ c = c' := by
  cases x with
  | error e =>
    constructor
    · intro h
      cases h
    · rintro ⟨h, -⟩
      cases h
  | ok b =>
    constructor
    · intro h
      cases h
      exact ⟨rfl, rfl⟩
    · rintro ⟨h, rfl⟩
      cases h
      rfl

section
variable {decode : List UInt8 → Except ZbfError ZbfObject} {C : ZbfObject → Prop}
  (hdecode : ∀ bytes o, decode bytes = .ok o ↔ C o ∧ bytes = o.layout)
include hdecode

theorem exact_childReader : (childReader decode).Exact C (fun o => beBytes 8 o.layout.length ++ o.layout) := by
  intro c hc o c''
  unfold childReader
  rw [Cursor.exact_u64.bind_ok hc, Cursor.splits_append]
  constructor
  · rintro ⟨len, m, -, hsplit, h⟩
    split_ifs at h with hshort
    · exact (Reader.run_throw_ok h).elim
    · obtain ⟨bytes, m', hlen, hsplit', h⟩ := ((Reader.exact_take _ _ len.toNat).bind_ok (hsplit.bounded hc)).mp h
      obtain ⟨hdec, rfl⟩ := run_liftM_ok.mp h
      obtain ⟨hC, rfl⟩ := (hdecode bytes o).mp hdec
      rw [hlen]
      exact ⟨hC, m, hsplit, hsplit'⟩
  · rintro ⟨hC, m, hsplit, hsplit'⟩
    have hlong : zbfHeaderLen ≤ o.layout.length := by
      rw [o.length_layout]
      omega
    have hlt : o.layout.length < 2 ^ 64 := by
      have hm := hsplit.bounded hc
      unfold Wire.Cursor.Bounded at hm
      rw [hsplit'.1, length_append] at hm
      omega
    have hlen : (UInt64.ofNat o.layout.length).toNat = o.layout.length := UInt64.toNat_ofNat_of_lt' hlt
    refine ⟨UInt64.ofNat o.layout.length, m, trivial, ?_, ?_⟩
    · rw [hlen]
      exact hsplit
    · rw [hlen, if_neg (by omega)]
      refine ((Reader.exact_take _ _ _).bind_ok (hsplit.bounded hc)).mpr ⟨o.layout, c'', rfl, hsplit', ?_⟩
      exact run_liftM_ok.mpr ⟨(hdecode _ o).mpr ⟨hC, rfl⟩, rfl⟩

theorem exact_childrenReader : (childrenReader profile room decode).Exact
      (fun children => children.length ≤ profile.maxChildren ∧ 0 < room ∧ ∀ child ∈ children, C child)
      (fun children => beBytes 4 children.length ++ frames children) := by
  intro c hc children c''
  unfold childrenReader
  rw [Cursor.u32, (Reader.exact_beWord _ _ 4).bind_ok hc, Cursor.splits_append]
  constructor
  · rintro ⟨count, m, hcount, hsplit, h⟩
    split_ifs at h with hmany
    · exact (Reader.run_throw_ok h).elim
    · obtain ⟨⟨⟩, m', hlift, h⟩ := Reader.run_bind_ok.mp h
      obtain ⟨hdepth, rfl⟩ := run_liftM_ok.mp hlift
      obtain ⟨⟨rfl, hall⟩, hsplit'⟩ :=
        ((exact_childReader hdecode).times count m (hsplit.bounded hc) children c'').mp h
      rw [frames_eq_flatMap]
      exact ⟨⟨by omega, requireDepth_eq_ok.mp hdepth, hall⟩, m, hsplit, hsplit'⟩
  · rintro ⟨⟨hle, hroom, hall⟩, m, hsplit, hsplit'⟩
    have hmax : profile.maxChildren < 256 ^ 4 := by simp [DurableProfile.maxChildren, zbfMaxChildren]
    refine ⟨children.length, m, by omega, hsplit, ?_⟩
    rw [if_neg (by omega)]
    refine Reader.run_bind_ok.mpr ⟨(), m, run_liftM_ok.mpr ⟨requireDepth_eq_ok.mpr hroom, rfl⟩, ?_⟩
    rw [frames_eq_flatMap] at hsplit'
    exact ((exact_childReader hdecode).times _ m (hsplit.bounded hc) children c'').mpr ⟨⟨rfl, hall⟩, hsplit'⟩

end

theorem known_flags (flags : UInt8) (h : flags &&& ~~~zbfContainerFlag = 0) : flags = 0 ∨ flags = zbfContainerFlag := by
  have hall : ∀ b, b &&& ~~~1#8 = 0#8 → b = 0#8 ∨ b = 1#8 := by decide
  rcases hall flags.toBitVec (congrArg UInt8.toBitVec h) with hb | hb
  · exact .inl (UInt8.toBitVec_inj.mp hb)
  · exact .inr (UInt8.toBitVec_inj.mp hb)

theorem validateHeaderContract_eq_ok {header : ZbfHeader} : validateHeaderContract sha256 profile header = .ok () ↔
      header.schemaMajor = zbfSchemaMajor ∧ header.schemaMinor = zbfSchemaMinor ∧
        header.flags &&& ~~~zbfContainerFlag = 0 ∧ header.durableProfileDigest = profile.digest sha256 := by
  unfold validateHeaderContract
  constructor
  · intro h
    split_ifs at h with hversion hflags hprofile
    rw [not_or, not_not, not_not] at hversion
    exact ⟨hversion.1, hversion.2, not_not.mp hflags, not_not.mp hprofile⟩
  · rintro ⟨hmajor, hminor, hflags, hprofile⟩
    rw [if_neg (by simp [hmajor, hminor]), if_neg (not_not.mpr hflags), if_neg (not_not.mpr hprofile)]

theorem Canonical.binds (h : Canonical sha256 profile room o) : o.header.Binds sha256 profile o.payload := by
  cases room with
  | zero => exact h.elim
  | succ room =>
    cases o with
    | leaf header bytes => exact h.2
    | container header children => exact h.2.1

theorem openPayload_eq_ok {decode : List UInt8 → Except ZbfError ZbfObject} (hdecode : ∀ bytes o, decode bytes = .ok o ↔
      (Canonical sha256 profile room o ∧ o.Assembled d) ∧ bytes = o.layout)
    {header : ZbfHeader} (hcontract : validateHeaderContract sha256 profile header = .ok ())
    (hassembly : header.assemblyManifestDigest = d) (hbound : payload.length ≤ profile.maxPayloadBytes) :
    openPayload sha256 profile room decode header payload = .ok o ↔
      (Canonical sha256 profile (room + 1) o ∧ o.Assembled d) ∧ o.header = header ∧ o.payload = payload := by
  have hlt : payload.length < 2 ^ 64 := by
    have hmax := maxObjectBytes_lt profile
    have hadd := maxPayloadBytes_add profile
    omega
  unfold openPayload
  constructor
  · intro h
    split_ifs at h with hshort hlong hdigest hflags
    · obtain ⟨children, hchildren, h⟩ := bind_eq_ok.mp h
      obtain ⟨⟨hle, hroom, hall⟩, hpayload⟩ := (readAll_eq_ok (exact_childrenReader hdecode) hlt).mp hchildren
      cases h
      subst hpayload
      have hbinds : header.Binds sha256 profile (beBytes 4 children.length ++ frames children) :=
        ⟨hcontract, by omega, hbound, (not_not.mp hdigest).symm⟩
      refine ⟨⟨⟨hflags, hbinds, hle, hroom, fun child hc => (hall child hc).1⟩, hassembly, ?_⟩, rfl, rfl⟩
      exact allAssembled_iff.mpr fun child hc => (hall child hc).2
    · cases h
      have hbinds : header.Binds sha256 profile payload :=
        ⟨hcontract, by omega, hbound, (not_not.mp hdigest).symm⟩
      obtain ⟨-, -, hknown, -⟩ := validateHeaderContract_eq_ok.mp hcontract
      have hzero : header.flags = 0 := (known_flags header.flags hknown).resolve_right hflags
      exact ⟨⟨⟨hzero, hbinds⟩, hassembly⟩, rfl, rfl⟩
  · rintro ⟨⟨hcanonical, hassembled⟩, rfl, rfl⟩
    have hbinds := hcanonical.binds
    have hlen := hbinds.length
    rw [if_neg (by omega), if_neg (by omega), if_neg (not_not.mpr hbinds.digest.symm)]
    cases o with
    | leaf header bytes =>
      have hflags : header.flags ≠ zbfContainerFlag := by
        rw [hcanonical.1]
        decide
      exact if_neg hflags
    | container header children =>
      obtain ⟨hflags, -, hle, hroom, hall⟩ := hcanonical
      rw [ZbfObject.header, if_pos hflags]
      refine bind_eq_ok.mpr ⟨children,
        (readAll_eq_ok (exact_childrenReader hdecode) hlt).mpr ⟨⟨hle, hroom, ?_⟩, rfl⟩, rfl⟩
      intro child hc
      exact ⟨hall child hc, allAssembled_iff.mp hassembled.2 child hc⟩

theorem ZbfObject.Assembled.header (h : o.Assembled d) : o.header.assemblyManifestDigest = d := by
  cases o with
  | leaf header bytes => exact h
  | container header children => exact h.1

theorem decodeObject_eq_ok (room : ℕ) (bytes : List UInt8) (o : ZbfObject) :
    decodeObject sha256 profile d room bytes = .ok o ↔
      (Canonical sha256 profile room o ∧ o.Assembled d) ∧ bytes = o.layout := by
  induction room generalizing bytes o with
  | zero => simp [decodeObject, Canonical]
  | succ room ih =>
    have hadd := maxPayloadBytes_add profile
    have hheader : (bytes.take zbfHeaderLen).length < 2 ^ 64 := by
      have hle : (bytes.take zbfHeaderLen).length ≤ zbfHeaderLen := length_take_le ..
      unfold zbfHeaderLen at hle ⊢
      omega
    unfold decodeObject
    constructor
    · intro h
      split_ifs at h with hlarge hshort
      obtain ⟨header, hdec, h⟩ := bind_eq_ok.mp h
      obtain ⟨⟨⟩, hcontract, h⟩ := bind_eq_ok.mp h
      split_ifs at h with hassembly hpayload
      have hbound : (bytes.drop zbfHeaderLen).length ≤ profile.maxPayloadBytes := by
        rw [length_drop]
        omega
      obtain ⟨hobject, hhead, hbody⟩ := (openPayload_eq_ok ih hcontract (not_not.mp hassembly) hbound).mp h
      refine ⟨hobject, ?_⟩
      rw [o.layout_eq, hhead, hbody, ← (decodeHeader_eq_ok hheader).mp hdec, take_append_drop]
    · rintro ⟨hobject, rfl⟩
      have hbinds := hobject.1.binds
      have hlength := o.length_layout
      have hbounded := hbinds.bounded
      have hlen := hbinds.length
      rw [if_neg (by omega), if_neg (by omega)]
      refine bind_eq_ok.mpr ⟨o.header, (decodeHeader_eq_ok hheader).mpr o.take_layout, ?_⟩
      refine bind_ok hbinds.contract ?_
      rw [if_neg (not_not.mpr hobject.2.header), if_neg (by omega), o.drop_layout]
      exact (openPayload_eq_ok ih hbinds.contract hobject.2.header hbounded).mpr ⟨hobject, rfl, rfl⟩

end Decode

section New
variable {kind : ZbfArtifactKind} {owner : ArtifactOwner} {d source producer : Sha256Digest}

theorem newHeader_binds {flags : UInt8} (hflags : flags &&& ~~~zbfContainerFlag = 0) {payloadLen : UInt64}
    (hlen : boundedPayloadLen payload.length profile = .ok payloadLen) :
    (newHeader sha256 profile kind owner flags d source producer payloadLen payload).Binds sha256 profile payload := by
  obtain ⟨hle, hlen⟩ := boundedPayloadLen_eq_ok.mp hlen
  exact ⟨validateHeaderContract_eq_ok.mpr ⟨rfl, rfl, hflags, rfl⟩, hlen, hle, rfl⟩

theorem newContainer_canonical (h : newContainer sha256 profile kind owner d source producer children = .ok o) :
    Canonical sha256 profile (profile.maxDepth + 1) o := by
  obtain ⟨payload, hpayload, h⟩ := bind_eq_ok.mp h
  obtain ⟨payloadLen, hlen, h⟩ := bind_eq_ok.mp h
  cases h
  obtain ⟨hle, hroom, hall, rfl, -⟩ := (encodeChildren_eq_ok (toBytesAt_eq_ok profile.maxDepth)).mp hpayload
  exact ⟨rfl, newHeader_binds (by decide) hlen, hle, hroom, hall⟩

theorem newLeaf_eq (h : newLeaf sha256 profile kind owner d source producer payload = .ok o) :
    ∃ header, header.assemblyManifestDigest = d ∧ o = .leaf header payload := by
  obtain ⟨payloadLen, -, h⟩ := bind_eq_ok.mp h
  exact ⟨_, rfl, (Except.ok.inj h).symm⟩

theorem newContainer_eq (h : newContainer sha256 profile kind owner d source producer children = .ok o) :
    ∃ header, header.assemblyManifestDigest = d ∧ o = .container header children := by
  obtain ⟨payload, -, h⟩ := bind_eq_ok.mp h
  obtain ⟨payloadLen, -, h⟩ := bind_eq_ok.mp h
  exact ⟨_, rfl, (Except.ok.inj h).symm⟩

end New

section Injective

theorem encodeHeader_injective {header header' : ZbfHeader} (h : encodeHeader header = encodeHeader header') :
    header = header' := by
  have hlt : (encodeHeader header).length < 2 ^ 64 := by
    rw [length_encodeHeader]
    decide
  have hread := (decodeHeader_eq_ok hlt).mpr rfl
  rw [(decodeHeader_eq_ok hlt).mpr h] at hread
  exact (Except.ok.inj hread).symm

theorem Canonical.length_layout_lt (h : Canonical sha256 profile room o) : o.layout.length < 256 ^ 8 := by
  have hbounded := h.binds.bounded
  have hadd := maxPayloadBytes_add profile
  have hmax := maxObjectBytes_lt profile
  rw [o.length_layout]
  omega

theorem layout_injective {o o' : ZbfObject} (ho : Canonical sha256 profile room o)
    (ho' : Canonical sha256 profile room o') (h : o.layout = o'.layout) : o = o' := by
  induction room generalizing o o' with
  | zero => exact ho.elim
  | succ room ih =>
    rw [o.layout_eq, o'.layout_eq] at h
    obtain ⟨hhead, hbody⟩ := append_inj h (by simp only [length_encodeHeader])
    have hheader : o.header = o'.header := encodeHeader_injective hhead
    have hne : 0 ≠ zbfContainerFlag := by decide
    -- the container flag tells which of the two the payload is
    cases o with
    | leaf header bytes =>
      cases o' with
      | leaf header' bytes' =>
        cases hheader
        cases hbody
        rfl
      | container header' children' =>
        cases hheader
        exact (hne (ho.1.symm.trans ho'.1)).elim
    | container header children =>
      cases o' with
      | leaf header' bytes' =>
        cases hheader
        exact (hne (ho'.1.symm.trans ho.1)).elim
      | container header' children' =>
        cases hheader
        obtain ⟨-, -, hle, -, hall⟩ := ho
        obtain ⟨-, -, hle', -, hall'⟩ := ho'
        have hmax : profile.maxChildren < 256 ^ 4 := by simp [DurableProfile.maxChildren, zbfMaxChildren]
        obtain ⟨hcount, hframes⟩ := append_inj hbody (by simp only [length_beBytes])
        rw [frames_eq_flatMap, frames_eq_flatMap] at hframes
        have hlength := beBytes_inj (hle.trans_lt hmax) (hle'.trans_lt hmax) hcount
        refine congrArg _ (flatMap_append_inj (fun a ha b hb r s h => ?_) hlength (congrArg (· ++ []) hframes)).1
        obtain ⟨hlayout, hrest⟩ := delimited_inj (hall a ha).length_layout_lt (hall' b hb).length_layout_lt h
        exact ⟨ih (hall a ha) (hall' b hb) hlayout, hrest⟩

end Injective

/-- The format has one encoding for each object: what decodes encodes to the same bytes, and
what encodes, with one assembly digest throughout, decodes to the same object. Two objects
that encode to the same bytes are the same. -/
theorem zbf_canonical (sha256 : List UInt8 → Sha256Digest) (profile : DurableProfile) :
    (∀ (bytes : List UInt8) (d : Sha256Digest) (o : ZbfObject),
      fromBytes sha256 profile d bytes = .ok o ↔ o.Assembled d ∧ toBytes sha256 profile o = .ok bytes) ∧
    ∀ (o o' : ZbfObject) (bytes : List UInt8), toBytes sha256 profile o = .ok bytes →
      toBytes sha256 profile o' = .ok bytes → o = o' := by
  constructor
  · intro bytes d o
    rw [fromBytes, toBytes, decodeObject_eq_ok, toBytesAt_eq_ok]
    tauto
  · intro o o' bytes ho ho'
    obtain ⟨hcanonical, hbytes⟩ := (toBytesAt_eq_ok ..).mp ho
    obtain ⟨hcanonical', hbytes'⟩ := (toBytesAt_eq_ok ..).mp ho'
    exact layout_injective hcanonical hcanonical' (hbytes.symm.trans hbytes')

section Nested

def lengthDigest (bytes : List UInt8) : Sha256Digest := BitVec.ofNat 256 bytes.length

def nestedPlan : Except ZbfError (ZbfObject × ZbfObject × ZbfObject) := do
  let leaf ← newLeaf lengthDigest ⟨.portableStrict⟩ .plan .fsZero 7 1 2 [1, 2]
  let inner ← newContainer lengthDigest ⟨.portableStrict⟩ .plan .fsZero 7 1 2 [leaf, leaf]
  let outer ← newContainer lengthDigest ⟨.portableStrict⟩ .plan .fsZero 7 1 2 [leaf, inner, leaf]
  .ok (leaf, inner, outer)

theorem nestedPlan_eq : ∃ leaf inner outer, nestedPlan = .ok (leaf, inner, outer) ∧
    (∃ header, leaf = .leaf header [1, 2]) ∧ (∃ header, inner = .container header [leaf, leaf]) ∧
    (∃ header, outer = .container header [leaf, inner, leaf]) ∧ outer.Assembled 7 ∧
    Canonical lengthDigest ⟨.portableStrict⟩ (zbfMaxDepth + 1) outer := by
  have hok : nestedPlan.toOption.isSome = true := by decide +kernel
  obtain ⟨⟨leaf, inner, outer⟩, hplan⟩ : ∃ plan, nestedPlan = .ok plan := by
    cases hplan : nestedPlan with
    | error e =>
      rw [hplan] at hok
      cases hok
    | ok plan => exact ⟨plan, rfl⟩
  obtain ⟨_, hleaf, h⟩ := bind_eq_ok.mp hplan
  obtain ⟨_, hinner, h⟩ := bind_eq_ok.mp h
  obtain ⟨_, houter, h⟩ := bind_eq_ok.mp h
  cases h
  obtain ⟨leafHeader, hseven, rfl⟩ := newLeaf_eq hleaf
  obtain ⟨innerHeader, hseven', rfl⟩ := newContainer_eq hinner
  have hcanonical := newContainer_canonical houter
  obtain ⟨outerHeader, hseven'', rfl⟩ := newContainer_eq houter
  refine ⟨_, _, _, hplan, ⟨_, rfl⟩, ⟨_, rfl⟩, ⟨_, rfl⟩, ?_, hcanonical⟩
  simp [ZbfObject.Assembled, AllAssembled, hseven, hseven', hseven'']

theorem nested_plan_canonical : ∃ leaf inner o bytes, nestedPlan = .ok (leaf, inner, o) ∧
    toBytes lengthDigest ⟨.portableStrict⟩ o = .ok bytes ∧ fromBytes lengthDigest ⟨.portableStrict⟩ 7 bytes = .ok o ∧
      ∀ o', toBytes lengthDigest ⟨.portableStrict⟩ o' = .ok bytes → o' = o := by
  obtain ⟨leaf, inner, o, hplan, -, -, -, hassembled, hcanonical⟩ := nestedPlan_eq
  have hbytes : toBytes lengthDigest ⟨.portableStrict⟩ o = .ok o.layout := (toBytesAt_eq_ok ..).mpr ⟨hcanonical, rfl⟩
  obtain ⟨hround, hunique⟩ := zbf_canonical lengthDigest ⟨.portableStrict⟩
  exact ⟨leaf, inner, o, o.layout, hplan, hbytes, (hround ..).mpr ⟨hassembled, hbytes⟩,
    fun o' ho' => hunique _ _ _ ho' hbytes⟩

end Nested
end Zero.Zbf
