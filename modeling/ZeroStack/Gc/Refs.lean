import Mathlib.Data.List.GetD
import ZeroStack.Tracing.Collect
import ZeroStack.Zbf.Canonical

/-! The references of a stored object. The collector walks the bytes of an object by itself,
without the decoder: it checks what it needs in order to name the embedded objects. -/

open Wire Tracing Zero.Zbf List

namespace Zero.Gc

def gcMaxBlobHashes : ℕ := 65536

def hexDigit (n : ℕ) : Char := "0123456789abcdef".toList.getD n '0'

def lowerHex (bytes : List UInt8) : String :=
  String.ofList (bytes.flatMap fun b => [hexDigit (b.toNat / 16), hexDigit (b.toNat % 16)])

section Model
variable (sha256 : List UInt8 → Sha256Digest) (bytes : List UInt8)

def contentSha256Hex : String := lowerHex (digestBytes (sha256 bytes))

def checkZbf : Except String Unit :=
  let schemaMajor := ofBe (slice bytes 8 10)
  let schemaMinor := ofBe (slice bytes 10 12)
  let flags := bytes.getD 15 0
  let payloadLen := ofBe (slice bytes 16 24)
  if zbfMaxObjectBytes < bytes.length then
    .error s!"ZBF object of {bytes.length} bytes exceeds {zbfMaxObjectBytes}"
  else if bytes.length < zbfHeaderLen then .error s!"ZBF object shorter than {zbfHeaderLen}-byte header"
  else if bytes.take zbfMagic.length ≠ zbfMagic then .error "embedded object is missing the ZBF magic"
  else if schemaMajor ≠ zbfSchemaMajor.toNat ∨ schemaMinor ≠ zbfSchemaMinor.toNat then
    .error s!"unsupported ZBF schema {schemaMajor}.{schemaMinor}"
  else if flags &&& ~~~zbfContainerFlag ≠ 0 then .error ("unknown ZBF flags 0x" ++ lowerHex [flags])
  else if (slice bytes 184 192).any (· ≠ 0) then .error "ZBF reserved header bytes are nonzero"
  else if 2 ^ 64 ≤ zbfHeaderLen + payloadLen then .error "ZBF payload length overflows"
  else if zbfHeaderLen + payloadLen ≠ bytes.length then
    .error s!"ZBF payload length {payloadLen} does not match object size {bytes.length}"
  else if contentSha256Hex sha256 (bytes.drop zbfHeaderLen) ≠ lowerHex (slice bytes 152 184) then
    .error "ZBF payload digest mismatch"
  else .ok ()

def noteRef (refs : List String) (hash : String) : Except String (List String) :=
  note gcMaxBlobHashes s!"refs exceed {gcMaxBlobHashes}" refs hash

def collectFrames (walk : List UInt8 → List String → Except String (List String)) :
    ℕ → List UInt8 → List String → Except String (List String)
  | 0, rest, refs => if rest.length ≠ 0 then .error "ZBF container payload has trailing bytes" else .ok refs
  | count + 1, rest, refs =>
    let childLen := ofBe (rest.take 8)
    if rest.length < 8 then .error "ZBF container child length is truncated"
    else if childLen < zbfHeaderLen then .error "ZBF child is shorter than the fixed header"
    else if 2 ^ 64 ≤ childLen then .error "ZBF child length does not fit usize"
    else if (rest.drop 8).length < childLen then .error "ZBF container child bytes are truncated"
    else do
      let child := (rest.drop 8).take childLen
      let refs ← noteRef refs (contentSha256Hex sha256 child)
      let refs ← walk child refs
      collectFrames walk count ((rest.drop 8).drop childLen) refs

def collectTable (walk : List UInt8 → List String → Except String (List String)) (payload : List UInt8)
    (refs : List String) : Except String (List String) :=
  let count := ofBe (payload.take 4)
  if payload.length < 4 then .error "ZBF container payload is shorter than its child count"
  else if zbfMaxChildren < count then .error s!"ZBF child count {count} exceeds {zbfMaxChildren}"
  else collectFrames sha256 walk count (payload.drop 4) refs

/-- `collect_zbf_refs`, with the levels still allowed in place of the depth. -/
def collectZbfRefs : ℕ → List UInt8 → List String → Except String (List String)
  | 0, _, _ => .error s!"ZBF nesting exceeds {zbfMaxDepth}"
  | room + 1, bytes, refs => do
    checkZbf sha256 bytes
    if bytes.getD 15 0 = 0 then .ok refs
    else collectTable sha256 (collectZbfRefs room) (bytes.drop zbfHeaderLen) refs

def refsFromVerifiedBytes : Except String (List String) :=
  if bytes.length < zbfMagic.length ∨ bytes.take zbfMagic.length ≠ zbfMagic then .ok []
  else collectZbfRefs sha256 (zbfMaxDepth + 1) bytes []

end Model

mutual
def descendants : ZbfObject → List (List UInt8)
  | .leaf _ _ => []
  | .container _ children => descendantsAll children

def descendantsAll : List ZbfObject → List (List UInt8)
  | [] => []
  | child :: children => child.layout :: (descendants child ++ descendantsAll children)
end

theorem slices_encodeHeader (header : ZbfHeader) : (encodeHeader header).take zbfMagic.length = zbfMagic ∧
    slice (encodeHeader header) 8 10 = beBytes 2 header.schemaMajor.toNat ∧
    slice (encodeHeader header) 10 12 = beBytes 2 header.schemaMinor.toNat ∧
    slice (encodeHeader header) 15 16 = [header.flags] ∧
    slice (encodeHeader header) 16 24 = beBytes 8 header.payloadLen.toNat ∧
    slice (encodeHeader header) 152 184 = digestBytes header.payloadDigest ∧
    slice (encodeHeader header) 184 192 = List.replicate 8 0 := by
  have hmagic : zbfMagic.length = 8 := rfl
  have hdigest : ∀ d, (digestBytes d).length = 32 := fun d => length_beBytes 32 _
  have hone : ∀ b : UInt8, [b].length = 1 := fun _ => rfl
  unfold encodeHeader
  refine ⟨take_left, ?_, ?_, ?_, ?_, ?_, ?_⟩
  all_goals
    simp (disch := simp [hmagic, hdigest]) only [slice_skip, slice_here, hmagic, hdigest, hone, length_beBytes,
      Nat.reduceSub]
  rfl

variable {walk : List UInt8 → List String → Except String (List String)} {children : List ZbfObject} {room : ℕ}

section Decoded
variable {sha256 : List UInt8 → Sha256Digest} {profile : DurableProfile}

theorem flags_layout (o : ZbfObject) : o.layout.getD 15 0 = o.header.flags := by
  have hlt : 15 < (encodeHeader o.header).length := by
    rw [length_encodeHeader]
    decide
  obtain ⟨-, -, -, hflags, -⟩ := slices_encodeHeader o.header
  have hget : (encodeHeader o.header).getD 15 0 = (slice (encodeHeader o.header) 15 16).getD 0 0 := by
    simp [slice]
  rw [o.layout_eq, getD_append _ _ _ _ hlt, hget, hflags, getD_cons_zero]

theorem take_layout (o : ZbfObject) : o.layout.take zbfMagic.length = zbfMagic := by
  have hlong : zbfMagic.length ≤ (encodeHeader o.header).length := by
    rw [length_encodeHeader]
    decide
  rw [o.layout_eq, take_append_of_le_length hlong, (slices_encodeHeader o.header).1]

theorem checkZbf_layout {o : ZbfObject} (h : Canonical sha256 profile room o) : checkZbf sha256 o.layout = .ok () := by
  have hbinds := h.binds
  obtain ⟨hmajor, hminor, hflags, -⟩ := validateHeaderContract_eq_ok.mp hbinds.contract
  obtain ⟨-, hs8, hs10, -, hs16, hs152, hs184⟩ := slices_encodeHeader o.header
  have hhead : (encodeHeader o.header).length = 192 := length_encodeHeader o.header
  have hlength : o.layout.length = 192 + o.payload.length := o.length_layout
  have hadd : 192 + profile.maxPayloadBytes = zbfMaxObjectBytes := maxPayloadBytes_add profile
  have hmax : zbfMaxObjectBytes < 2 ^ 64 := maxObjectBytes_lt profile
  have hlen := hbinds.length
  have hbounded := hbinds.bounded
  have hword := o.header.payloadLen.toNat_lt
  have hslice : ∀ start stop, stop ≤ 192 → slice o.layout start stop = slice (encodeHeader o.header) start stop := by
    intro start stop hstop
    rw [o.layout_eq, slice_append_left (by omega)]
  unfold checkZbf
  simp only [hslice _ 10 (by omega), hslice _ 12 (by omega), hslice _ 24 (by omega), hslice _ 184 (by omega),
    hslice _ 192 (by omega), hs8, hs10, hs16, hs152, hs184, take_layout, o.drop_layout, flags_layout]
  rw [ofBe_beBytes (by simpa using UInt16.toNat_lt _), ofBe_beBytes (by simpa using UInt16.toNat_lt _),
    ofBe_beBytes (by simpa using hword)]
  unfold zbfHeaderLen
  rw [if_neg (by omega), if_neg (by omega), if_neg (not_not.mpr rfl), if_neg (by simp [hmajor, hminor]),
    if_neg (not_not.mpr hflags), if_neg (by simp), if_neg (by omega), if_neg (by omega), if_neg]
  rw [hbinds.digest]
  exact not_not.mpr rfl

def noteObjects (sha256 : List UInt8 → Sha256Digest) (refs : List String) (objects : List (List UInt8)) :
    Except String (List String) :=
  noteAll gcMaxBlobHashes s!"refs exceed {gcMaxBlobHashes}" refs (objects.map (contentSha256Hex sha256))

theorem collectFrames_frames {C : ZbfObject → Prop} (hlt : ∀ o, C o → o.layout.length < 256 ^ 8)
    (hwalk : ∀ o refs, C o → walk o.layout refs = noteObjects sha256 refs (descendants o))
    (hall : ∀ child ∈ children, C child) (refs : List String) :
    collectFrames sha256 walk children.length (frames children) refs =
      noteObjects sha256 refs (descendantsAll children) := by
  induction children generalizing refs with
  | nil => simp [collectFrames, frames, descendantsAll, noteObjects, noteAll]
  | cons child children ih =>
    rw [forall_mem_cons] at hall
    have hlong : 192 ≤ child.layout.length := by
      have hlength : child.layout.length = 192 + child.payload.length := child.length_layout
      omega
    have hfit := hlt child hall.1
    rw [length_cons, collectFrames, frames, append_assoc]
    simp only [take_word, drop_word, ofBe_beBytes hfit, take_left, drop_left, length_append]
    unfold zbfHeaderLen
    rw [if_neg (by omega), if_neg (by omega), if_neg (by omega), if_neg (by omega), descendantsAll, noteObjects,
      map_cons, noteAll, noteRef]
    cases hnote : note gcMaxBlobHashes s!"refs exceed {gcMaxBlobHashes}" refs
        (contentSha256Hex sha256 child.layout) with
    | error e => rfl
    | ok next =>
      simp only [bind, Except.bind, hwalk child next hall.1, noteObjects, map_append, noteAll_append]
      cases noteAll gcMaxBlobHashes s!"refs exceed {gcMaxBlobHashes}" next
          ((descendants child).map (contentSha256Hex sha256)) with
      | error e => rfl
      | ok last => exact ih hall.2 last

theorem collectZbfRefs_layout {o : ZbfObject} (h : Canonical sha256 profile room o) (refs : List String) :
    collectZbfRefs sha256 room o.layout refs = noteObjects sha256 refs (descendants o) := by
  induction room generalizing o refs with
  | zero => exact h.elim
  | succ room ih =>
    rw [collectZbfRefs, checkZbf_layout h, flags_layout, o.drop_layout]
    cases o with
    | leaf header bytes =>
      have hflags : header.flags = 0 := h.1
      simp only [ZbfObject.header, hflags]
      rfl
    | container header children =>
      obtain ⟨hflags, -, hle, -, hall⟩ := h
      have hne : header.flags ≠ 0 := by
        rw [hflags]
        decide
      have hcount : children.length < 256 ^ 4 := by
        have hmax : profile.maxChildren = 1024 := rfl
        omega
      have hmany : ¬zbfMaxChildren < children.length := Nat.not_lt.mpr hle
      have hrest := collectFrames_frames (fun _ hc => Canonical.length_layout_lt hc)
        (fun _ refs hc => ih hc refs) hall refs
      simp only [ZbfObject.header, ZbfObject.payload, if_neg hne, collectTable, take_word, ofBe_beBytes hcount,
        if_neg hmany]
      exact hrest

theorem refsFromVerifiedBytes_layout {o : ZbfObject} (h : Canonical sha256 profile (zbfMaxDepth + 1) o) :
    refsFromVerifiedBytes sha256 o.layout = noteObjects sha256 [] (descendants o) := by
  have hlength : zbfMagic.length ≤ o.layout.length := by
    have htake := congrArg List.length (take_layout o)
    rw [length_take] at htake
    omega
  rw [refsFromVerifiedBytes, if_neg (by simp [take_layout, hlength]), collectZbfRefs_layout h]

end Decoded

def delimit (child : List UInt8) : List UInt8 := beBytes 8 child.length ++ child

def ChildFrame (child bytes : List UInt8) : Prop :=
  ∃ (head : List UInt8) (count : ℕ) (before : List (List UInt8)) (after : List UInt8),
    head.length = zbfHeaderLen ∧ head.getD 15 0 = zbfContainerFlag ∧ before.length < count ∧ count < 256 ^ 4 ∧
      bytes = head ++ (beBytes 4 count ++ (before.flatMap delimit ++ (delimit child ++ after)))

def Embedded : List UInt8 → List UInt8 → Prop := Relation.TransGen ChildFrame

section Found
variable {sha256 : List UInt8 → Sha256Digest} {bytes : List UInt8} {refs refs' : List String}

theorem header_of_checkZbf (h : checkZbf sha256 bytes = .ok ()) :
    bytes.length ≤ zbfMaxObjectBytes ∧ zbfHeaderLen ≤ bytes.length ∧
      (bytes.getD 15 0 = 0 ∨ bytes.getD 15 0 = zbfContainerFlag) := by
  obtain ⟨hshort, h⟩ := guard_eq_ok.mp h
  obtain ⟨hlong, h⟩ := guard_eq_ok.mp h
  obtain ⟨-, h⟩ := guard_eq_ok.mp h
  obtain ⟨-, h⟩ := guard_eq_ok.mp h
  obtain ⟨hflags, -⟩ := guard_eq_ok.mp h
  exact ⟨Nat.not_lt.mp hshort, Nat.not_lt.mp hlong, known_flags _ (not_not.mp hflags)⟩

def Reports (sha256 : List UInt8 → Sha256Digest) (bytes : List UInt8) (refs refs' : List String) : Prop :=
  ∀ hash, hash ∈ refs' ↔ hash ∈ refs ∨ ∃ object, Embedded object bytes ∧ hash = contentSha256Hex sha256 object

theorem collectFrames_eq_ok (hwalk : ∀ bytes refs refs', walk bytes refs = .ok refs' → Reports sha256 bytes refs refs')
    {count : ℕ} {rest : List UInt8} (h : collectFrames sha256 walk count rest refs = .ok refs') :
    ∃ found : List (List UInt8), found.length = count ∧ rest = found.flatMap delimit ∧
      ∀ hash, hash ∈ refs' ↔ hash ∈ refs ∨ ∃ child ∈ found, ∃ object, Relation.ReflTransGen ChildFrame object child ∧
        hash = contentSha256Hex sha256 object := by
  induction count generalizing rest refs with
  | zero =>
    obtain ⟨hrest, h⟩ := guard_eq_ok.mp h
    cases h
    exact ⟨[], rfl, by simpa using hrest, by simp⟩
  | succ count ih =>
    obtain ⟨hlong, h⟩ := guard_eq_ok.mp h
    obtain ⟨-, h⟩ := guard_eq_ok.mp h
    obtain ⟨-, h⟩ := guard_eq_ok.mp h
    obtain ⟨hfits, h⟩ := guard_eq_ok.mp h
    obtain ⟨noted, hnoted, h⟩ := bind_eq_ok.mp h
    obtain ⟨walked, hwalked, h⟩ := bind_eq_ok.mp h
    obtain ⟨found, hlength, hrest, hmem⟩ := ih h
    have hchild : ((rest.drop 8).take (ofBe (rest.take 8))).length = ofBe (rest.take 8) :=
      length_take_of_le (Nat.not_lt.mp hfits)
    refine ⟨(rest.drop 8).take (ofBe (rest.take 8)) :: found, congrArg _ hlength, ?_, fun hash => ?_⟩
    · rw [flatMap_cons, ← hrest, delimit, hchild, (word_take hlong).2, append_assoc, take_append_drop,
        take_append_drop]
    · rw [hmem, hwalk _ _ _ hwalked, mem_note hnoted]
      simp only [exists_mem_cons_iff, Relation.reflTransGen_iff_eq_or_transGen, or_and_right, exists_or,
        exists_eq_left', or_assoc, Embedded]

theorem delimit_append_inj {a b as bs : List UInt8} (hfit : (delimit a ++ as).length < 256 ^ 8)
    (h : delimit a ++ as = delimit b ++ bs) : a = b ∧ as = bs := by
  have hshort : ∀ {x rest : List UInt8}, (delimit x ++ rest).length < 256 ^ 8 → x.length < 256 ^ 8 := by
    intro x rest hx
    simp only [delimit, length_append] at hx
    omega
  have ha := hshort hfit
  have hb := hshort (h ▸ hfit)
  simp only [delimit, append_assoc] at h
  obtain ⟨hword, h⟩ := append_inj h (by simp)
  exact append_inj h (beBytes_inj ha hb hword)

theorem mem_of_flatMap_delimit {found before : List (List UInt8)} {child after : List UInt8}
    (hfit : (found.flatMap delimit).length < 256 ^ 8) (hlt : before.length < found.length)
    (h : found.flatMap delimit = before.flatMap delimit ++ (delimit child ++ after)) : child ∈ found := by
  induction found generalizing before with
  | nil => exact absurd hlt (Nat.not_lt_zero _)
  | cons first found ih =>
    rw [flatMap_cons] at h hfit
    cases before with
    | nil =>
      obtain ⟨rfl, -⟩ := delimit_append_inj hfit h
      exact mem_cons_self
    | cons first' before =>
      rw [flatMap_cons, append_assoc] at h
      obtain ⟨rfl, htail⟩ := delimit_append_inj hfit h
      rw [length_append] at hfit
      exact mem_cons_of_mem _ (ih (by omega) (by simpa using hlt) htail)

theorem childFrame_iff {found : List (List UInt8)} (hshort : bytes.length < 256 ^ 8)
    (hlong : zbfHeaderLen ≤ bytes.length)
    (hflags : bytes.getD 15 0 = zbfContainerFlag) (htable : ¬(bytes.drop zbfHeaderLen).length < 4)
    (hlength : found.length = ofBe ((bytes.drop zbfHeaderLen).take 4))
    (hfound : (bytes.drop zbfHeaderLen).drop 4 = found.flatMap delimit) {child : List UInt8} :
    ChildFrame child bytes ↔ child ∈ found := by
  have hhead : (bytes.take zbfHeaderLen).length = zbfHeaderLen := length_take_of_le hlong
  obtain ⟨hcount, hround⟩ := word_take htable
  constructor
  · rintro ⟨head, count, before, after, hlen, -, hlt, hsmall, rfl⟩
    rw [drop_left' hlen, take_word, ofBe_beBytes hsmall] at hlength
    rw [drop_left' hlen, drop_word] at hfound
    refine mem_of_flatMap_delimit ?_ (hlength ▸ hlt) hfound.symm
    rw [← hfound]
    simp only [length_append] at hshort ⊢
    omega
  · intro hmem
    obtain ⟨before, after, rfl⟩ := append_of_mem hmem
    refine ⟨bytes.take zbfHeaderLen, _, before, after.flatMap delimit, hhead, ?_, ?_, hcount, ?_⟩
    · rw [← hflags]
      have hinside : 15 < (bytes.take zbfHeaderLen).length := by
        rw [hhead]
        decide
      conv_rhs => rw [← take_append_drop zbfHeaderLen bytes]
      rw [getD_append _ _ _ _ hinside]
    · rw [← hlength]
      simp
    · rw [flatMap_append, flatMap_cons] at hfound
      rw [hround, ← hfound, take_append_drop, take_append_drop]

theorem collectZbfRefs_reports (h : collectZbfRefs sha256 room bytes refs = .ok refs') :
    Reports sha256 bytes refs refs' := by
  induction room generalizing bytes refs refs' with
  | zero => cases h
  | succ room ih =>
    obtain ⟨⟨⟩, hcheck, h⟩ := bind_eq_ok.mp h
    obtain ⟨hshort, hlong, hflags⟩ := header_of_checkZbf hcheck
    have hmax : zbfMaxObjectBytes < 256 ^ 8 := by simp [zbfMaxObjectBytes]
    simp only [Reports, Embedded, Relation.TransGen.tail'_iff]
    intro hash
    split_ifs at h with hleaf
    · cases h
      have hnone : ∀ child, ¬ChildFrame child bytes := by
        rintro child ⟨head, count, before, after, hlen, hflag, -, -, rfl⟩
        rw [getD_append _ _ _ _ (by rw [hlen]; decide), hflag] at hleaf
        exact absurd hleaf (by decide)
      simp [hnone]
    · obtain ⟨htable, h⟩ := guard_eq_ok.mp h
      obtain ⟨-, h⟩ := guard_eq_ok.mp h
      obtain ⟨found, hlength, hfound, hmem⟩ := collectFrames_eq_ok (fun _ _ _ hwalk => ih hwalk) h
      have hframe := @childFrame_iff bytes found (by omega) hlong (hflags.resolve_left hleaf) htable hlength hfound
      simp only [hmem, hframe]
      grind

theorem mem_refs {refs : List String} (h : refsFromVerifiedBytes sha256 bytes = .ok refs) {hash : String} :
    hash ∈ refs ↔ zbfMagic <+: bytes ∧ ∃ object, Embedded object bytes ∧ hash = contentSha256Hex sha256 object := by
  unfold refsFromVerifiedBytes at h
  split_ifs at h with hnot
  · have hmagic : ¬zbfMagic <+: bytes := by
      intro hmagic
      rcases hnot with hlt | hne
      · exact absurd hmagic.length_le (Nat.not_le.mpr hlt)
      · exact hne (prefix_iff_eq_take.mp hmagic).symm
    cases h
    simp [hmagic]
  · rw [not_or, not_not] at hnot
    have hmagic : zbfMagic <+: bytes := prefix_iff_eq_take.mpr hnot.2.symm
    simp [collectZbfRefs_reports h hash, hmagic]

end Found

theorem contentSha256Hex_inj {sha256 : List UInt8 → Sha256Digest} {a b : List UInt8}
    (h : contentSha256Hex sha256 a = contentSha256Hex sha256 b) : sha256 a = sha256 b := by
  have hpow : 256 ^ 32 = 2 ^ 256 := by norm_num
  have hbytes : digestBytes (sha256 a) = digestBytes (sha256 b) :=
    hexPairs_injective (by decide) (String.ofList_injective h)
  apply BitVec.eq_of_toNat_eq
  exact beBytes_inj (hpow ▸ (sha256 a).isLt) (hpow ▸ (sha256 b).isLt) hbytes

section Crowded
variable (sha256 : List UInt8 → Sha256Digest) (profile : DurableProfile)

def crowdLeaf (i : ℕ) : ZbfObject :=
  .leaf (newHeader sha256 profile .effect .zeroStack 0 0 (BitVec.ofNat 256 i) 0 0 []) []

def crowdPack (children : List ZbfObject) : ZbfObject :=
  let payload := beBytes 4 children.length ++ frames children
  .container (newHeader sha256 profile .effect .zeroStack zbfContainerFlag 0 0 0 (UInt64.ofNat payload.length) payload)
    children

def crowdGroup (j : ℕ) : ZbfObject :=
  crowdPack sha256 profile ((List.range 1024).map fun i => crowdLeaf sha256 profile (1024 * j + i))

def crowd : ZbfObject := crowdPack sha256 profile ((List.range 65).map (crowdGroup sha256 profile))

variable {sha256 profile}

theorem length_table {n : ℕ} (h : ∀ child ∈ children, child.layout.length = n) :
    (beBytes 4 children.length ++ frames children).length = 4 + children.length * (8 + n) := by
  have hframes : (frames children).length = children.length * (8 + n) := by
    induction children with
    | nil => simp [frames]
    | cons child children ih =>
      rw [forall_mem_cons] at h
      simp only [frames, length_append, length_beBytes, h.1, ih h.2, length_cons]
      ring
  rw [length_append, length_beBytes, hframes]

theorem crowdPack_canonical {f : ℕ → ZbfObject} {n size : ℕ} (hroom : 0 < room)
    (hall : ∀ i, Canonical sha256 profile room (f i) ∧ (f i).layout.length = size) (hle : n ≤ 1024)
    (hfit : 4 + n * (8 + size) ≤ 16777024) :
    Canonical sha256 profile (room + 1) (crowdPack sha256 profile ((List.range n).map f)) ∧
      (crowdPack sha256 profile ((List.range n).map f)).layout.length = 196 + n * (8 + size) := by
  have hlen : ((List.range n).map f).length = n := by simp
  have hchildren : ∀ child ∈ (List.range n).map f, Canonical sha256 profile room child ∧
      child.layout.length = size := by
    intro child hc
    obtain ⟨i, -, rfl⟩ := mem_map.mp hc
    exact hall i
  have hlength := length_table fun child hc => (hchildren child hc).2
  rw [hlen] at hlength
  have hlt : 4 + n * (8 + size) < 2 ^ 64 := by omega
  constructor
  · refine ⟨rfl, newHeader_binds (by decide) ?_, hlen.trans_le hle, hroom, fun child hc => (hchildren child hc).1⟩
    rw [hlen, hlength]
    exact boundedPayloadLen_eq_ok.mpr ⟨hfit, UInt64.toNat_ofNat_of_lt' hlt⟩
  · have hwhole : (crowdPack sha256 profile ((List.range n).map f)).layout.length = 192 +
        (beBytes 4 ((List.range n).map f).length ++ frames ((List.range n).map f)).length := ZbfObject.length_layout _
    rw [hlen] at hwhole
    omega

theorem crowdLeaf_canonical (room i : ℕ) : Canonical sha256 profile (room + 1) (crowdLeaf sha256 profile i) ∧
      (crowdLeaf sha256 profile i).layout.length = 192 := by
  have hbinds : (newHeader sha256 profile .effect .zeroStack 0 0 (BitVec.ofNat 256 i) 0 0 []).Binds sha256 profile [] :=
    newHeader_binds (by decide) (boundedPayloadLen_eq_ok.mpr ⟨Nat.zero_le _, rfl⟩)
  exact ⟨⟨rfl, hbinds⟩, ZbfObject.length_layout _⟩

theorem crowdGroup_canonical (j : ℕ) : Canonical sha256 profile 16 (crowdGroup sha256 profile j) ∧
    (crowdGroup sha256 profile j).layout.length = 204996 :=
  crowdPack_canonical (by decide) (fun _ => crowdLeaf_canonical 14 _) le_rfl (by decide)

theorem crowd_canonical : Canonical sha256 profile (zbfMaxDepth + 1) (crowd sha256 profile) :=
  (crowdPack_canonical (by decide) crowdGroup_canonical (by decide) (by decide)).1

theorem crowdPack_assembled {f : ℕ → ZbfObject} {n : ℕ} (h : ∀ i, (f i).Assembled 0) :
    (crowdPack sha256 profile ((List.range n).map f)).Assembled 0 := by
  refine ⟨rfl, allAssembled_iff.mpr fun child hc => ?_⟩
  obtain ⟨i, -, rfl⟩ := mem_map.mp hc
  exact h i

theorem mem_descendantsAll {child : ZbfObject} (hchild : child ∈ children)
    {object : List UInt8} (h : object = child.layout ∨ object ∈ descendants child) :
    object ∈ descendantsAll children := by
  induction children with
  | nil => exact (not_mem_nil hchild).elim
  | cons first children ih =>
    rw [descendantsAll, mem_cons, mem_append]
    rcases mem_cons.mp hchild with rfl | hlater
    · tauto
    · exact .inr (.inr (ih hlater))

theorem descendants_crowdPack (children : List ZbfObject) :
    descendants (crowdPack sha256 profile children) = descendantsAll children := by
  rw [crowdPack, descendants]

theorem crowdLeaf_mem {i : ℕ} (h : i < 66560) :
    (crowdLeaf sha256 profile i).layout ∈ descendants (crowd sha256 profile) := by
  have hgroup : crowdGroup sha256 profile (i / 1024) ∈ (List.range 65).map (crowdGroup sha256 profile) :=
    mem_map.mpr ⟨i / 1024, mem_range.mpr (by omega), rfl⟩
  have hleaf : crowdLeaf sha256 profile i ∈
      (List.range 1024).map fun k => crowdLeaf sha256 profile (1024 * (i / 1024) + k) :=
    mem_map.mpr ⟨i % 1024, mem_range.mpr (by omega), by rw [Nat.div_add_mod]⟩
  have hinner := mem_descendantsAll hleaf (.inl rfl)
  rw [← descendants_crowdPack] at hinner
  exact mem_descendantsAll hgroup (.inr hinner)

theorem crowd_refs (hinj : ∀ i j, i < 66560 → j < 66560 → sha256 (crowdLeaf sha256 profile i).layout =
      sha256 (crowdLeaf sha256 profile j).layout → i = j) :
    gcMaxBlobHashes < ((descendants (crowd sha256 profile)).map (contentSha256Hex sha256)).eraseDups.length := by
  have hnodup : ((List.range 66560).map fun i =>
      contentSha256Hex sha256 (crowdLeaf sha256 profile i).layout).Nodup := by
    refine List.Nodup.map_on (fun i hi j hj h => ?_) nodup_range
    exact hinj i j (mem_range.mp hi) (mem_range.mp hj) (contentSha256Hex_inj h)
  have hsubset : ((List.range 66560).map fun i => contentSha256Hex sha256 (crowdLeaf sha256 profile i).layout) ⊆
      ((descendants (crowd sha256 profile)).map (contentSha256Hex sha256)).eraseDups := by
    intro hash hhash
    obtain ⟨i, hi, rfl⟩ := mem_map.mp hhash
    exact mem_eraseDups.mpr (mem_map.mpr ⟨_, crowdLeaf_mem (mem_range.mp hi), rfl⟩)
  have hle := hnodup.length_le_of_subset hsubset
  rw [length_map, length_range] at hle
  have hmax : gcMaxBlobHashes = 65536 := rfl
  omega

end Crowded

/-- Of a decodable object the walk reports the digests of all transitive children, each once and in pre-order, if
there are at most `gcMaxBlobHashes`, and fails otherwise. Of any bytes with the magic it fails, or reports the digest
of every frame at any depth. -/
theorem refs_of_decoded (sha256 : List UInt8 → Sha256Digest) (profile : DurableProfile) :
    (∀ (d : Sha256Digest) (bytes : List UInt8) (o : ZbfObject), fromBytes sha256 profile d bytes = .ok o →
      refsFromVerifiedBytes sha256 bytes =
        if ((descendants o).map (contentSha256Hex sha256)).eraseDups.length ≤ gcMaxBlobHashes then
          .ok ((descendants o).map (contentSha256Hex sha256)).eraseDups else .error s!"refs exceed {gcMaxBlobHashes}") ∧
    ∀ (bytes : List UInt8) (refs : List String), zbfMagic <+: bytes → refsFromVerifiedBytes sha256 bytes = .ok refs →
        ∀ object, Embedded object bytes → contentSha256Hex sha256 object ∈ refs := by
  constructor
  · intro d bytes o h
    obtain ⟨⟨hcanonical, -⟩, rfl⟩ := (decodeObject_eq_ok ..).mp h
    rw [refsFromVerifiedBytes_layout hcanonical, noteObjects, noteAll_eq nodup_nil (Nat.zero_le _),
      nil_append]
  · intro bytes refs hmagic h object hobject
    exact (mem_refs h).mpr ⟨hmagic, object, hobject, rfl⟩

theorem nestedPlan_digests {leaf inner : ZbfObject} (hleaf : ∃ header, leaf = .leaf header [1, 2])
    (hinner : ∃ header, inner = .container header [leaf, leaf]) :
    contentSha256Hex lengthDigest leaf.layout ≠ contentSha256Hex lengthDigest inner.layout := by
  obtain ⟨leafHeader, rfl⟩ := hleaf
  obtain ⟨innerHeader, rfl⟩ := hinner
  have hlength : (ZbfObject.leaf leafHeader [1, 2]).layout.length = 194 := ZbfObject.length_layout _
  have hwhole : (ZbfObject.container innerHeader
      [.leaf leafHeader [1, 2], .leaf leafHeader [1, 2]]).layout.length = 600 := by
    have hboth : ∀ child ∈ [ZbfObject.leaf leafHeader [1, 2], .leaf leafHeader [1, 2]], child.layout.length = 194 :=
      forall_mem_cons.mpr ⟨hlength, forall_mem_singleton.mpr hlength⟩
    rw [ZbfObject.length_layout, ZbfObject.payload, length_table hboth]
    simp [zbfHeaderLen]
  intro heq
  have hdigest := contentSha256Hex_inj heq
  rw [lengthDigest, lengthDigest, hlength, hwhole] at hdigest
  exact absurd hdigest (by decide)

theorem nested_plan_refs : ∃ leaf inner outer, nestedPlan = .ok (leaf, inner, outer) ∧
    refsFromVerifiedBytes lengthDigest outer.layout =
      .ok [contentSha256Hex lengthDigest leaf.layout, contentSha256Hex lengthDigest inner.layout] := by
  obtain ⟨leaf, inner, outer, hplan, hleaf, hinner, ⟨header, rfl⟩, hassembled, hcanonical⟩ := nestedPlan_eq
  have hne := nestedPlan_digests hleaf hinner
  have hdecoded := (decodeObject_eq_ok ..).mpr ⟨⟨hcanonical, hassembled⟩, rfl⟩
  have hrefs := (refs_of_decoded lengthDigest ⟨.portableStrict⟩).1 7 _ _ hdecoded
  have hnone : descendants leaf = [] := by
    obtain ⟨_, rfl⟩ := hleaf
    rw [descendants]
  have htwo : descendants inner = [leaf.layout, leaf.layout] := by
    obtain ⟨_, rfl⟩ := hinner
    simp [descendants, descendantsAll, hnone]
  have hall : ((descendants (.container header [leaf, inner, leaf])).map (contentSha256Hex lengthDigest)).eraseDups =
      [contentSha256Hex lengthDigest leaf.layout, contentSha256Hex lengthDigest inner.layout] := by
    simp [descendants, descendantsAll, hnone, htwo, eraseDups_cons, hne.symm]
  have hfew : 2 ≤ gcMaxBlobHashes := by decide
  rw [hall, if_pos] at hrefs
  · exact ⟨leaf, inner, _, hplan, hrefs⟩
  · exact hfew

def decodedRoot (bytes : List UInt8) : Sha256Digest := ((decodeHeader bytes).toOption.map (·.sourceRootDigest)).getD 0

theorem decodedRoot_crowdLeaf (sha256 : List UInt8 → Sha256Digest) (profile : DurableProfile) (i : ℕ) :
    decodedRoot (crowdLeaf sha256 profile i).layout = BitVec.ofNat 256 i := by
  have hshort : (crowdLeaf sha256 profile i).layout.length < 2 ^ 64 := by
    rw [(crowdLeaf_canonical 0 i).2]
    decide
  rw [decodedRoot, (decodeHeader_eq_ok hshort).mpr (append_nil _)]
  rfl

/-- An object that decodes and whose references the walk refuses to report. -/
theorem decoded_refs_refused : ∃ (sha256 : List UInt8 → Sha256Digest) (bytes : List UInt8) (o : ZbfObject),
      fromBytes sha256 ⟨.portableStrict⟩ 0 bytes = .ok o ∧
        refsFromVerifiedBytes sha256 bytes = .error "refs exceed 65536" := by
  have hinj : ∀ i j, i < 66560 → j < 66560 → decodedRoot (crowdLeaf decodedRoot ⟨.portableStrict⟩ i).layout =
        decodedRoot (crowdLeaf decodedRoot ⟨.portableStrict⟩ j).layout → i = j := by
    intro i j hi hj h
    rw [decodedRoot_crowdLeaf, decodedRoot_crowdLeaf] at h
    have hnat := congrArg BitVec.toNat h
    simp only [BitVec.toNat_ofNat] at hnat
    omega
  have hmany := crowd_refs hinj
  refine ⟨decodedRoot, (crowd decodedRoot ⟨.portableStrict⟩).layout, crowd decodedRoot ⟨.portableStrict⟩, ?_, ?_⟩
  · exact (decodeObject_eq_ok ..).mpr
      ⟨⟨crowd_canonical, crowdPack_assembled fun _ => crowdPack_assembled fun _ => rfl⟩, rfl⟩
  · rw [refsFromVerifiedBytes_layout crowd_canonical, noteObjects, noteAll_eq nodup_nil (Nat.zero_le _),
      nil_append, if_neg (Nat.not_le.mpr hmany)]
    rfl

end Zero.Gc
