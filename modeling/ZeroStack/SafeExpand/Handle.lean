import ZeroStack.Identity.Rooted

/-! Handles for one exact expansion: a set of bindings under two seals, a keyed one that only the issuer can compute
and a root over everything. -/

open Wire Zero.Identity

namespace Zero.SafeExpand

def safeExpandContractVersion : ℕ := 1
def safeExpandMacDomain : List UInt8 := utf8Bytes "zerostack.safe_expand.issuance" ++ [0]
def maxSafeExpandStringBytes : ℕ := 256

inductive SafetyVerdict where
  | safe
  | notSafe (reasons : List String)
  | unknown (reasons : List String)
  deriving DecidableEq, Inhabited

inductive SafeExpandError where
  | wrongAbiVersion (actual : String)
  | zeroRoot (field : String)
  | emptyString (field : String)
  | stringTooLong (field : String) (actual maximum : ℕ)
  | controlCharacter (field : String)
  | zeroIssueNonce
  | unsafeCompleteness (reasons : List String)
  | unknownCompleteness (reasons : List String)
  | missingCertificateRoot
  | hiddenRetryAtIssuance
  | forgedHandle
  | tamperedHandle
  | invalidHandle (detail : String)
  deriving DecidableEq

structure CompletenessBinding where
  certificateRoot : Sha256Digest
  verdict : SafetyVerdict
  checkerIdentity : String
  checkerVersion : String
  firstAttempt : Bool
  deriving DecidableEq, Inhabited

abbrev CompletenessEvidence := CompletenessBinding

structure SafeExpandIssueRequest where
  projectRoot : Sha256Digest
  requestRoot : Sha256Digest
  protectedScopeRoot : Sha256Digest
  demandPlanRoot : Sha256Digest
  indexRoot : Sha256Digest
  indexVersion : String
  rendererContract : Sha256Digest
  tenant : String
  epoch : ℕ
  projectionRoot : Sha256Digest
  completeness : CompletenessEvidence
  issueNonce : Sha256Digest
  deriving DecidableEq

structure SafeExpandHandle where
  abiVersion : String
  handleVersion : ℕ
  projectRoot : Sha256Digest
  requestRoot : Sha256Digest
  protectedScopeRoot : Sha256Digest
  demandPlanRoot : Sha256Digest
  indexRoot : Sha256Digest
  indexVersion : String
  rendererContract : Sha256Digest
  tenant : String
  epoch : ℕ
  projectionRoot : Sha256Digest
  completeness : CompletenessBinding
  issueNonce : Sha256Digest
  handleId : Sha256Digest
  issuanceMac : Sha256Digest
  deriving DecidableEq, Inhabited

def isControl (c : Char) : Bool := c.toNat < 32 || (127 ≤ c.toNat && c.toNat < 160)

def validateString (field value : String) : Except SafeExpandError Unit :=
  if value = "" then .error (.emptyString field)
  else if maxSafeExpandStringBytes < value.utf8ByteSize then
    .error (.stringTooLong field value.utf8ByteSize maxSafeExpandStringBytes)
  else if value.toList.any isControl then .error (.controlCharacter field)
  else .ok ()

def CompletenessBinding.validate (evidence : CompletenessEvidence) : Except SafeExpandError Unit := do
  match evidence.verdict with
  | .safe => pure ()
  | .notSafe reasons => throw (.unsafeCompleteness reasons)
  | .unknown reasons => throw (.unknownCompleteness reasons)
  if evidence.certificateRoot = Sha256Digest.zero then throw .missingCertificateRoot
  validateString "checker_identity" evidence.checkerIdentity
  validateString "checker_version" evidence.checkerVersion
  if !evidence.firstAttempt then throw .hiddenRetryAtIssuance

def checkRoots : List (String × Sha256Digest) → Except SafeExpandError Unit
  | [] => .ok ()
  | (field, root) :: rest => if root = Sha256Digest.zero then .error (.zeroRoot field) else checkRoots rest

def SafeExpandIssueRequest.validate (r : SafeExpandIssueRequest) : Except SafeExpandError Unit := do
  checkRoots [("project_root", r.projectRoot), ("request_root", r.requestRoot),
    ("protected_scope_root", r.protectedScopeRoot), ("demand_plan_root", r.demandPlanRoot),
    ("index_root", r.indexRoot), ("renderer_contract", r.rendererContract), ("projection_root", r.projectionRoot)]
  validateString "index_version" r.indexVersion
  validateString "tenant" r.tenant
  if r.issueNonce = Sha256Digest.zero then throw .zeroIssueNonce
  r.completeness.validate

def SafetyVerdict.json : SafetyVerdict → Json
  | .safe => .text "safe"
  | .notSafe reasons => .obj [("unsafe", .obj [("reasons", .arr (reasons.map .text))])]
  | .unknown reasons => .obj [("unknown", .obj [("reasons", .arr (reasons.map .text))])]

def CompletenessBinding.json (c : CompletenessBinding) : Json :=
  .obj [("certificate_root", c.certificateRoot.json), ("checker_identity", .text c.checkerIdentity),
    ("checker_version", .text c.checkerVersion), ("first_attempt", .bool c.firstAttempt), ("verdict", c.verdict.json)]

namespace SafeExpandHandle

def canonicalValue (h : SafeExpandHandle) : List (String × Json) :=
  [("abi_version", .text h.abiVersion), ("completeness", h.completeness.json),
    ("demand_plan_root", h.demandPlanRoot.json), ("epoch", .nat h.epoch), ("handle_id", h.handleId.json),
    ("handle_version", .nat h.handleVersion), ("index_root", h.indexRoot.json),
    ("index_version", .text h.indexVersion), ("issuance_mac", h.issuanceMac.json),
    ("issue_nonce", h.issueNonce.json), ("project_root", h.projectRoot.json),
    ("projection_root", h.projectionRoot.json), ("protected_scope_root", h.protectedScopeRoot.json),
    ("renderer_contract", h.rendererContract.json), ("request_root", h.requestRoot.json), ("tenant", .text h.tenant)]

end SafeExpandHandle

def removeMember (name : String) (members : List (String × Json)) : List (String × Json) :=
  members.filter fun m => m.1 ≠ name

section Seals
variable (sha256 : List UInt8 → Sha256Digest)

def hmacSha256 (key : Sha256Digest) (message : List UInt8) : Sha256Digest :=
  let keyBlock := digestBytes key ++ List.replicate 32 0
  sha256 (keyBlock.map (· ^^^ 0x5c) ++ digestBytes (sha256 (keyBlock.map (· ^^^ 0x36) ++ message)))

variable (secret : Sha256Digest)

def computeIssuanceMac (payload : List UInt8) : Sha256Digest :=
  hmacSha256 sha256 secret (safeExpandMacDomain ++ payload)

namespace SafeExpandHandle

def sealedPayload (h : SafeExpandHandle) : List UInt8 :=
  (Json.obj (removeMember "issuance_mac" (removeMember "handle_id" h.canonicalValue))).canonical

def computeId (h : SafeExpandHandle) : Except SafeExpandError Sha256Digest :=
  Except.mapError (fun error => SafeExpandError.invalidHandle error.display) do
    let bytes ← canonicalObjectBytes .safeExpandHandle rootedAbiVersion
      (.obj (removeMember "handle_id" h.canonicalValue))
    objectRoot sha256 .safeExpandHandle rootedAbiVersion bytes

end SafeExpandHandle

def issue (request : SafeExpandIssueRequest) : Except SafeExpandError SafeExpandHandle := do
  request.validate
  let unsealed : SafeExpandHandle := {
    abiVersion := rootedAbiVersion
    handleVersion := safeExpandContractVersion
    projectRoot := request.projectRoot
    requestRoot := request.requestRoot
    protectedScopeRoot := request.protectedScopeRoot
    demandPlanRoot := request.demandPlanRoot
    indexRoot := request.indexRoot
    indexVersion := request.indexVersion
    rendererContract := request.rendererContract
    tenant := request.tenant
    epoch := request.epoch
    projectionRoot := request.projectionRoot
    completeness := request.completeness
    issueNonce := request.issueNonce
    handleId := Sha256Digest.zero
    issuanceMac := Sha256Digest.zero }
  let marked := { unsealed with issuanceMac := computeIssuanceMac sha256 secret unsealed.sealedPayload }
  let id ← marked.computeId sha256
  return { marked with handleId := id }

def verify (h : SafeExpandHandle) : Except SafeExpandError Unit :=
  if h.abiVersion ≠ rootedAbiVersion then .error (.wrongAbiVersion h.abiVersion)
  else if h.handleVersion ≠ safeExpandContractVersion then
    .error (.invalidHandle s!"unsupported handle version {h.handleVersion}")
  else if h.issuanceMac ≠ computeIssuanceMac sha256 secret h.sealedPayload then .error .forgedHandle
  else do
    let expectedId ← h.computeId sha256
    if h.handleId ≠ expectedId then .error .tamperedHandle
    else .ok ()

end Seals

theorem SafetyVerdict.json_inj : Function.Injective SafetyVerdict.json := by
  have htexts : Function.Injective (List.map Json.text) :=
    List.map_injective_iff.mpr fun _ _ h => Json.text_inj.mp h
  intro v w h
  cases v <;> cases w <;>
    simp only [json, Json.obj.injEq, List.cons.injEq, Prod.mk.injEq, Json.arr.injEq, and_true, true_and,
      reduceCtorEq, Json.text, String.reduceEq, false_and] at h ⊢
  · exact congrArg _ (htexts h)
  · exact congrArg _ (htexts h)

theorem CompletenessBinding.json_inj : Function.Injective CompletenessBinding.json := by
  rintro ⟨root, verdict, identity, version, first⟩ ⟨root', verdict', identity', version', first'⟩ h
  simp only [json, Json.obj.injEq, List.cons.injEq, Prod.mk.injEq, Json.text_inj, Json.bool.injEq, true_and,
    and_true] at h
  obtain ⟨hroot, rfl, rfl, rfl, hverdict⟩ := h
  rw [Sha256Digest.json_inj hroot, SafetyVerdict.json_inj hverdict]

namespace SafeExpandHandle

def unsealed (h : SafeExpandHandle) : SafeExpandHandle :=
  { h with handleId := Sha256Digest.zero, issuanceMac := Sha256Digest.zero }

theorem removeMember_seals (h : SafeExpandHandle) :
    removeMember "issuance_mac" (removeMember "handle_id" h.canonicalValue) =
    [("abi_version", .text h.abiVersion), ("completeness", h.completeness.json),
      ("demand_plan_root", h.demandPlanRoot.json), ("epoch", .nat h.epoch),
      ("handle_version", .nat h.handleVersion), ("index_root", h.indexRoot.json),
      ("index_version", .text h.indexVersion), ("issue_nonce", h.issueNonce.json),
      ("project_root", h.projectRoot.json), ("projection_root", h.projectionRoot.json),
      ("protected_scope_root", h.protectedScopeRoot.json), ("renderer_contract", h.rendererContract.json),
      ("request_root", h.requestRoot.json), ("tenant", .text h.tenant)] := by
  simp [removeMember, canonicalValue]

variable {g h : SafeExpandHandle}

theorem sealedPayload_congr (hbindings : g.unsealed = h.unsealed) : g.sealedPayload = h.sealedPayload := by
  have hunsealed : ∀ h : SafeExpandHandle, h.unsealed.sealedPayload = h.sealedPayload := by
    intro h
    rw [sealedPayload, removeMember_seals]
    rfl
  rw [← hunsealed g, hbindings, hunsealed h]

theorem sealedPayload_inj (hpayload : g.sealedPayload = h.sealedPayload) : g.unsealed = h.unsealed := by
  have hmembers := Json.obj.inj (Json.canonical_inj hpayload)
  rw [removeMember_seals, removeMember_seals] at hmembers
  simp only [List.cons.injEq, Prod.mk.injEq, Json.text_inj, Json.nat_inj, Sha256Digest.json_inj.eq_iff,
    CompletenessBinding.json_inj.eq_iff] at hmembers
  simp only [unsealed, hmembers]

theorem ext_of_unsealed (hbindings : g.unsealed = h.unsealed)
    (hmac : g.issuanceMac = h.issuanceMac) (hid : g.handleId = h.handleId) : g = h := by
  have hg : g = { g.unsealed with handleId := g.handleId, issuanceMac := g.issuanceMac } := rfl
  rw [hg, hbindings, hmac, hid]
  rfl

variable (sha256 : List UInt8 → Sha256Digest)

def rootId (h : SafeExpandHandle) : Sha256Digest :=
  sha256 (rootPreimage .safeExpandHandle rootedAbiVersion
    (Json.obj (removeMember "handle_id" h.canonicalValue)).canonical)

variable {sha256}

theorem rootId_withId (h : SafeExpandHandle) (id : Sha256Digest) :
    ({ h with handleId := id } : SafeExpandHandle).rootId sha256 = h.rootId sha256 := by
  simp [rootId, removeMember, canonicalValue]

theorem rootId_congr (hbindings : g.unsealed = h.unsealed)
    (hmac : g.issuanceMac = h.issuanceMac) : g.rootId sha256 = h.rootId sha256 := by
  rw [← rootId_withId g h.handleId]
  exact congrArg (rootId sha256) (ext_of_unsealed hbindings hmac rfl)

end SafeExpandHandle

section Verify
variable {sha256 : List UInt8 → Sha256Digest} {secret : Sha256Digest}

theorem verify_eq_ok {h : SafeExpandHandle} : verify sha256 secret h = .ok () ↔
    h.abiVersion = rootedAbiVersion ∧ h.handleVersion = safeExpandContractVersion ∧
      h.issuanceMac = computeIssuanceMac sha256 secret h.sealedPayload ∧ h.handleId = h.rootId sha256 := by
  have hid : (do
      let expectedId ← h.computeId sha256
      if h.handleId ≠ expectedId then .error .tamperedHandle else .ok ()) =
        if h.handleId ≠ h.rootId sha256 then .error SafeExpandError.tamperedHandle else .ok () := by
    rfl
  rw [verify, guard_eq_ok, guard_eq_ok, guard_eq_ok, hid, guard_eq_ok]
  simp only [not_not, and_true]

theorem verify_issue {request : SafeExpandIssueRequest} {h : SafeExpandHandle}
    (hissue : issue sha256 secret request = .ok h) : verify sha256 secret h = .ok () := by
  obtain ⟨-, -, hissue⟩ := bind_eq_ok.mp hissue
  obtain ⟨id, hid, hissue⟩ := bind_eq_ok.mp hissue
  cases hid
  cases hissue
  refine verify_eq_ok.mpr ⟨rfl, rfl, ?_, ?_⟩
  · exact congrArg (computeIssuanceMac sha256 secret) (SafeExpandHandle.sealedPayload_congr rfl)
  · exact (SafeExpandHandle.rootId_withId _ _).symm

theorem validateString_ne {field value : String} (h : validateString field value = .ok ()) : value ≠ "" := by
  rintro rfl
  cases h

theorem CompletenessBinding.of_validate {evidence : CompletenessEvidence} (h : evidence.validate = .ok ()) :
    evidence.certificateRoot ≠ Sha256Digest.zero ∧ evidence.checkerIdentity ≠ "" ∧ evidence.checkerVersion ≠ "" := by
  unfold CompletenessBinding.validate at h
  cases hverdict : evidence.verdict with
  | notSafe reasons | unknown reasons =>
    rw [hverdict] at h
    cases h
  | safe =>
    rw [hverdict] at h
    by_cases hroot : evidence.certificateRoot = Sha256Digest.zero
    · rw [if_pos hroot] at h
      cases h
    · rw [if_neg hroot] at h
      obtain ⟨⟨⟩, hidentity, h⟩ := bind_eq_ok.mp h
      obtain ⟨⟨⟩, hversion, -⟩ := bind_eq_ok.mp h
      exact ⟨hroot, validateString_ne hidentity, validateString_ne hversion⟩

theorem completeness_issue {request : SafeExpandIssueRequest} {h : SafeExpandHandle}
    (hissue : issue sha256 secret request = .ok h) : h.completeness.certificateRoot ≠ Sha256Digest.zero ∧
      h.completeness.checkerIdentity ≠ "" ∧ h.completeness.checkerVersion ≠ "" := by
  obtain ⟨⟨⟩, hvalid, hissue⟩ := bind_eq_ok.mp hissue
  obtain ⟨id, -, hissue⟩ := bind_eq_ok.mp hissue
  cases hissue
  obtain ⟨⟨⟩, -, hvalid⟩ := bind_eq_ok.mp hvalid
  obtain ⟨⟨⟩, -, hvalid⟩ := bind_eq_ok.mp hvalid
  obtain ⟨⟨⟩, -, hvalid⟩ := bind_eq_ok.mp hvalid
  dsimp only at hvalid
  split_ifs at hvalid
  · cases hvalid
  · exact CompletenessBinding.of_validate hvalid

/-- The handles that the issuer returned: no two of their messages, nor that of the handle at hand, have one code, and
a handle at hand with the code of its own message got it from one of them. -/
structure Guarded (sha256 : List UInt8 → Sha256Digest) (secret : Sha256Digest) (issued : List SafeExpandHandle)
    (h : SafeExpandHandle) : Prop where
  returned : ∀ g ∈ issued, ∃ request, issue sha256 secret request = .ok g
  injective : Set.InjOn (hmacSha256 sha256 secret)
    { message | ∃ g ∈ h :: issued, message = safeExpandMacDomain ++ g.sealedPayload }
  unforged : h.issuanceMac = computeIssuanceMac sha256 secret h.sealedPayload →
    ∃ g ∈ issued, g.issuanceMac = h.issuanceMac

theorem Guarded.verify_iff {issued : List SafeExpandHandle} {h : SafeExpandHandle}
    (hguarded : Guarded sha256 secret issued h) : verify sha256 secret h = .ok () ↔ h ∈ issued := by
  constructor
  · intro hverify
    obtain ⟨-, -, hmac, hid⟩ := verify_eq_ok.mp hverify
    obtain ⟨g, hg, hsame⟩ := hguarded.unforged hmac
    obtain ⟨request, hissue⟩ := hguarded.returned g hg
    obtain ⟨-, -, hgmac, hgid⟩ := verify_eq_ok.mp (verify_issue hissue)
    have hmessage : safeExpandMacDomain ++ h.sealedPayload = safeExpandMacDomain ++ g.sealedPayload := by
      refine hguarded.injective ⟨h, List.mem_cons_self, rfl⟩ ⟨g, List.mem_cons_of_mem _ hg, rfl⟩ ?_
      show computeIssuanceMac sha256 secret h.sealedPayload = computeIssuanceMac sha256 secret g.sealedPayload
      rw [← hmac, ← hgmac, hsame]
    have hbindings : h.unsealed = g.unsealed :=
      SafeExpandHandle.sealedPayload_inj (List.append_cancel_left hmessage)
    have hroot : h.rootId sha256 = g.rootId sha256 := SafeExpandHandle.rootId_congr hbindings hsame.symm
    have heq : h = g := SafeExpandHandle.ext_of_unsealed hbindings hsame.symm (by rw [hid, hgid, hroot])
    rw [heq]
    exact hg
  · intro hmem
    obtain ⟨request, hissue⟩ := hguarded.returned h hmem
    exact verify_issue hissue

end Verify
end Zero.SafeExpand
