import ZeroStack.Abi
import ZeroStack.Wire.Messages

/-! The semantic cut: a claim that the compiled plan ends where the baseline does, under a certificate that binds the
claim, the evidence for it and the verifier. -/

open Wire Function

namespace Zero.SemanticCut

def semanticCutContractVersion : UInt16 := 1
def semanticCutSchemaVersion : String := "racc-r-semantic-cut"
def semanticCutMaxCanonicalBytes : ℕ := 64 * 1024

def claimDomain : List UInt8 := utf8Bytes "zerostack.semantic_cut.claim" ++ [0]
def certificateDomain : List UInt8 := utf8Bytes "zerostack.semantic_cut.certificate" ++ [0]
def rcqDomain : List UInt8 := utf8Bytes "zerostack.semantic_cut.rcq_identity" ++ [0]

inductive SemanticCutFailureCode where
  | schemaVersionMismatch
  | missingBinding
  | semanticAuthorityCrossing
  | continuationNotExact
  | terminalStateMismatch
  | externalEffectMismatch
  | attributionMismatch
  | canonicalPayloadTooLarge
  | certificateDigestMismatch
  deriving DecidableEq

def SemanticCutFailureCode.debug : SemanticCutFailureCode → String
  | .schemaVersionMismatch => "SchemaVersionMismatch"
  | .missingBinding => "MissingBinding"
  | .semanticAuthorityCrossing => "SemanticAuthorityCrossing"
  | .continuationNotExact => "ContinuationNotExact"
  | .terminalStateMismatch => "TerminalStateMismatch"
  | .externalEffectMismatch => "ExternalEffectMismatch"
  | .attributionMismatch => "AttributionMismatch"
  | .canonicalPayloadTooLarge => "CanonicalPayloadTooLarge"
  | .certificateDigestMismatch => "CertificateDigestMismatch"

structure SemanticCutError where
  failureCode : SemanticCutFailureCode
  message : String
  deriving DecidableEq

def SemanticCutError.display (e : SemanticCutError) : String := s!"{e.failureCode.debug}: {e.message}"

inductive ReasoningStateStatus where
  | exactPreserved
  | exactCleanRestart
  | scopedEquivalent
  | approximate
  | unavailable
  | expired
  | identityMismatch
  deriving DecidableEq

inductive SemanticAuthority where
  | deterministicOnly
  | taskSemanticSelection
  deriving DecidableEq

structure ReasoningSafepoint where
  schemaVersion : String
  projectControlRoot : Sha256Digest
  worldFiberDigest : Sha256Digest
  evidenceStateDigest : Sha256Digest
  reasoningContractDigest : Sha256Digest
  fixedModelDigest : Sha256Digest
  opaqueReasoningStateDigest : Sha256Digest
  reasoningStateStatus : ReasoningStateStatus
  openObligationsDigest : Sha256Digest
  resourceRiskReserveDigest : Sha256Digest
  baselineReplayCursorDigest : Sha256Digest
  transactionRootDigest : Sha256Digest
  receiptHeadDigest : Sha256Digest
  deriving DecidableEq

structure SemanticCutClaim where
  schemaVersion : String
  inputProjectControlRoot : Sha256Digest
  baselineEpochClassDigest : Sha256Digest
  compiledPlanDigest : Sha256Digest
  semanticAuthority : SemanticAuthority
  baselineTerminal : ReasoningSafepoint
  compiledTerminal : ReasoningSafepoint
  baselineExternalEffectsDigest : Sha256Digest
  compiledExternalEffectsDigest : Sha256Digest
  baselineAttributionIdentityDigest : Sha256Digest
  compiledAttributionIdentityDigest : Sha256Digest
  baselineResourceReceiptDigest : Sha256Digest
  compiledResourceReceiptDigest : Sha256Digest
  comparisonIdentityDigest : Sha256Digest
  certificateScopeDigest : Sha256Digest
  deoptimizationMapDigest : Sha256Digest
  deriving DecidableEq

@[ext]
structure SemanticCutCertificateRecord where
  contractVersion : UInt16
  claim : SemanticCutClaim
  claimDigest : Sha256Digest
  evidenceDigest : Sha256Digest
  verifierIdentityDigest : Sha256Digest
  certificateDigest : Sha256Digest
  deriving DecidableEq

abbrev SemanticCutEvidence := SemanticCutCertificateRecord

def requireNonzero (label : String) (digest : Sha256Digest) : Except SemanticCutError Unit :=
  if digest = Sha256Digest.zero then .error ⟨.missingBinding, s!"{label} digest is zero"⟩ else .ok ()

def requireAllNonzero : List (String × Sha256Digest) → Except SemanticCutError Unit
  | [] => .ok ()
  | (label, digest) :: rest => do
    requireNonzero label digest
    requireAllNonzero rest

/-- A digest that is a plain array is serialized as the numbers of its bytes. -/
def bytesJson (d : Sha256Digest) : Json := .arr ((digestBytes d).map fun b => .nat b.toNat)

def ReasoningStateStatus.text : ReasoningStateStatus → String
  | .exactPreserved => "exact_preserved"
  | .exactCleanRestart => "exact_clean_restart"
  | .scopedEquivalent => "scoped_equivalent"
  | .approximate => "approximate"
  | .unavailable => "unavailable"
  | .expired => "expired"
  | .identityMismatch => "identity_mismatch"

def SemanticAuthority.text : SemanticAuthority → String
  | .deterministicOnly => "deterministic_only"
  | .taskSemanticSelection => "task_semantic_selection"

namespace ReasoningSafepoint

def validate (s : ReasoningSafepoint) : Except SemanticCutError Unit :=
  if s.schemaVersion ≠ semanticCutSchemaVersion then
    .error ⟨.schemaVersionMismatch, "reasoning safepoint schema is unsupported"⟩
  else requireAllNonzero [("project/control root", s.projectControlRoot), ("world fiber", s.worldFiberDigest),
    ("evidence state", s.evidenceStateDigest), ("reasoning contract", s.reasoningContractDigest),
    ("fixed model", s.fixedModelDigest), ("opaque reasoning state", s.opaqueReasoningStateDigest),
    ("open obligations", s.openObligationsDigest), ("resource/risk reserve", s.resourceRiskReserveDigest),
    ("baseline replay cursor", s.baselineReplayCursorDigest), ("transaction root", s.transactionRootDigest),
    ("receipt head", s.receiptHeadDigest)]

def exactContinuationEqual (s t : ReasoningSafepoint) : Bool :=
  s.projectControlRoot = t.projectControlRoot && s.worldFiberDigest = t.worldFiberDigest &&
    s.evidenceStateDigest = t.evidenceStateDigest && s.reasoningContractDigest = t.reasoningContractDigest &&
    s.fixedModelDigest = t.fixedModelDigest && s.opaqueReasoningStateDigest = t.opaqueReasoningStateDigest &&
    s.openObligationsDigest = t.openObligationsDigest &&
    s.resourceRiskReserveDigest = t.resourceRiskReserveDigest &&
    s.baselineReplayCursorDigest = t.baselineReplayCursorDigest && s.transactionRootDigest = t.transactionRootDigest

def json (s : ReasoningSafepoint) : Json :=
  .obj [("baseline_replay_cursor_digest", bytesJson s.baselineReplayCursorDigest),
    ("evidence_state_digest", bytesJson s.evidenceStateDigest), ("fixed_model_digest", bytesJson s.fixedModelDigest),
    ("opaque_reasoning_state_digest", bytesJson s.opaqueReasoningStateDigest),
    ("open_obligations_digest", bytesJson s.openObligationsDigest),
    ("project_control_root", bytesJson s.projectControlRoot),
    ("reasoning_contract_digest", bytesJson s.reasoningContractDigest),
    ("reasoning_state_status", .text s.reasoningStateStatus.text),
    ("receipt_head_digest", bytesJson s.receiptHeadDigest),
    ("resource_risk_reserve_digest", bytesJson s.resourceRiskReserveDigest), ("schema_version", .text s.schemaVersion),
    ("transaction_root_digest", bytesJson s.transactionRootDigest),
    ("world_fiber_digest", bytesJson s.worldFiberDigest)]

end ReasoningSafepoint

def partsMessage (domain : List UInt8) (parts : List (List UInt8)) : List UInt8 := domain ++ parts.flatMap boundedBytes

namespace SemanticCutClaim

variable (c : SemanticCutClaim)

def validateExact : Except SemanticCutError Unit := do
  if c.schemaVersion ≠ semanticCutSchemaVersion then
    throw ⟨.schemaVersionMismatch, "semantic-cut claim schema is unsupported"⟩
  c.baselineTerminal.validate
  c.compiledTerminal.validate
  requireAllNonzero [("input project/control root", c.inputProjectControlRoot),
    ("baseline epoch class", c.baselineEpochClassDigest), ("compiled plan", c.compiledPlanDigest),
    ("baseline external effects", c.baselineExternalEffectsDigest),
    ("compiled external effects", c.compiledExternalEffectsDigest),
    ("baseline attribution identity", c.baselineAttributionIdentityDigest),
    ("compiled attribution identity", c.compiledAttributionIdentityDigest),
    ("baseline resource receipt", c.baselineResourceReceiptDigest),
    ("compiled resource receipt", c.compiledResourceReceiptDigest),
    ("comparison identity", c.comparisonIdentityDigest), ("certificate scope", c.certificateScopeDigest),
    ("deoptimization map", c.deoptimizationMapDigest)]
  if c.semanticAuthority ≠ .deterministicOnly then
    throw ⟨.semanticAuthorityCrossing, "semantic-cut plan may contain only declared deterministic operations"⟩
  if c.baselineTerminal.reasoningStateStatus ≠ .exactPreserved ∨
      c.compiledTerminal.reasoningStateStatus ≠ .exactPreserved then
    throw ⟨.continuationNotExact, "strict epoch contraction requires exact preserved reasoning state"⟩
  if !c.baselineTerminal.exactContinuationEqual c.compiledTerminal then
    throw ⟨.terminalStateMismatch, "baseline and compiled terminal protected state are not identical"⟩
  if c.baselineExternalEffectsDigest ≠ c.compiledExternalEffectsDigest then
    throw ⟨.externalEffectMismatch, "baseline and compiled external-effect identities differ"⟩
  if c.baselineAttributionIdentityDigest ≠ c.compiledAttributionIdentityDigest then
    throw ⟨.attributionMismatch, "compiled transition changes semantic attribution"⟩

def json : Json :=
  .obj [("baseline_attribution_identity_digest", bytesJson c.baselineAttributionIdentityDigest),
    ("baseline_epoch_class_digest", bytesJson c.baselineEpochClassDigest),
    ("baseline_external_effects_digest", bytesJson c.baselineExternalEffectsDigest),
    ("baseline_resource_receipt_digest", bytesJson c.baselineResourceReceiptDigest),
    ("baseline_terminal", c.baselineTerminal.json), ("certificate_scope_digest", bytesJson c.certificateScopeDigest),
    ("comparison_identity_digest", bytesJson c.comparisonIdentityDigest),
    ("compiled_attribution_identity_digest", bytesJson c.compiledAttributionIdentityDigest),
    ("compiled_external_effects_digest", bytesJson c.compiledExternalEffectsDigest),
    ("compiled_plan_digest", bytesJson c.compiledPlanDigest),
    ("compiled_resource_receipt_digest", bytesJson c.compiledResourceReceiptDigest),
    ("compiled_terminal", c.compiledTerminal.json), ("deoptimization_map_digest", bytesJson c.deoptimizationMapDigest),
    ("input_project_control_root", bytesJson c.inputProjectControlRoot),
    ("schema_version", .text c.schemaVersion), ("semantic_authority", .text c.semanticAuthority.text)]

def canonicalBytes : Except SemanticCutError (List UInt8) :=
  if semanticCutMaxCanonicalBytes < c.json.canonical.length then
    .error ⟨.canonicalPayloadTooLarge, "semantic-cut canonical payload exceeds the frozen byte bound"⟩
  else .ok c.json.canonical

def message : List UInt8 := partsMessage claimDomain [c.json.canonical]

def rcqMessage : List UInt8 :=
  partsMessage rcqDomain [digestBytes c.compiledTerminal.fixedModelDigest,
    digestBytes c.compiledTerminal.reasoningContractDigest, digestBytes c.compiledTerminal.opaqueReasoningStateDigest]

def reasoningContractDigest : Sha256Digest := c.compiledTerminal.reasoningContractDigest

def fixedModelDigest : Sha256Digest := c.compiledTerminal.fixedModelDigest

end SemanticCutClaim

section Digests
variable (sha256 : List UInt8 → Sha256Digest)

namespace SemanticCutClaim

def digest (c : SemanticCutClaim) : Except SemanticCutError Sha256Digest := do
  return sha256 (partsMessage claimDomain [← c.canonicalBytes])

def terminalRcqIdentityDigest (c : SemanticCutClaim) : Sha256Digest := sha256 c.rcqMessage

end SemanticCutClaim

def certificateMessage (contractVersion : UInt16)
    (claimDigest evidenceDigest verifierIdentityDigest terminalRcqIdentityDigest : Sha256Digest) : List UInt8 :=
  partsMessage certificateDomain [u16Bytes contractVersion, digestBytes claimDigest, digestBytes evidenceDigest,
    digestBytes verifierIdentityDigest, digestBytes terminalRcqIdentityDigest]

namespace SemanticCutCertificateRecord

def message (r : SemanticCutCertificateRecord) : List UInt8 :=
  certificateMessage r.contractVersion r.claimDigest r.evidenceDigest r.verifierIdentityDigest
    (r.claim.terminalRcqIdentityDigest sha256)

def validate (r : SemanticCutCertificateRecord) : Except SemanticCutError Unit :=
  if r.contractVersion ≠ semanticCutContractVersion then
    .error ⟨.schemaVersionMismatch, "semantic-cut certificate contract is unsupported"⟩
  else do
    r.claim.validateExact
    requireNonzero "evidence" r.evidenceDigest
    requireNonzero "verifier identity" r.verifierIdentityDigest
    let claimDigest ← r.claim.digest sha256
    if claimDigest ≠ r.claimDigest ∨ sha256 (r.message sha256) ≠ r.certificateDigest then
      .error ⟨.certificateDigestMismatch, "semantic-cut certificate digest does not bind its claim and evidence"⟩
    else .ok ()

end SemanticCutCertificateRecord
end Digests

theorem bytesJson_inj : Injective bytesJson := by
  intro d e h
  have hbyte : Injective fun b : UInt8 => Json.nat b.toNat :=
    fun _ _ hb => UInt8.toNat_inj.mp (Json.nat_inj.mp hb)
  exact digestBytes_inj (List.map_injective_iff.mpr hbyte (Json.arr.inj h))

theorem ReasoningStateStatus.text_inj : Injective ReasoningStateStatus.text := by
  intro s t h
  cases s <;> cases t <;> first | rfl | exact absurd h (by decide)

theorem SemanticAuthority.text_inj : Injective SemanticAuthority.text := by
  intro s t h
  cases s <;> cases t <;> first | rfl | exact absurd h (by decide)

theorem ReasoningSafepoint.json_inj : Injective ReasoningSafepoint.json := by
  intro s t h
  simp only [json, Json.obj.injEq, List.cons.injEq, Prod.mk.injEq, Json.text_inj, bytesJson_inj.eq_iff,
    ReasoningStateStatus.text_inj.eq_iff, true_and] at h
  cases s
  cases t
  simp only at h
  simp only [h]

namespace SemanticCutClaim

theorem json_inj : Injective json := by
  intro c d h
  simp only [json, Json.obj.injEq, List.cons.injEq, Prod.mk.injEq, Json.text_inj, bytesJson_inj.eq_iff,
    SemanticAuthority.text_inj.eq_iff, ReasoningSafepoint.json_inj.eq_iff, true_and] at h
  cases c
  cases d
  simp only at h
  simp only [h]

theorem digest_eq_ok {sha256 : List UInt8 → Sha256Digest} {c : SemanticCutClaim} {d : Sha256Digest}
    (h : c.digest sha256 = .ok d) : c.json.canonical.length ≤ semanticCutMaxCanonicalBytes ∧ sha256 c.message = d := by
  unfold digest canonicalBytes at h
  by_cases hlarge : semanticCutMaxCanonicalBytes < c.json.canonical.length
  · rw [if_pos hlarge] at h
    cases h
  · rw [if_neg hlarge] at h
    exact ⟨not_lt.mp hlarge, Except.ok.inj h⟩

theorem message_inj {c d : SemanticCutClaim} (hc : c.json.canonical.length ≤ semanticCutMaxCanonicalBytes)
    (hd : d.json.canonical.length ≤ semanticCutMaxCanonicalBytes) (h : c.message = d.message) : c = d := by
  have hfits : semanticCutMaxCanonicalBytes < 2 ^ 64 := by decide
  have hparts : boundedBytes c.json.canonical ++ [] = boundedBytes d.json.canonical ++ [] :=
    List.append_cancel_left h
  obtain ⟨hbytes, -⟩ := (boundedBytes_append_inj (hc.trans_lt hfits) (hd.trans_lt hfits)).mp hparts
  exact json_inj (Json.canonical_inj hbytes)

end SemanticCutClaim

theorem certificateMessage_inj {v w : UInt16} {c d e f i j t u : Sha256Digest}
    (h : certificateMessage v c e i t = certificateMessage w d f j u) : v = w ∧ c = d ∧ e = f ∧ i = j ∧ t = u := by
  have hparts := List.append_cancel_left h
  have hword : ∀ n, (u16Bytes n).length < 2 ^ 64 := fun n => by simp [u16Bytes]
  have hdigest : ∀ d, (digestBytes d).length < 2 ^ 64 := fun d => by simp
  simp only [List.flatMap_cons, boundedBytes_append_inj (hword _) (hword _),
    boundedBytes_append_inj (hdigest _) (hdigest _), digestBytes_inj.eq_iff] at hparts
  obtain ⟨hversion, hclaim, hevidence, hverifier, hterminal, -⟩ := hparts
  exact ⟨delimited_u16Bytes.injective hversion, hclaim, hevidence, hverifier, hterminal⟩

namespace SemanticCutCertificateRecord

structure Binds (sha256 : List UInt8 → Sha256Digest) (r : SemanticCutCertificateRecord) : Prop where
  version : r.contractVersion = semanticCutContractVersion
  size : r.claim.json.canonical.length ≤ semanticCutMaxCanonicalBytes
  claim : sha256 r.claim.message = r.claimDigest
  certificate : sha256 (r.message sha256) = r.certificateDigest

theorem binds_of_validate {sha256 : List UInt8 → Sha256Digest} {r : SemanticCutCertificateRecord}
    (h : r.validate sha256 = .ok ()) : r.Binds sha256 := by
  obtain ⟨hversion, h⟩ := guard_eq_ok.mp h
  obtain ⟨-, -, h⟩ := bind_eq_ok.mp h
  obtain ⟨-, -, h⟩ := bind_eq_ok.mp h
  obtain ⟨-, -, h⟩ := bind_eq_ok.mp h
  obtain ⟨claimDigest, hdigest, h⟩ := bind_eq_ok.mp h
  obtain ⟨hbinds, -⟩ := guard_eq_ok.mp h
  obtain ⟨hsize, hclaim⟩ := SemanticCutClaim.digest_eq_ok hdigest
  rw [not_or, not_not, not_not] at hbinds
  exact ⟨not_not.mp hversion, hsize, hclaim.trans hbinds.1, hbinds.2⟩

end SemanticCutCertificateRecord
end Zero.SemanticCut
