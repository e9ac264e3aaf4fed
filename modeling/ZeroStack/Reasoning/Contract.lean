import ZeroStack.SafeExpand.Handle
import ZeroStack.Wire.Members

/-! The reasoning contract: what a model is asked to do and the tokens it is given for it. Its identity is the digest
of its canonical form. -/

open Wire Function

namespace Zero.Reasoning

def reasoningContractSchemaVersion : String := "racc-r-reasoning-contract"
def reasoningContractVersion : UInt16 := 1
def maxCanonicalBytes : ℕ := 32 * 1024
def maxExtensionBytes : ℕ := 8 * 1024
def maxExtensionNodes : ℕ := 256
def maxExtensionDepth : ℕ := 16
def maxIdBytes : ℕ := 128
def maxToolPermissions : ℕ := 256
def maxStopSequences : ℕ := 64
def maxStopSequenceBytes : ℕ := 256
def temperaturePpmMax : UInt32 := 2000000
def topPPpmMax : UInt32 := 1000000

def instanceDomain : List UInt8 := utf8Bytes "zerostack.reasoning_contract.instance" ++ [0]

inductive ReasoningContractFailureCode where
  | schemaVersionMismatch
  | missingIdentity
  | invalidIdentifier
  | invalidTokenReservation
  | canonicalPayloadTooLarge
  | providerExtensionTooLarge
  | effortDownshiftAllowed
  | comparisonIdentityMismatch
  | reasoningModeMismatch
  | reasoningEffortMismatch
  | nativeStatePolicyMismatch
  | providerExtensionMismatch
  | invocationBindingMismatch
  | invalidSamplingParams
  | invalidStoppingPolicy
  | invalidSystemPromptRoot
  | invalidToolPermissions
  | outputCeilingDownshift
  | reasoningReserveDownshift
  | visibleOutputReserveDownshift
  | recoveryReserveDownshift
  | admissionDigestMismatch
  | invalidAdmission
  deriving DecidableEq

structure ReasoningContractError where
  code : ReasoningContractFailureCode
  detail : String
  deriving DecidableEq

inductive NativeStatePolicy where
  | exactRequired
  | exactIfAvailable
  | cleanRestart
  | scopedCertificate
  | unavailable
  deriving DecidableEq

structure SamplingParams where
  temperaturePpm : UInt32
  topPPpm : UInt32
  seed : Option UInt64
  deriving DecidableEq

structure StoppingPolicy where
  stopSequences : List String
  maxSteps : Option UInt32
  deriving DecidableEq

structure ToolPermission where
  readOnly : Bool
  approvalRequired : Bool
  maxCalls : Option UInt32
  deriving DecidableEq

structure ReasoningContract where
  schemaVersion : String
  modelIdentity : Sha256Digest
  backendIdentity : Sha256Digest
  tokenizerIdentity : Sha256Digest
  decoderIdentity : Sha256Digest
  toolSchemaDigest : Sha256Digest
  reasoningMode : String
  reasoningEffort : String
  maxOutputTokens : UInt32
  reservedReasoningTokens : UInt32
  reservedVisibleOutputTokens : UInt32
  reservedRecoveryTokens : UInt32
  nativeStatePolicy : NativeStatePolicy
  allowEffortDownshift : Bool
  providerExtension : Members Json
  samplingParams : Option SamplingParams
  stoppingPolicy : Option StoppingPolicy
  systemPromptRoot : Option Sha256Digest
  toolPermissions : Members ToolPermission
  deriving DecidableEq

def isWhitespace (c : Char) : Bool :=
  (9 ≤ c.toNat && c.toNat ≤ 13) || c.toNat = 0x20 || c.toNat = 0x85 || c.toNat = 0xa0 || c.toNat = 0x1680 ||
    (0x2000 ≤ c.toNat && c.toNat ≤ 0x200a) || c.toNat = 0x2028 || c.toNat = 0x2029 || c.toNat = 0x202f ||
    c.toNat = 0x205f || c.toNat = 0x3000

def hasControl (text : String) : Bool := text.toList.any SafeExpand.isControl

def validateId (label value : String) : Except ReasoningContractError Unit :=
  if value.toList.all isWhitespace || maxIdBytes < value.utf8ByteSize || hasControl value then
    .error ⟨.invalidIdentifier, s!"{label} is empty, contains control characters, or exceeds its bound"⟩
  else .ok ()

def SamplingParams.validate (params : SamplingParams) : Except ReasoningContractError Unit :=
  if temperaturePpmMax < params.temperaturePpm then
    .error ⟨.invalidSamplingParams, "temperature_ppm exceeds 2_000_000 (2.0)"⟩
  else if params.topPPpm = 0 ∨ topPPpmMax < params.topPPpm then
    .error ⟨.invalidSamplingParams, "top_p_ppm must be in 1..=1_000_000"⟩
  else .ok ()

def StoppingPolicy.validate (policy : StoppingPolicy) : Except ReasoningContractError Unit :=
  if maxStopSequences < policy.stopSequences.length then
    .error ⟨.invalidStoppingPolicy, "stop_sequences exceeds the 64-sequence bound"⟩
  else if policy.stopSequences.any fun sequence =>
      sequence = "" || maxStopSequenceBytes < sequence.utf8ByteSize || hasControl sequence then
    .error ⟨.invalidStoppingPolicy, "stop sequences must be nonempty, bounded, and control-free"⟩
  else if policy.maxSteps = some 0 then .error ⟨.invalidStoppingPolicy, "max_steps must be nonzero when set"⟩
  else .ok ()

def ToolPermission.validate (permission : ToolPermission) : Except ReasoningContractError Unit :=
  if permission.maxCalls = some 0 then .error ⟨.invalidToolPermissions, "max_calls must be nonzero when set"⟩
  else .ok ()

def validateToolPermissions (permissions : Members ToolPermission) : Except ReasoningContractError Unit := do
  if maxToolPermissions < permissions.entries.length then
    throw ⟨.invalidToolPermissions, "tool_permissions exceeds the 256-tool bound"⟩
  for (tool, permission) in permissions.entries do
    validateId "tool permission key" tool
    permission.validate

def tooLarge (detail : String) : ReasoningContractError := ⟨.providerExtensionTooLarge, detail⟩

def countNode (depth nodes : ℕ) : Except ReasoningContractError ℕ :=
  if maxExtensionDepth < depth then .error (tooLarge "provider extension exceeds its depth bound")
  else if 2 ^ 64 ≤ nodes + 1 then .error (tooLarge "provider extension node count overflowed")
  else if maxExtensionNodes < nodes + 1 then .error (tooLarge "provider extension exceeds its node bound")
  else .ok (nodes + 1)

mutual

def countValueNodes : Json → ℕ → ℕ → Except ReasoningContractError ℕ
  | .arr values, depth, nodes =>
    match countNode depth nodes with
    | .error e => .error e
    | .ok nodes => countItems values (depth + 1) nodes
  | .obj members, depth, nodes =>
    match countNode depth nodes with
    | .error e => .error e
    | .ok nodes => countMembers members (depth + 1) nodes
  | .null, depth, nodes | .bool _, depth, nodes | .num _, depth, nodes | .str _, depth, nodes => countNode depth nodes

def countItems : List Json → ℕ → ℕ → Except ReasoningContractError ℕ
  | [], _, nodes => .ok nodes
  | value :: rest, depth, nodes =>
    match countValueNodes value depth nodes with
    | .error e => .error e
    | .ok nodes => countItems rest depth nodes

def countMembers : List (String × Json) → ℕ → ℕ → Except ReasoningContractError ℕ
  | [], _, nodes => .ok nodes
  | (key, value) :: rest, depth, nodes =>
    match validateId "provider extension key" key with
    | .error e => .error e
    | .ok () =>
      match countValueNodes value depth nodes with
      | .error e => .error e
      | .ok nodes => countMembers rest depth nodes

end

def validateProviderExtension (extension : Members Json) : Except ReasoningContractError Unit :=
  if maxExtensionBytes < (extension.json id).canonical.length then
    .error (tooLarge "provider extension exceeds its canonical byte bound")
  else (countMembers extension.entries 1 1).map fun _ => ()

def NativeStatePolicy.text : NativeStatePolicy → String
  | .exactRequired => "exact-required"
  | .exactIfAvailable => "exact-if-available"
  | .cleanRestart => "clean-restart"
  | .scopedCertificate => "scoped-certificate"
  | .unavailable => "unavailable"

def u32Json (n : UInt32) : Json := .nat n.toNat

def SamplingParams.json (params : SamplingParams) : Json :=
  .obj [("seed", .option (fun seed : UInt64 => .nat seed.toNat) params.seed),
    ("temperature_ppm", u32Json params.temperaturePpm), ("top_p_ppm", u32Json params.topPPpm)]

def StoppingPolicy.json (policy : StoppingPolicy) : Json :=
  .obj [("max_steps", .option u32Json policy.maxSteps), ("stop_sequences", .arr (policy.stopSequences.map .text))]

def ToolPermission.json (permission : ToolPermission) : Json :=
  .obj [("approval_required", .bool permission.approvalRequired), ("max_calls", .option u32Json permission.maxCalls),
    ("read_only", .bool permission.readOnly)]

namespace ReasoningContract

variable (c : ReasoningContract)

def json : Json :=
  .obj ([("allow_effort_downshift", .bool c.allowEffortDownshift), ("backend_identity", c.backendIdentity.json),
      ("decoder_identity", c.decoderIdentity.json), ("max_output_tokens", u32Json c.maxOutputTokens),
      ("model_identity", c.modelIdentity.json), ("native_state_policy", .text c.nativeStatePolicy.text)] ++
    (Json.optional "provider_extension" (c.providerExtension.nonempty id) ++
    ([("reasoning_effort", .text c.reasoningEffort), ("reasoning_mode", .text c.reasoningMode),
      ("reserved_reasoning_tokens", u32Json c.reservedReasoningTokens),
      ("reserved_recovery_tokens", u32Json c.reservedRecoveryTokens),
      ("reserved_visible_output_tokens", u32Json c.reservedVisibleOutputTokens)] ++
    (Json.optional "sampling_params" (c.samplingParams.map SamplingParams.json) ++
    ([("schema_version", .text c.schemaVersion)] ++
    (Json.optional "stopping_policy" (c.stoppingPolicy.map StoppingPolicy.json) ++
    (Json.optional "system_prompt_root" (c.systemPromptRoot.map Sha256Digest.json) ++
    ([("tokenizer_identity", c.tokenizerIdentity.json)] ++
    (Json.optional "tool_permissions" (c.toolPermissions.nonempty ToolPermission.json) ++
      [("tool_schema_digest", c.toolSchemaDigest.json)])))))))))

def canonicalBytesUnchecked : List UInt8 := c.json.canonical

def checkIdentities : List (String × Sha256Digest) → Except ReasoningContractError Unit
  | [] => .ok ()
  | (label, digest) :: rest =>
    if digest = Sha256Digest.zero then .error ⟨.missingIdentity, s!"{label} digest is zero"⟩ else checkIdentities rest

def validate : Except ReasoningContractError Unit := do
  if c.schemaVersion ≠ reasoningContractSchemaVersion then
    throw ⟨.schemaVersionMismatch, "reasoning contract schema is unsupported"⟩
  checkIdentities [("model identity", c.modelIdentity), ("backend identity", c.backendIdentity),
    ("tokenizer identity", c.tokenizerIdentity), ("decoder identity", c.decoderIdentity),
    ("tool schema", c.toolSchemaDigest)]
  validateId "reasoning mode" c.reasoningMode
  validateId "reasoning effort" c.reasoningEffort
  if c.maxOutputTokens = 0 ∨ c.maxOutputTokens < c.reservedVisibleOutputTokens then
    throw ⟨.invalidTokenReservation, "max output must be nonzero and cover the reserved visible output"⟩
  validateProviderExtension c.providerExtension
  validateToolPermissions c.toolPermissions
  match c.samplingParams with
  | some params => params.validate
  | none => pure ()
  match c.stoppingPolicy with
  | some policy => policy.validate
  | none => pure ()
  if c.systemPromptRoot = some Sha256Digest.zero then
    throw ⟨.invalidSystemPromptRoot, "system_prompt_root must be nonzero when set"⟩
  if maxCanonicalBytes < c.canonicalBytesUnchecked.length then
    throw ⟨.canonicalPayloadTooLarge, "reasoning contract exceeds its canonical byte bound"⟩

def canonicalBytes : Except ReasoningContractError (List UInt8) := do
  c.validate
  return c.canonicalBytesUnchecked

def message : List UInt8 := instanceDomain ++ c.canonicalBytesUnchecked

def identityDigest (sha256 : List UInt8 → Sha256Digest) (c : ReasoningContract) :
    Except ReasoningContractError Sha256Digest := do
  return sha256 (instanceDomain ++ (← c.canonicalBytes))

end ReasoningContract

theorem u32Json_inj : Injective u32Json := fun _ _ h => UInt32.toNat_inj.mp (Json.nat_inj.mp h)

theorem option_u32Json_inj : Injective (Json.option u32Json) :=
  Json.option_inj u32Json_inj nofun

theorem option_u64_inj : Injective (Json.option fun seed : UInt64 => .nat seed.toNat) :=
  Json.option_inj (fun _ _ h => UInt64.toNat_inj.mp (Json.nat_inj.mp h)) nofun

theorem NativeStatePolicy.text_inj : Injective NativeStatePolicy.text := by
  intro p q h
  cases p <;> cases q <;> first | rfl | exact absurd h (by decide)

theorem SamplingParams.json_inj : Injective SamplingParams.json := by
  rintro ⟨temperature, topP, seed⟩ ⟨temperature', topP', seed'⟩ h
  simp only [json, Json.obj.injEq, List.cons.injEq, Prod.mk.injEq, true_and, and_true] at h
  obtain ⟨hseed, htemperature, htop⟩ := h
  rw [option_u64_inj hseed, u32Json_inj htemperature, u32Json_inj htop]

theorem StoppingPolicy.json_inj : Injective StoppingPolicy.json := by
  rintro ⟨sequences, steps⟩ ⟨sequences', steps'⟩ h
  simp only [json, Json.obj.injEq, List.cons.injEq, Prod.mk.injEq, Json.arr.injEq, true_and, and_true] at h
  obtain ⟨hsteps, hsequences⟩ := h
  have htexts : Injective (List.map Json.text) := List.map_injective_iff.mpr fun _ _ h => Json.text_inj.mp h
  rw [option_u32Json_inj hsteps, htexts hsequences]

theorem ToolPermission.json_inj : Injective ToolPermission.json := by
  rintro ⟨readOnly, approval, calls⟩ ⟨readOnly', approval', calls'⟩ h
  simp only [json, Json.obj.injEq, List.cons.injEq, Prod.mk.injEq, Json.bool.injEq, true_and, and_true] at h
  obtain ⟨rfl, hcalls, rfl⟩ := h
  rw [option_u32Json_inj hcalls]

namespace ReasoningContract

theorem json_inj : Injective json := by
  intro c d h
  simp (disch := simp [Json.notMem_names_optional]) only [json, Json.obj.injEq, List.cons_append, List.nil_append,
    List.cons.injEq, Prod.mk.injEq, true_and, and_true, Json.bool.injEq, Json.text_inj, Json.optional_append_inj,
    Sha256Digest.json_inj.eq_iff, u32Json_inj.eq_iff, NativeStatePolicy.text_inj.eq_iff,
    (Members.nonempty_inj injective_id).eq_iff, (Members.nonempty_inj ToolPermission.json_inj).eq_iff,
    (Option.map_injective SamplingParams.json_inj).eq_iff, (Option.map_injective StoppingPolicy.json_inj).eq_iff,
    (Option.map_injective Sha256Digest.json_inj).eq_iff] at h
  cases c
  cases d
  simp only at h
  simp only [h]

theorem message_inj {c d : ReasoningContract} (h : c.message = d.message) : c = d :=
  json_inj (Json.canonical_inj (List.append_cancel_left h))

theorem identityDigest_eq_ok {sha256 : List UInt8 → Sha256Digest} {c : ReasoningContract} {d : Sha256Digest}
    (h : c.identityDigest sha256 = .ok d) : sha256 c.message = d := by
  unfold identityDigest canonicalBytes at h
  cases hvalid : c.validate with
  | error e =>
    rw [hvalid] at h
    cases h
  | ok u =>
    rw [hvalid] at h
    exact Except.ok.inj h

end ReasoningContract
end Zero.Reasoning
