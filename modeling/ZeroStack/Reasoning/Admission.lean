import ZeroStack.Reasoning.Contract

/-! Strict admission: a candidate contract may ask for the same, or for more tokens, and for nothing else. -/

open Wire

namespace Zero.Reasoning

def admissionDomain : List UInt8 := utf8Bytes "zerostack.reasoning_contract.admission" ++ [0]

structure AdmissionTokenAdditions where
  maxOutput : UInt32
  reasoning : UInt32
  visibleOutput : UInt32
  recovery : UInt32
  deriving DecidableEq

structure StrictReasoningAdmissionRecord where
  contractVersion : UInt16
  baselineContractDigest : Sha256Digest
  candidateContractDigest : Sha256Digest
  sameComparisonClass : Bool
  maxOutputTokensAdded : UInt32
  reasoningTokensAdded : UInt32
  visibleOutputTokensAdded : UInt32
  recoveryTokensAdded : UInt32
  admissionDigest : Sha256Digest
  deriving DecidableEq

abbrev StrictReasoningAdmission := StrictReasoningAdmissionRecord

def validateAdmissionShape (baselineContractDigest candidateContractDigest : Sha256Digest) (sameComparisonClass : Bool)
    (added : AdmissionTokenAdditions) : Except ReasoningContractError Unit :=
  let allZero := added.maxOutput = 0 && added.reasoning = 0 && added.visibleOutput = 0 && added.recovery = 0
  if sameComparisonClass ≠ decide (baselineContractDigest = candidateContractDigest) ∨
    sameComparisonClass ≠ allZero then
    .error ⟨.invalidAdmission, "comparison-class flag, contract identities, and reserve deltas are inconsistent"⟩
  else .ok ()

def validateAdmissionFields (contractVersion : UInt16)
    (baselineContractDigest candidateContractDigest admissionDigest expectedDigest : Sha256Digest) :
    Except ReasoningContractError Unit :=
  if contractVersion ≠ reasoningContractVersion then
    .error ⟨.schemaVersionMismatch, "strict reasoning admission schema is unsupported"⟩
  else if baselineContractDigest = Sha256Digest.zero ∨ candidateContractDigest = Sha256Digest.zero ∨
      admissionDigest = Sha256Digest.zero then
    .error ⟨.missingIdentity, "strict reasoning admission contains a zero digest"⟩
  else if admissionDigest ≠ expectedDigest then
    .error ⟨.admissionDigestMismatch, "strict reasoning admission digest does not match its fields"⟩
  else .ok ()

section Digests
variable (sha256 : List UInt8 → Sha256Digest)

def admissionDigest (contractVersion : UInt16) (baselineContractDigest candidateContractDigest : Sha256Digest)
    (sameComparisonClass : Bool) (added : AdmissionTokenAdditions) : Sha256Digest :=
  sha256 (admissionDomain ++ (Json.obj [("baseline_contract_digest", baselineContractDigest.json),
    ("candidate_contract_digest", candidateContractDigest.json), ("contract_version", .nat contractVersion.toNat),
    ("max_output_tokens_added", u32Json added.maxOutput), ("reasoning_tokens_added", u32Json added.reasoning),
    ("recovery_tokens_added", u32Json added.recovery), ("same_comparison_class", .bool sameComparisonClass),
    ("visible_output_tokens_added", u32Json added.visibleOutput)]).canonical)

namespace StrictReasoningAdmissionRecord

variable (a : StrictReasoningAdmissionRecord)

def added : AdmissionTokenAdditions :=
  ⟨a.maxOutputTokensAdded, a.reasoningTokensAdded, a.visibleOutputTokensAdded, a.recoveryTokensAdded⟩

def expectedDigest : Sha256Digest :=
  Reasoning.admissionDigest sha256 a.contractVersion a.baselineContractDigest a.candidateContractDigest
    a.sameComparisonClass a.added

def validate : Except ReasoningContractError Unit := do
  validateAdmissionShape a.baselineContractDigest a.candidateContractDigest a.sameComparisonClass a.added
  validateAdmissionFields a.contractVersion a.baselineContractDigest a.candidateContractDigest a.admissionDigest
    (a.expectedDigest sha256)

def new (baseline candidate : ReasoningContract) : Except ReasoningContractError StrictReasoningAdmission := do
  let unsealed : StrictReasoningAdmission := {
    contractVersion := reasoningContractVersion
    baselineContractDigest := ← baseline.identityDigest sha256
    candidateContractDigest := ← candidate.identityDigest sha256
    sameComparisonClass := baseline = candidate
    maxOutputTokensAdded := candidate.maxOutputTokens - baseline.maxOutputTokens
    reasoningTokensAdded := candidate.reservedReasoningTokens - baseline.reservedReasoningTokens
    visibleOutputTokensAdded := candidate.reservedVisibleOutputTokens - baseline.reservedVisibleOutputTokens
    recoveryTokensAdded := candidate.reservedRecoveryTokens - baseline.reservedRecoveryTokens
    admissionDigest := Sha256Digest.zero }
  return { unsealed with admissionDigest := unsealed.expectedDigest sha256 }

end StrictReasoningAdmissionRecord

def downshift (code : ReasoningContractFailureCode) (field : String) : ReasoningContractError :=
  ⟨code, s!"strict candidate lowered {field}"⟩

def verifyStrictNoDownshift (baseline candidate : ReasoningContract) :
    Except ReasoningContractError StrictReasoningAdmission := do
  baseline.validate
  candidate.validate
  if baseline.allowEffortDownshift || candidate.allowEffortDownshift then
    throw ⟨.effortDownshiftAllowed, "strict and amplify contracts must set allow_effort_downshift to false"⟩
  if baseline.modelIdentity ≠ candidate.modelIdentity ∨ baseline.backendIdentity ≠ candidate.backendIdentity ∨
      baseline.tokenizerIdentity ≠ candidate.tokenizerIdentity ∨ baseline.decoderIdentity ≠ candidate.decoderIdentity ∨
      baseline.toolSchemaDigest ≠ candidate.toolSchemaDigest then
    throw ⟨.comparisonIdentityMismatch, "model, backend, tokenizer, decoder, and tool schema must remain exact"⟩
  if baseline.reasoningMode ≠ candidate.reasoningMode then
    throw ⟨.reasoningModeMismatch, "strict reasoning mode changed without a cross-class theorem"⟩
  if baseline.reasoningEffort ≠ candidate.reasoningEffort then
    throw ⟨.reasoningEffortMismatch, "strict reasoning effort changed without a cross-class theorem"⟩
  if baseline.nativeStatePolicy ≠ candidate.nativeStatePolicy then
    throw ⟨.nativeStatePolicyMismatch, "native reasoning-state policy changed without a cross-class theorem"⟩
  if baseline.providerExtension ≠ candidate.providerExtension then
    throw ⟨.providerExtensionMismatch, "provider extension changed without a cross-class theorem"⟩
  if baseline.samplingParams ≠ candidate.samplingParams then
    throw ⟨.invocationBindingMismatch, "sampling parameters changed without a cross-class theorem"⟩
  if baseline.stoppingPolicy ≠ candidate.stoppingPolicy then
    throw ⟨.invocationBindingMismatch, "stopping policy changed without a cross-class theorem"⟩
  if baseline.systemPromptRoot ≠ candidate.systemPromptRoot then
    throw ⟨.invocationBindingMismatch, "system prompt root changed without a cross-class theorem"⟩
  if baseline.toolPermissions ≠ candidate.toolPermissions then
    throw ⟨.invocationBindingMismatch, "per-tool permission set changed without a cross-class theorem"⟩
  if candidate.maxOutputTokens < baseline.maxOutputTokens then
    throw (downshift .outputCeilingDownshift "maximum output tokens")
  if candidate.reservedReasoningTokens < baseline.reservedReasoningTokens then
    throw (downshift .reasoningReserveDownshift "reserved reasoning tokens")
  if candidate.reservedVisibleOutputTokens < baseline.reservedVisibleOutputTokens then
    throw (downshift .visibleOutputReserveDownshift "reserved visible output tokens")
  if candidate.reservedRecoveryTokens < baseline.reservedRecoveryTokens then
    throw (downshift .recoveryReserveDownshift "reserved recovery tokens")
  StrictReasoningAdmissionRecord.new sha256 baseline candidate

end Digests

theorem StrictReasoningAdmissionRecord.admissionDigest_ne_zero {sha256 : List UInt8 → Sha256Digest}
    {a : StrictReasoningAdmissionRecord} (h : a.validate sha256 = .ok ()) : a.admissionDigest ≠ Sha256Digest.zero := by
  obtain ⟨-, -, hfields⟩ := bind_eq_ok.mp h
  obtain ⟨-, hfields⟩ := guard_eq_ok.mp hfields
  obtain ⟨hlive, -⟩ := guard_eq_ok.mp hfields
  exact fun hzero => hlive (Or.inr (Or.inr hzero))

end Zero.Reasoning
