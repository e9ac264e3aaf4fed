import ZeroStack.Abi

/-! The acceptance of an effect by its verifier. -/

open Wire

namespace Zero.EffectWitness

def effectWitnessContractVersion : UInt16 := 1
def effectAcceptedDomain : List UInt8 := utf8Bytes "zerostack.effect_verification.accepted" ++ [0]

inductive EffectWitnessFailureCode where
  | unsupportedVersion
  | zeroDigest
  | acceptanceDigestMismatch
  deriving DecidableEq

def EffectWitnessFailureCode.debug : EffectWitnessFailureCode → String
  | .unsupportedVersion => "UnsupportedVersion"
  | .zeroDigest => "ZeroDigest"
  | .acceptanceDigestMismatch => "AcceptanceDigestMismatch"

structure EffectWitnessError where
  code : EffectWitnessFailureCode
  detail : String
  deriving DecidableEq

def EffectWitnessError.display (e : EffectWitnessError) : String := s!"{e.code.debug}: {e.detail}"

inductive CwirVerifierClass where
  | exactChecker
  | soundRestricted
  | empiricalIncomplete
  deriving DecidableEq

def CwirVerifierClass.text : CwirVerifierClass → String
  | .exactChecker => "exact_checker"
  | .soundRestricted => "sound_restricted"
  | .empiricalIncomplete => "empirical_incomplete"

structure EffectAccepted where
  contractVersion : UInt16
  cwirSemanticDigest : Sha256Digest
  actionDigest : Sha256Digest
  obligationId : Sha256Digest
  predicateDigest : Sha256Digest
  stateSnapshot : Sha256Digest
  evidenceDigest : Sha256Digest
  verifierDigest : Sha256Digest
  verifierClass : CwirVerifierClass
  acceptanceDigest : Sha256Digest
  deriving DecidableEq

def requireDigests : List (String × Sha256Digest) → Except EffectWitnessError Unit
  | [] => .ok ()
  | (label, digest) :: rest =>
    if digest = Sha256Digest.zero then .error ⟨.zeroDigest, s!"{label} must not be zero"⟩ else requireDigests rest

namespace EffectAccepted

def body (a : EffectAccepted) : Json :=
  .obj [("action_digest", a.actionDigest.json), ("contract_version", .nat a.contractVersion.toNat),
    ("cwir_semantic_digest", a.cwirSemanticDigest.json), ("evidence_digest", a.evidenceDigest.json),
    ("obligation_id", a.obligationId.json), ("predicate_digest", a.predicateDigest.json),
    ("state_snapshot", a.stateSnapshot.json), ("verifier_class", .text a.verifierClass.text),
    ("verifier_digest", a.verifierDigest.json)]

def validate (sha256 : List UInt8 → Sha256Digest) (a : EffectAccepted) : Except EffectWitnessError Unit := do
  if a.contractVersion ≠ effectWitnessContractVersion then
    throw ⟨.unsupportedVersion, s!"unsupported effect acceptance version {a.contractVersion}"⟩
  requireDigests [("cwir_semantic_digest", a.cwirSemanticDigest), ("action_digest", a.actionDigest),
    ("obligation_id", a.obligationId), ("predicate_digest", a.predicateDigest), ("state_snapshot", a.stateSnapshot),
    ("evidence_digest", a.evidenceDigest), ("verifier_digest", a.verifierDigest)]
  if a.acceptanceDigest ≠ sha256 (effectAcceptedDomain ++ a.body.canonical) then
    throw ⟨.acceptanceDigestMismatch, "acceptance digest does not match canonical body"⟩

end EffectAccepted
end Zero.EffectWitness
