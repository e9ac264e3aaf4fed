import ZeroStack.Abi

/-! The quality admission: which kind of evidence stands behind a candidate, and what it allows to select. -/

open Wire

namespace Zero.Quality

def qualityEnvelopeContractVersion : UInt16 := 1
def admissionDomain : List UInt8 := utf8Bytes "zerostack.quality.admission" ++ [0]

inductive QualityEnvelopeFailureCode where
  | missingBinding
  | invalidAdmission
  | schemaVersionMismatch
  | certificateDigestMismatch
  deriving DecidableEq

def QualityEnvelopeFailureCode.debug : QualityEnvelopeFailureCode → String
  | .missingBinding => "MissingBinding"
  | .invalidAdmission => "InvalidAdmission"
  | .schemaVersionMismatch => "SchemaVersionMismatch"
  | .certificateDigestMismatch => "CertificateDigestMismatch"

structure QualityEnvelopeError where
  code : QualityEnvelopeFailureCode
  detail : String
  deriving DecidableEq

def QualityEnvelopeError.display (e : QualityEnvelopeError) : String := s!"{e.code.debug}: {e.detail}"

inductive QualityEvidenceClass where
  | exactNeutral
  | pointwiseDominance
  | scopedClassDominance
  | distributional
  | unidentified
  deriving DecidableEq

inductive QualitySelection where
  | candidate
  | frozenBaseline
  deriving DecidableEq

inductive QualityGuarantee where
  | exactSubstitution
  | pointwiseNoWorse
  | scopedClassNoWorse
  | distributionalOnly
  | unidentified
  deriving DecidableEq

def QualityEvidenceClass.text : QualityEvidenceClass → String
  | .exactNeutral => "exact_neutral"
  | .pointwiseDominance => "pointwise_dominance"
  | .scopedClassDominance => "scoped_class_dominance"
  | .distributional => "distributional"
  | .unidentified => "unidentified"

def QualitySelection.text : QualitySelection → String
  | .candidate => "candidate"
  | .frozenBaseline => "frozen_baseline"

def QualityGuarantee.text : QualityGuarantee → String
  | .exactSubstitution => "exact_substitution"
  | .pointwiseNoWorse => "pointwise_no_worse"
  | .scopedClassNoWorse => "scoped_class_no_worse"
  | .distributionalOnly => "distributional_only"
  | .unidentified => "unidentified"

def coherent : QualityEvidenceClass → QualitySelection → QualityGuarantee → Bool
  | .exactNeutral, .candidate, .exactSubstitution
  | .pointwiseDominance, .candidate, .pointwiseNoWorse
  | .scopedClassDominance, .candidate, .scopedClassNoWorse
  | .distributional, .frozenBaseline, .distributionalOnly
  | .unidentified, .frozenBaseline, .unidentified => true
  | _, _, _ => false

structure QualityAdmissionRecord where
  contractVersion : UInt16
  scopeDigest : Sha256Digest
  comparisonIdentityDigest : Sha256Digest
  rawBaselineIdentityDigest : Sha256Digest
  baselineOutcomeDigest : Sha256Digest
  baselineReceiptDigest : Sha256Digest
  candidateIdentityDigest : Option Sha256Digest
  candidateOutcomeDigest : Option Sha256Digest
  pairingMethodDigest : Sha256Digest
  protectedPredicateDigest : Sha256Digest
  verifierIdentityDigest : Sha256Digest
  classCertificateDigest : Option Sha256Digest
  confidenceScopeDigest : Option Sha256Digest
  evidenceClass : QualityEvidenceClass
  selection : QualitySelection
  guarantee : QualityGuarantee
  strictImprovement : Bool
  evidenceDigest : Sha256Digest
  admissionDigest : Sha256Digest
  deriving DecidableEq

abbrev QualityAdmission := QualityAdmissionRecord

def missingBinding (label : String) : QualityEnvelopeError := ⟨.missingBinding, s!"{label} digest is zero"⟩

def requireNonzero (label : String) (digests : List Sha256Digest) : Except QualityEnvelopeError Unit :=
  if Sha256Digest.zero ∈ digests then .error ⟨.missingBinding, s!"{label} contains a zero digest"⟩ else .ok ()

def requireVersionAndDigest (version : UInt16) (actual expected : Sha256Digest) (label : String) :
    Except QualityEnvelopeError Unit :=
  if version ≠ qualityEnvelopeContractVersion then
    .error ⟨.schemaVersionMismatch, s!"{label} contract version is not current"⟩
  else if actual = Sha256Digest.zero ∨ actual ≠ expected then
    .error ⟨.certificateDigestMismatch, s!"{label} digest does not match its canonical body"⟩
  else .ok ()

def optionJson (d : Option Sha256Digest) : Json := .option Sha256Digest.json d

namespace QualityAdmissionRecord

variable (a : QualityAdmissionRecord)

def improvementValid : Bool :=
  !a.strictImprovement || a.evidenceClass = .pointwiseDominance || a.evidenceClass = .scopedClassDominance

def detailValid : Bool :=
  match a.evidenceClass with
  | .exactNeutral => a.candidateOutcomeDigest = some a.baselineOutcomeDigest && a.classCertificateDigest.isNone &&
      a.confidenceScopeDigest.isNone
  | .pointwiseDominance => a.candidateOutcomeDigest.isSome && a.classCertificateDigest.isNone &&
      a.confidenceScopeDigest.isNone
  | .scopedClassDominance => a.candidateOutcomeDigest.isNone && a.classCertificateDigest = some a.evidenceDigest &&
      a.confidenceScopeDigest.isNone
  | .distributional => a.candidateOutcomeDigest.isNone && a.classCertificateDigest.isNone &&
      a.confidenceScopeDigest = some a.scopeDigest
  | .unidentified => a.candidateOutcomeDigest.isNone && a.classCertificateDigest.isNone &&
      a.confidenceScopeDigest.isNone

def json : Json :=
  .obj [("baseline_outcome_digest", a.baselineOutcomeDigest.json),
    ("baseline_receipt_digest", a.baselineReceiptDigest.json),
    ("candidate_identity_digest", optionJson a.candidateIdentityDigest),
    ("candidate_outcome_digest", optionJson a.candidateOutcomeDigest),
    ("class_certificate_digest", optionJson a.classCertificateDigest),
    ("comparison_identity_digest", a.comparisonIdentityDigest.json),
    ("confidence_scope_digest", optionJson a.confidenceScopeDigest),
    ("contract_version", .nat a.contractVersion.toNat), ("evidence_class", .text a.evidenceClass.text),
    ("evidence_digest", a.evidenceDigest.json), ("guarantee", .text a.guarantee.text),
    ("pairing_method_digest", a.pairingMethodDigest.json),
    ("protected_predicate_digest", a.protectedPredicateDigest.json),
    ("raw_baseline_identity_digest", a.rawBaselineIdentityDigest.json), ("scope_digest", a.scopeDigest.json),
    ("selection", .text a.selection.text), ("strict_improvement", .bool a.strictImprovement),
    ("verifier_identity_digest", a.verifierIdentityDigest.json)]

def message : List UInt8 := admissionDomain ++ a.json.canonical

def expectedDigest (sha256 : List UInt8 → Sha256Digest) (a : QualityAdmissionRecord) : Sha256Digest :=
  sha256 a.message

def validate (sha256 : List UInt8 → Sha256Digest) (a : QualityAdmissionRecord) : Except QualityEnvelopeError Unit := do
  requireNonzero "quality admission" [a.scopeDigest, a.comparisonIdentityDigest, a.rawBaselineIdentityDigest,
    a.baselineOutcomeDigest, a.baselineReceiptDigest, a.pairingMethodDigest, a.protectedPredicateDigest,
    a.verifierIdentityDigest, a.evidenceDigest]
  if a.candidateIdentityDigest = none ∨ a.candidateIdentityDigest = some Sha256Digest.zero then
    .error (missingBinding "candidate identity")
  else if a.candidateOutcomeDigest = some Sha256Digest.zero ∨ a.classCertificateDigest = some Sha256Digest.zero ∨
      a.confidenceScopeDigest = some Sha256Digest.zero then
    .error (missingBinding "quality evidence detail")
  else if !coherent a.evidenceClass a.selection a.guarantee || !a.improvementValid || !a.detailValid then
    .error ⟨.invalidAdmission, "quality evidence class, selection, and guarantee are inconsistent"⟩
  else requireVersionAndDigest a.contractVersion a.admissionDigest (a.expectedDigest sha256) "quality admission"

end QualityAdmissionRecord

theorem QualityEvidenceClass.text_inj : Function.Injective QualityEvidenceClass.text := by
  intro s t h
  cases s <;> cases t <;> first | rfl | exact absurd h (by decide)

theorem QualitySelection.text_inj : Function.Injective QualitySelection.text := by
  intro s t h
  cases s <;> cases t <;> first | rfl | exact absurd h (by decide)

theorem QualityGuarantee.text_inj : Function.Injective QualityGuarantee.text := by
  intro s t h
  cases s <;> cases t <;> first | rfl | exact absurd h (by decide)

theorem optionJson_inj : Function.Injective optionJson :=
  Json.option_inj Sha256Digest.json_inj nofun

namespace QualityAdmissionRecord

theorem eq_of_message {a b : QualityAdmissionRecord} (h : a.message = b.message)
    (hdigest : a.admissionDigest = b.admissionDigest) : a = b := by
  have hjson : a.json = b.json := Json.canonical_inj (List.append_cancel_left h)
  simp only [json, Json.obj.injEq, List.cons.injEq, Prod.mk.injEq, Json.text_inj, Json.bool.injEq, Json.nat_inj,
    UInt16.toNat_inj, Sha256Digest.json_inj.eq_iff, optionJson_inj.eq_iff, QualityEvidenceClass.text_inj.eq_iff,
    QualitySelection.text_inj.eq_iff, QualityGuarantee.text_inj.eq_iff, true_and] at hjson
  cases a
  cases b
  simp only at hjson hdigest
  simp only [hjson, hdigest]

theorem digest_of_validate {sha256 : List UInt8 → Sha256Digest} {a : QualityAdmissionRecord}
    (h : a.validate sha256 = .ok ()) :
      sha256 a.message = a.admissionDigest ∧ a.admissionDigest ≠ Sha256Digest.zero := by
  obtain ⟨-, -, h⟩ := bind_eq_ok.mp h
  obtain ⟨-, h⟩ := guard_eq_ok.mp h
  obtain ⟨-, h⟩ := guard_eq_ok.mp h
  obtain ⟨-, h⟩ := guard_eq_ok.mp h
  obtain ⟨-, h⟩ := guard_eq_ok.mp h
  obtain ⟨hlive, -⟩ := guard_eq_ok.mp h
  rw [not_or, not_not] at hlive
  exact ⟨hlive.2.symm, hlive.1⟩

end QualityAdmissionRecord
end Zero.Quality
