import Mathlib.Data.List.Destutter
import ZeroStack.SafeExpand.Handle

/-! Revalidation of a handle against the live state of the hub. -/

open Wire Zero.Identity List

namespace Zero.SafeExpand

structure LiveCompleteness where
  certificateRoot : Option Sha256Digest
  verdict : SafetyVerdict
  checkerIdentity : Option String
  checkerVersion : Option String
  firstAttempt : Bool
  deriving DecidableEq

structure LiveExpandState where
  projectRoot : Sha256Digest
  requestRoot : Sha256Digest
  protectedScopeRoot : Sha256Digest
  demandPlanRoot : Sha256Digest
  indexRoot : Sha256Digest
  indexVersion : String
  rendererContract : Sha256Digest
  tenant : String
  epoch : ℕ
  projectionRoot : Sha256Digest
  completeness : LiveCompleteness
  hiddenRetryAfterIssue : Bool
  deriving DecidableEq

structure ExpandPermit where
  handleId : Sha256Digest
  projectRoot : Sha256Digest
  requestRoot : Sha256Digest
  protectedScopeRoot : Sha256Digest
  demandPlanRoot : Sha256Digest
  indexRoot : Sha256Digest
  indexVersion : String
  rendererContract : Sha256Digest
  tenant : String
  epoch : ℕ
  projectionRoot : Sha256Digest
  deriving DecidableEq

inductive ExpandOutcome where
  | safe (permit : ExpandPermit)
  | notSafe (reasons : List String)
  | unknown (reasons : List String)
  deriving DecidableEq

def sortDedup (reasons : List String) : List String := (reasons.mergeSort (· ≤ ·)).destutter (· ≠ ·)

def checkBinding (equal : Bool) (reason : String) : List String := if equal then [] else [reason]

def sealReason : Except SafeExpandError Unit → List String
  | .ok () => []
  | .error (.wrongAbiVersion _) => ["wrong_abi_version"]
  | .error .forgedHandle => ["forged_handle"]
  | .error .tamperedHandle => ["tampered_handle"]
  | .error _ => ["invalid_handle"]

def SafeExpandHandle.permit (h : SafeExpandHandle) : ExpandPermit where
  handleId := h.handleId
  projectRoot := h.projectRoot
  requestRoot := h.requestRoot
  protectedScopeRoot := h.protectedScopeRoot
  demandPlanRoot := h.demandPlanRoot
  indexRoot := h.indexRoot
  indexVersion := h.indexVersion
  rendererContract := h.rendererContract
  tenant := h.tenant
  epoch := h.epoch
  projectionRoot := h.projectionRoot

def bindingReasons (h : SafeExpandHandle) (live : LiveExpandState) : List String :=
  checkBinding (live.projectRoot = h.projectRoot) "project_mismatch" ++
  checkBinding (live.requestRoot = h.requestRoot) "request_mismatch" ++
  checkBinding (live.protectedScopeRoot = h.protectedScopeRoot) "scope_mismatch" ++
  checkBinding (live.demandPlanRoot = h.demandPlanRoot) "demand_plan_mismatch" ++
  checkBinding (live.indexRoot = h.indexRoot) "index_root_mismatch" ++
  checkBinding (live.indexVersion = h.indexVersion) "index_version_mismatch" ++
  checkBinding (live.rendererContract = h.rendererContract) "renderer_mismatch" ++
  checkBinding (live.tenant = h.tenant) "tenant_mismatch" ++ checkBinding (live.epoch = h.epoch) "epoch_mismatch" ++
  checkBinding (live.projectionRoot = h.projectionRoot) "projection_mismatch"

/-- The completeness checks that speak against the handle. A zero root or an empty string is taken for missing
evidence here. -/
def completenessUnsafe (binding : CompletenessBinding) (live : LiveCompleteness) : List String :=
  let certificateRoot := live.certificateRoot.getD Sha256Digest.zero
  let checkerIdentity := live.checkerIdentity.getD ""
  let checkerVersion := live.checkerVersion.getD ""
  (match live.verdict with
    | .notSafe _ => ["completeness_unsafe"]
    | _ => []) ++ (if certificateRoot ≠ Sha256Digest.zero ∧ certificateRoot ≠ binding.certificateRoot then
    ["completeness_certificate_mismatch"] else []) ++
  (if checkerIdentity ≠ "" ∧ checkerIdentity ≠ binding.checkerIdentity then ["checker_identity_mismatch"] else []) ++
  (if checkerVersion ≠ "" ∧ checkerVersion ≠ binding.checkerVersion then ["checker_version_mismatch"] else []) ++
  (if !live.firstAttempt then ["completeness_retry"] else [])

def completenessUnknown (live : LiveCompleteness) : List String :=
  (if live.certificateRoot = none then ["completeness_evidence_missing"] else []) ++
  (if live.checkerIdentity = none then ["completeness_checker_missing"] else []) ++
  (if live.checkerVersion = none then ["completeness_checker_missing"] else []) ++ (match live.verdict with
    | .unknown _ => ["completeness_unknown"]
    | _ => [])

def revalidate (sha256 : List UInt8 → Sha256Digest) (secret : Sha256Digest) (h : SafeExpandHandle)
    (live : LiveExpandState) : ExpandOutcome :=
  let unsafeReasons := sealReason (verify sha256 secret h) ++
    (if live.hiddenRetryAfterIssue then ["hidden_retry_after_issue"] else []) ++ bindingReasons h live ++
      completenessUnsafe h.completeness live.completeness
  let unknownReasons := completenessUnknown live.completeness
  if unsafeReasons ≠ [] then .notSafe (sortDedup unsafeReasons)
  else if unknownReasons ≠ [] then .unknown (sortDedup unknownReasons)
  else .safe h.permit

structure Bound (h : SafeExpandHandle) (live : LiveExpandState) : Prop where
  projectRoot : live.projectRoot = h.projectRoot
  requestRoot : live.requestRoot = h.requestRoot
  protectedScopeRoot : live.protectedScopeRoot = h.protectedScopeRoot
  demandPlanRoot : live.demandPlanRoot = h.demandPlanRoot
  indexRoot : live.indexRoot = h.indexRoot
  indexVersion : live.indexVersion = h.indexVersion
  rendererContract : live.rendererContract = h.rendererContract
  tenant : live.tenant = h.tenant
  epoch : live.epoch = h.epoch
  projectionRoot : live.projectionRoot = h.projectionRoot

structure Complete (binding : CompletenessBinding) (live : LiveCompleteness) : Prop where
  certificateRoot : live.certificateRoot = some binding.certificateRoot
  checkerIdentity : live.checkerIdentity = some binding.checkerIdentity
  checkerVersion : live.checkerVersion = some binding.checkerVersion
  verdict : live.verdict = .safe
  firstAttempt : live.firstAttempt = true

structure LiveCompleteness.Plain (live : LiveCompleteness) : Prop where
  certificateRoot : live.certificateRoot ≠ some Sha256Digest.zero
  checkerIdentity : live.checkerIdentity ≠ some ""
  checkerVersion : live.checkerVersion ≠ some ""

/-- All is in order, but that a value which stands for missing evidence is spelled out in the place of the bound one. -/
structure SpellsOut (binding : CompletenessBinding) (live : LiveCompleteness) : Prop where
  certificateRoot : live.certificateRoot = some binding.certificateRoot ∨
    live.certificateRoot = some Sha256Digest.zero
  checkerIdentity : live.checkerIdentity = some binding.checkerIdentity ∨ live.checkerIdentity = some ""
  checkerVersion : live.checkerVersion = some binding.checkerVersion ∨ live.checkerVersion = some ""
  sentinel : ¬ live.Plain
  verdict : live.verdict = .safe
  firstAttempt : live.firstAttempt = true

theorem sealReason_eq_nil {result : Except SafeExpandError Unit} : sealReason result = [] ↔ result = .ok () := by
  cases result with
  | ok => simp [sealReason]
  | error e => cases e <;> simp [sealReason]

theorem checkBinding_eq_nil {equal : Bool} {reason : String} : checkBinding equal reason = [] ↔ equal = true := by
  cases equal <;> simp [checkBinding]

theorem bindingReasons_eq_nil {h : SafeExpandHandle} {live : LiveExpandState} :
    bindingReasons h live = [] ↔ Bound h live := by
  simp only [bindingReasons, append_eq_nil_iff, checkBinding_eq_nil, decide_eq_true_eq]
  constructor
  · rintro ⟨⟨⟨⟨⟨⟨⟨⟨⟨h1, h2⟩, h3⟩, h4⟩, h5⟩, h6⟩, h7⟩, h8⟩, h9⟩, h10⟩
    exact ⟨h1, h2, h3, h4, h5, h6, h7, h8, h9, h10⟩
  · rintro ⟨h1, h2, h3, h4, h5, h6, h7, h8, h9, h10⟩
    exact ⟨⟨⟨⟨⟨⟨⟨⟨⟨h1, h2⟩, h3⟩, h4⟩, h5⟩, h6⟩, h7⟩, h8⟩, h9⟩, h10⟩

theorem getD_matches {α : Type*} (live : Option α) (sentinel bound : α) :
    (¬ (live.getD sentinel ≠ sentinel ∧ live.getD sentinel ≠ bound) ∧ live ≠ none) ↔
      live = some bound ∨ live = some sentinel := by
  cases live with
  | none => simp
  | some value =>
    rw [Option.getD_some, Option.some_inj, Option.some_inj]
    simp only [ne_eq, reduceCtorEq, not_false_eq_true, and_true]
    tauto

theorem completeness_eq_nil {binding : CompletenessBinding} {live : LiveCompleteness} :
    completenessUnsafe binding live = [] ∧ completenessUnknown live = [] ↔
      Complete binding live ∨ SpellsOut binding live := by
  have hverdict : ((match live.verdict with
      | .notSafe _ => ["completeness_unsafe"]
      | _ => []) = [] ∧ (match live.verdict with
      | .unknown _ => ["completeness_unknown"]
      | _ => []) = []) ↔ live.verdict = .safe := by
    cases live.verdict <;> simp
  have hroot := getD_matches live.certificateRoot Sha256Digest.zero binding.certificateRoot
  have hidentity := getD_matches live.checkerIdentity "" binding.checkerIdentity
  have hversion := getD_matches live.checkerVersion "" binding.checkerVersion
  simp only [completenessUnsafe, completenessUnknown, append_eq_nil_iff, ite_eq_right_iff, cons_ne_nil,
    imp_false, Bool.not_eq_true', Bool.not_eq_false]
  constructor
  · rintro ⟨⟨⟨⟨⟨hv, hr⟩, hi⟩, hs⟩, hf⟩, ⟨⟨hr', hi'⟩, hs'⟩, hv'⟩
    have hr := hroot.mp ⟨hr, hr'⟩
    have hi := hidentity.mp ⟨hi, hi'⟩
    have hs := hversion.mp ⟨hs, hs'⟩
    by_cases hplain : live.Plain
    · exact .inl ⟨hr.resolve_right hplain.certificateRoot, hi.resolve_right hplain.checkerIdentity,
        hs.resolve_right hplain.checkerVersion, hverdict.mp ⟨hv, hv'⟩, hf⟩
    · exact .inr ⟨hr, hi, hs, hplain, hverdict.mp ⟨hv, hv'⟩, hf⟩
  · intro h
    obtain ⟨hr, hr'⟩ := hroot.mpr (h.elim (fun h => .inl h.certificateRoot) (·.certificateRoot))
    obtain ⟨hi, hi'⟩ := hidentity.mpr (h.elim (fun h => .inl h.checkerIdentity) (·.checkerIdentity))
    obtain ⟨hs, hs'⟩ := hversion.mpr (h.elim (fun h => .inl h.checkerVersion) (·.checkerVersion))
    obtain ⟨hv, hv'⟩ := hverdict.mpr (h.elim (·.verdict) (·.verdict))
    have hf := h.elim (·.firstAttempt) (·.firstAttempt)
    exact ⟨⟨⟨⟨⟨hv, hr⟩, hi⟩, hs⟩, hf⟩, ⟨⟨hr', hi'⟩, hs'⟩, hv'⟩

theorem Complete.plain {binding : CompletenessBinding} {live : LiveCompleteness} (h : Complete binding live)
    (hbound : binding.certificateRoot ≠ Sha256Digest.zero ∧ binding.checkerIdentity ≠ "" ∧
      binding.checkerVersion ≠ "") : live.Plain where
  certificateRoot hzero := hbound.1 (Option.some.inj (h.certificateRoot.symm.trans hzero))
  checkerIdentity hempty := hbound.2.1 (Option.some.inj (h.checkerIdentity.symm.trans hempty))
  checkerVersion hempty := hbound.2.2 (Option.some.inj (h.checkerVersion.symm.trans hempty))

theorem outcome_eq_safe {unsafeReasons unknownReasons : List String} {granted permit : ExpandPermit} :
    (if unsafeReasons ≠ [] then ExpandOutcome.notSafe (sortDedup unsafeReasons)
      else if unknownReasons ≠ [] then .unknown (sortDedup unknownReasons) else .safe granted) = .safe permit ↔
        unsafeReasons = [] ∧ unknownReasons = [] ∧ permit = granted := by
  by_cases hagainst : unsafeReasons = []
  · by_cases hunknown : unknownReasons = []
    · simp [hagainst, hunknown, eq_comm]
    · simp [hagainst, hunknown]
  · simp [hagainst]

theorem revalidate_eq_safe {sha256 : List UInt8 → Sha256Digest} {secret : Sha256Digest} {h : SafeExpandHandle}
    {live : LiveExpandState} {permit : ExpandPermit} :
    revalidate sha256 secret h live = .safe permit ↔ verify sha256 secret h = .ok () ∧ Bound h live ∧
      (Complete h.completeness live.completeness ∨ SpellsOut h.completeness live.completeness) ∧
      live.hiddenRetryAfterIssue = false ∧ permit = h.permit := by
  have hretry : (if live.hiddenRetryAfterIssue then ["hidden_retry_after_issue"] else []) = [] ↔
      live.hiddenRetryAfterIssue = false := by
    cases live.hiddenRetryAfterIssue <;> simp
  rw [← completeness_eq_nil, ← bindingReasons_eq_nil, ← sealReason_eq_nil, ← hretry, revalidate,
    outcome_eq_safe, append_eq_nil_iff, append_eq_nil_iff, append_eq_nil_iff]
  constructor
  · rintro ⟨⟨⟨⟨hseal, hretry⟩, hbound⟩, hagainst⟩, hunknown, hpermit⟩
    exact ⟨hseal, hbound, ⟨hagainst, hunknown⟩, hretry, hpermit⟩
  · rintro ⟨hseal, hbound, ⟨hagainst, hunknown⟩, hretry, hpermit⟩
    exact ⟨⟨⟨⟨hseal, hretry⟩, hbound⟩, hagainst⟩, hunknown, hpermit⟩

/-- A handle is good for exactly what was issued and is still live, unless the live state of an issued handle spells
out the values for missing evidence where all else is in order. -/
theorem revalidate_safe_iff (sha256 : List UInt8 → Sha256Digest) (secret : Sha256Digest)
    (issued : List SafeExpandHandle) (h : SafeExpandHandle) (live : LiveExpandState)
    (hguarded : Guarded sha256 secret issued h) :
    (∀ permit, revalidate sha256 secret h live = .safe permit ↔ h ∈ issued ∧ Bound h live ∧
      Complete h.completeness live.completeness ∧ live.hiddenRetryAfterIssue = false ∧ permit = h.permit) ↔
    ¬ (h ∈ issued ∧ Bound h live ∧ SpellsOut h.completeness live.completeness ∧
      live.hiddenRetryAfterIssue = false) := by
  simp only [revalidate_eq_safe, hguarded.verify_iff]
  constructor
  · rintro hexact ⟨hissued, hbound, hspells, hretry⟩
    obtain ⟨-, -, hcomplete, -, -⟩ := (hexact h.permit).mp ⟨hissued, hbound, .inr hspells, hretry, rfl⟩
    obtain ⟨request, hissue⟩ := hguarded.returned h hissued
    exact hspells.sentinel (hcomplete.plain (completeness_issue hissue))
  · intro hnone permit
    constructor
    · rintro ⟨hissued, hbound, hcomplete | hspells, hretry, hpermit⟩
      · exact ⟨hissued, hbound, hcomplete, hretry, hpermit⟩
      · exact absurd ⟨hissued, hbound, hspells, hretry⟩ hnone
    · rintro ⟨hissued, hbound, hcomplete, hretry, hpermit⟩
      exact ⟨hissued, hbound, .inl hcomplete, hretry, hpermit⟩

def frontDigest (bytes : List UInt8) : Sha256Digest := BitVec.ofNat 256 (ofBe (bytes.take 32))

def sampleRequest : SafeExpandIssueRequest where
  projectRoot := 1
  requestRoot := 2
  protectedScopeRoot := 3
  demandPlanRoot := 4
  indexRoot := 5
  indexVersion := "v1"
  rendererContract := 6
  tenant := "t"
  epoch := 1
  projectionRoot := 7
  completeness := ⟨8, .safe, "checker", "1", true⟩
  issueNonce := 9

def sampleHandle : SafeExpandHandle := (issue frontDigest 10 sampleRequest).toOption.getD default

def liveWith (completeness : LiveCompleteness) : LiveExpandState where
  projectRoot := 1
  requestRoot := 2
  protectedScopeRoot := 3
  demandPlanRoot := 4
  indexRoot := 5
  indexVersion := "v1"
  rendererContract := 6
  tenant := "t"
  epoch := 1
  projectionRoot := 7
  completeness := completeness
  hiddenRetryAfterIssue := false

theorem issue_sample : issue frontDigest 10 sampleRequest = .ok sampleHandle := by decide +kernel

theorem guarded_sample : Guarded frontDigest 10 [sampleHandle] sampleHandle where
  returned := by
    intro g hg
    rw [mem_singleton.mp hg]
    exact ⟨sampleRequest, issue_sample⟩
  injective := by
    rintro _ ⟨f, hf, rfl⟩ _ ⟨g, hg, rfl⟩ _
    simp only [mem_cons, not_mem_nil, or_false, or_self] at hf hg
    rw [hf, hg]
  unforged := fun _ => ⟨sampleHandle, mem_singleton_self _, rfl⟩

theorem sample_handle_safe :
    revalidate frontDigest 10 sampleHandle (liveWith ⟨some 8, .safe, some "checker", some "1", true⟩) =
      .safe sampleHandle.permit := by
  have hplain : LiveCompleteness.Plain ⟨some 8, .safe, some "checker", some "1", true⟩ :=
    ⟨by decide, by decide, by decide⟩
  refine ((revalidate_safe_iff frontDigest 10 [sampleHandle] sampleHandle _ guarded_sample).mpr ?_ _).mpr ?_
  · rintro ⟨-, -, hspells, -⟩
    exact hspells.sentinel hplain
  refine ⟨mem_singleton_self _, ⟨rfl, rfl, rfl, rfl, rfl, rfl, rfl, rfl, rfl, rfl⟩, ?_, rfl, rfl⟩
  exact ⟨rfl, rfl, rfl, rfl, rfl⟩

/-- A live state that spells out a zero certificate root and empty names for the checker is taken for a match. -/
theorem sentinels_accepted : Guarded frontDigest 10 [sampleHandle] sampleHandle ∧
    revalidate frontDigest 10 sampleHandle (liveWith ⟨some 0, .safe, some "", some "", true⟩) =
      .safe sampleHandle.permit ∧
    ¬ Complete sampleHandle.completeness (liveWith ⟨some 0, .safe, some "", some "", true⟩).completeness := by
  refine ⟨guarded_sample, by decide +kernel, ?_⟩
  intro hcomplete
  have hidentity := hcomplete.checkerIdentity
  exact absurd hidentity (by decide)

end Zero.SafeExpand
