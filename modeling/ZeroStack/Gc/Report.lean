import Mathlib.Data.List.Sort
import ZeroStack.Gc.Mark

/-! The report of a run: a verdict for every object, and what `validate_dry_run_report` asks of it. -/

open Wire Tracing

namespace Zero.Gc

inductive GcVerdict where
  | retain
  | collect
  | retainUncertain
  deriving DecidableEq

inductive GcRunState where
  | evaluated
  | complete
  deriving DecidableEq

structure GcCandidate where
  blobHash : String
  verdict : GcVerdict
  reasonCodes : List String
  evidence : List String
  deriving DecidableEq

structure DryRunReport where
  schemaVersion : String
  recordType : String
  storeContractDigest : String
  runId : String
  storeRoot : String
  evaluatedAt : String
  apply : Bool
  state : GcRunState
  objects : List GcCandidate
  planned : List String
  deleted : List String
  deriving DecidableEq

structure GcConfig where
  runId : String
  graceSeconds : ℕ
  minAgeSeconds : ℕ
  apply : Bool
  now : SystemTime
  faultAfterDeletes : Option ℕ
  reportLimit : ℕ

def gcMaxRecordBytes : ℕ := 32 * 1024 * 1024

def serializeGcJson (host : GcHost) (value : Json) : Except GcError Unit :=
  if gcMaxRecordBytes < host.jsonLength value then
    .error (.policy s!"serialized GC record exceeds {gcMaxRecordBytes} bytes")
  else .ok ()

def textList (items : List String) : Json := .arr (items.map .text)

def GcVerdict.json : GcVerdict → Json
  | .retain => .text "retain"
  | .collect => .text "collect"
  | .retainUncertain => .text "retain-uncertain"

def GcRunState.json : GcRunState → Json
  | .evaluated => .text "evaluated"
  | .complete => .text "complete"

def GcCandidate.json (object : GcCandidate) : Json :=
  .obj [("blob_hash", .text object.blobHash), ("evidence", textList object.evidence),
    ("reason_codes", textList object.reasonCodes), ("verdict", object.verdict.json)]

def DryRunReport.json (report : DryRunReport) : Json :=
  .obj [("apply", .bool report.apply), ("deleted", textList report.deleted), ("evaluated_at", .text report.evaluatedAt),
    ("objects", .arr (report.objects.map GcCandidate.json)), ("planned", textList report.planned),
    ("record_type", .text report.recordType), ("run_id", .text report.runId),
    ("schema_version", .text report.schemaVersion), ("state", report.state.json),
    ("store_contract_digest", .text report.storeContractDigest), ("store_root", .text report.storeRoot)]

def leString (a b : String) : Bool := (compare a b).isLE

def ObjectTree.listObjectsBounded (objects : ObjectTree) (limit : ℕ) : Except CasError (List String) := do
  let listed ← objects.listed
  if limit < listed.length then .error (.malformed s!"CAS object enumeration exceeds {limit} objects")
  else .ok ((listed.map Listed.name).insertionSort (leString · ·))

def pushBounded (values : List String) (value : String) : List String :=
  if value ∈ values then values
  else if values.length < gcMaxEvidenceItems then values ++ [value]
  else if gcEvidenceTruncated ∈ values then values
  else values.set (gcMaxEvidenceItems - 1) gcEvidenceTruncated

def runIdError : GcError := .schemaViolation
  "run_id must be non-empty, <=128 chars, start with alphanumeric, and contain only alphanumeric, '.', '_', or '-'"

def validateRunId (runId : String) : Except GcError Unit :=
  if !isValidPinId runId then .error runIdError else .ok ()

def checkDistinct (check : String → Except GcError Unit) (duplicate : GcError) : List String → List String →
    Except GcError Unit
  | _, [] => .ok ()
  | seen, item :: items => do
    check item
    if item ∈ seen then .error duplicate
    else checkDistinct check duplicate (item :: seen) items

variable (items : List String)

def validateReasons : Except GcError Unit :=
  if gcMaxEvidenceItems < items.length then
    .error (.schemaViolation s!"reason_codes exceeds {gcMaxEvidenceItems} items")
  else if items.isEmpty then .error (.schemaViolation "reason_codes empty")
  else checkDistinct (fun item =>
    if item ∉ reasonCodes then .error (.schemaViolation s!"reason_code {item}") else .ok ())
    (.schemaViolation "duplicate reason_code") [] items

def validateEvidence : Except GcError Unit :=
  if gcMaxEvidenceItems < items.length then
    .error (.schemaViolation s!"evidence exceeds {gcMaxEvidenceItems} items")
  else checkDistinct (fun item => if item = "" then .error (.schemaViolation "empty evidence") else .ok ())
    (.schemaViolation "duplicate evidence") [] items

def validateHashList (field : String) : Except GcError Unit :=
  let bad := .schemaViolation s!"invalid or duplicate {field} hash"
  if gcMaxReportObjects < items.length then .error (.schemaViolation s!"{field} exceeds {gcMaxReportObjects}")
  else checkDistinct (fun hash => if !isValidHash hash then .error bad else .ok ()) bad [] items

def validateCandidates : List String → List GcCandidate → Except GcError Unit
  | _, [] => .ok ()
  | seen, object :: objects => do
    if !isValidHash object.blobHash ∨ object.blobHash ∈ seen then
      .error (.schemaViolation "invalid or duplicate blob_hash")
    else do
      validateReasons object.reasonCodes
      validateEvidence object.evidence
      validateCandidates (object.blobHash :: seen) objects

def collectHashes (objects : List GcCandidate) : List String :=
  (objects.filter (·.verdict = .collect)).map (·.blobHash)

def violation (p : Prop) [Decidable p] (reason : String) : Except GcError Unit :=
  if p then .error (.schemaViolation reason) else .ok ()

def validateStamp (evaluatedAt : String) : Except GcError Unit :=
  match parseRfc3339 evaluatedAt with
  | .error panic => .error (.panicked panic)
  | .ok none => .error (.schemaViolation "evaluated_at")
  | .ok (some _) => .ok ()

def validateDryRunReport (host : GcHost) (report : DryRunReport) : Except GcError Unit := do
  serializeGcJson host report.json
  violation (report.schemaVersion ≠ gcSchemaVersion) "schema_version"
  violation (report.recordType ≠ "gc-run-receipt") "record_type"
  violation (report.storeContractDigest ≠ host.contractDigest) "store_contract_digest"
  validateRunId report.runId
  violation (report.storeRoot = "") "store_root empty"
  validateStamp report.evaluatedAt
  violation (report.apply = false ∧ report.state = .complete) "dry run cannot have complete state"
  violation (gcMaxReportObjects < report.objects.length) s!"objects exceeds {gcMaxReportObjects}"
  validateCandidates [] report.objects
  validateHashList report.planned "planned"
  violation (report.state = .evaluated ∧
      ¬(report.planned ⊆ collectHashes report.objects ∧ collectHashes report.objects ⊆ report.planned))
    "evaluated planned set differs from collect candidates"
  violation (¬collectHashes report.objects ⊆ report.planned) "collect candidate is absent from planned set"
  validateHashList report.deleted "deleted"
  violation (¬report.deleted ⊆ report.planned) "deleted hash is absent from planned set"
  violation (∃ hash ∈ report.planned, hash ∉ report.objects.map (·.blobHash) ∧ hash ∉ report.deleted)
    "planned hash is absent from both objects and deleted"
  violation ((report.apply = false ∨ report.state ≠ .complete) ∧ report.deleted ≠ [])
    "only a complete applied run may report deletions"

section Model
variable (host : GcHost) (config : GcConfig) (objects : ObjectTree)

def ObjectTree.young (hash : String) : Bool :=
  let modified := match objects.entry hash with
    | .regular file => file.modified
    | .other modified => modified
    | _ => none
  modified.all fun m => (config.now - m).toNat / 10 ^ 9 < config.minAgeSeconds

variable (state : MarkState)

def judge (hash : String) : GcVerdict × List String × List String :=
  match state.live[hash]? with
  | some marks => (.retain, marks.reasons.toList, marks.evidence.toList)
  | none =>
    if state.uncertain then (.retainUncertain, ["uncertain-metadata"], state.globalEvidence.toList)
    else if objects.young config hash then
      (.retainUncertain, ["uncertain-metadata"], [s!"object younger than {config.minAgeSeconds} seconds"])
    else (.collect, ["no-live-reference"], ["no reachable root, pin, lease, or ref"])

def candidate (hash : String) : GcCandidate :=
  let (verdict, reasons, evidence) := judge config objects state hash
  ⟨hash, verdict, if reasons.isEmpty then ["uncertain-metadata"] else reasons, evidence.foldl pushBounded []⟩

def buildDryRunReport : Except GcError DryRunReport := do
  let hashes ← (objects.listObjectsBounded gcMaxReportObjects).mapError CasError.toGcError
  let candidates := hashes.map (candidate config objects state)
  if gcMaxReportObjects < candidates.length then .error (.policy s!"report exceeds {gcMaxReportObjects} objects")
  else
    let candidates := candidates.insertionSort (fun a b => leString a.blobHash b.blobHash)
    .ok {
      schemaVersion := gcSchemaVersion
      recordType := "gc-run-receipt"
      storeContractDigest := host.contractDigest
      runId := config.runId
      storeRoot := host.storeRoot
      evaluatedAt := formatSystemTime config.now
      apply := config.apply
      state := .evaluated
      objects := candidates
      planned := collectHashes candidates
      deleted := [] }

end Model
end Zero.Gc
