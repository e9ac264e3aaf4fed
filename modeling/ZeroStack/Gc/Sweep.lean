import ZeroStack.Gc.Report

/-! `run_gc`: the plan and the sweep. A run is the list of its durable steps with its answer; a crash, or a write that
fails, ends it after any number of them. -/

open Wire Tracing

namespace Zero.Gc

structure SweepProgress where
  schemaVersion : String
  recordType : String
  storeContractDigest : String
  runId : String
  storeRoot : String
  evaluatedAt : String
  planDigest : String
  objects : List String
  deleted : List String
  state : String
  deriving DecidableEq

abbrev Store := GcStore SweepProgress

def SweepProgress.json (progress : SweepProgress) : Json :=
  .obj [("deleted", textList progress.deleted), ("evaluated_at", .text progress.evaluatedAt),
    ("objects", textList progress.objects), ("plan_digest", .text progress.planDigest),
    ("record_type", .text progress.recordType), ("run_id", .text progress.runId),
    ("schema_version", .text progress.schemaVersion), ("state", .text progress.state),
    ("store_contract_digest", .text progress.storeContractDigest), ("store_root", .text progress.storeRoot)]

structure SweepHost extends GcHost where
  planDigest : String → String → List String → String
  reportTime : DryRunReport → SystemTime

def ObjectTree.checkRemove (objects : ObjectTree) (hash : String) : Except CasError Unit :=
  if !isValidHash hash then
    .error (.malformed s!"identity must be full lowercase 64-hex SHA-256, got '{hash}'")
  else match objects.entry hash with
    | .absent => .error .notFound
    | .failed error => .error (.io s!"stat object: {error}")
    | .other _ => .error (.malformed "sweep target is not a regular file (symlink substitution refused)")
    | .regular _ => .ok ()

def ObjectTree.remove (objects : ObjectTree) (hash : String) : ObjectTree where
  entry := Function.update objects.entry hash .absent
  listed := objects.listed.map (·.filter fun l => l ≠ ⟨hash, true⟩)

def reportName (runId : String) : String := runId ++ ".json"

/-- The durable steps of a run. Of a report the store keeps the entry in `gc/reports`: nothing reads it again. -/
inductive GcEvent where
  | wroteReport (report : DryRunReport) (modified : SystemTime)
  | prunedReport (name : String)
  | wroteProgress (progress : SweepProgress)
  | deleted (hash : String)
  | removedProgress (runId : String)
  deriving DecidableEq

def withoutReport (name : String) (entries : List (Except GcError ReportEntry)) : List (Except GcError ReportEntry) :=
  entries.filter fun entry => !entry.toOption.any (·.name = name)

def GcEvent.apply (store : Store) : GcEvent → Store
  | .wroteReport report modified =>
    let name := reportName report.runId
    { store with reports := store.reports.map fun entries =>
        withoutReport name entries ++ [.ok ⟨name, .ok true, .ok modified⟩] }
  | .prunedReport name => { store with reports := store.reports.map (withoutReport name) }
  | .wroteProgress progress =>
    { store with progress := Function.update store.progress progress.runId (some (.ok progress)) }
  | .deleted hash => { store with objects := store.objects.remove hash }
  | .removedProgress runId => { store with progress := Function.update store.progress runId none }

def applyEvents (store : Store) (events : List GcEvent) : Store := events.foldl GcEvent.apply store

section Model
variable (host : SweepHost) (config : GcConfig)

def readSweepProgress (path : RecordPath) (json : Except GcError SweepProgress) : Except GcError SweepProgress := do
  let progress ← json
  require path (progress.schemaVersion = gcSchemaVersion) s!"unsupported schema_version {progress.schemaVersion}"
  require path (progress.recordType = "sweep-progress") s!"record_type {progress.recordType}"
  require path (progress.storeContractDigest = host.contractDigest) "store_contract_digest mismatch"
  (validateRunId progress.runId).mapError fun e => corrupt path e.display
  require path (progress.storeRoot ≠ "") "store_root empty"
  let _ ← requireTime path progress.evaluatedAt "evaluated_at"
  require path (progress.state = "sweeping") s!"invalid sweep state {progress.state}"
  require path (progress.objects.length ≤ gcMaxReportObjects) s!"too many sweep objects (max {gcMaxReportObjects})"
  require path (progress.deleted.length ≤ progress.objects.length) "deleted set exceeds sweep object set"
  require path (progress.objects.Nodup ∧ progress.deleted.Nodup) "duplicate sweep hash"
  require path (progress.deleted ⊆ progress.objects) "deleted hash is outside sweep plan"
  progress.objects.forM fun h => require path (isValidHash h) s!"invalid blob hash {h}"
  require path (progress.planDigest = host.planDigest progress.runId progress.storeRoot progress.objects)
    "sweep plan digest mismatch"
  .ok progress

def progressPath (runId : String) : RecordPath :=
  ⟨"gc", "reports", host.storeRoot ++ "/gc/reports/" ++ runId ++ ".progress.json"⟩

variable (store : Store)

def priorProgress : Except GcError (Option SweepProgress) :=
  match store.progress config.runId with
  | none => .ok none
  | some json => do
    let progress ← readSweepProgress host (progressPath host config.runId) json
    if progress.runId ≠ config.runId then
      .error (.schemaViolation s!"progress run_id {progress.runId} does not match config {config.runId}")
    else if progress.storeRoot ≠ host.storeRoot then
      .error (.schemaViolation s!"progress store_root {progress.storeRoot} does not match {host.storeRoot}")
    else .ok (some progress)

def objectPath (hash : String) : String :=
  host.storeRoot ++ "/blobs/sha256/" ++ String.ofList (hash.toList.take 2) ++ "/" ++ hash

def stillDeleted (objects : ObjectTree) : List String → Except GcError (List String)
  | [] => .ok []
  | hash :: hashes =>
    match objects.entry hash with
    | .regular _ => stillDeleted objects hashes
    | .other _ =>
      .error (.corruptMetadata (objectPath host hash) "sweep progress deletion replaced by a non-regular entry")
    | .failed error => .error (.io error)
    | .absent => do
      let rest ← stillDeleted objects hashes
      .ok (hash :: rest)

structure Plan where
  objects : List String
  digest : String
  deleted : List String
  deriving DecidableEq

def resumePlan (planned : List String) : Option SweepProgress → Except GcError Plan
  | none => .ok ⟨planned, host.planDigest config.runId host.storeRoot planned, []⟩
  | some progress => do
    let deleted ← stillDeleted host store.objects progress.deleted
    if progress.objects.filter (· ∉ deleted) ≠ planned then
      .error (.schemaViolation "existing sweep progress does not match the current remaining plan")
    else .ok ⟨progress.objects, progress.planDigest, deleted⟩

def progressOf (plan : Plan) (deleted : List String) : SweepProgress where
  schemaVersion := gcSchemaVersion
  recordType := "sweep-progress"
  storeContractDigest := host.contractDigest
  runId := config.runId
  storeRoot := host.storeRoot
  evaluatedAt := formatSystemTime config.now
  planDigest := plan.digest
  objects := plan.objects
  deleted
  state := "sweeping"

def persist (plan : Plan) (deleted : List String) : Except GcError GcEvent := do
  serializeGcJson host.toGcHost (progressOf host config plan deleted).json
  .ok (.wroteProgress (progressOf host config plan deleted))

def sweepLoop (plan : Plan) : List String → List String → Store → List GcEvent × Except GcError (List String)
  | [], deleted, _ => ([], .ok deleted)
  | hash :: hashes, deleted, store =>
    if hash ∈ deleted then sweepLoop plan hashes deleted store
    else match loadMarkState host.toGcHost config.now config.graceSeconds store with
      | .error e => ([], .error e)
      | .ok state =>
        if state.live.contains hash || state.uncertain then sweepLoop plan hashes deleted store
        else match store.objects.checkRemove hash with
          | .error e => ([], .error e.toGcError)
          | .ok () =>
            match persist host config plan (deleted ++ [hash]) with
            | .error e => ([.deleted hash], .error e)
            | .ok wrote =>
              let steps := [.deleted hash, wrote]
              if config.faultAfterDeletes = some (deleted ++ [hash]).length then (steps, .error .faultInjected)
              else
                let (rest, out) := sweepLoop plan hashes (deleted ++ [hash]) (applyEvents store steps)
                (steps ++ rest, out)

def settle (deleted : List String) (object : GcCandidate) : GcCandidate :=
  if object.verdict ≠ .collect then object
  else if object.blobHash ∈ deleted then
    { object with evidence := pushBounded object.evidence "deleted by this sweep" }
  else
    { object with
      verdict := .retainUncertain
      reasonCodes := ["uncertain-metadata"]
      evidence := ["re-check before delete showed a live reference or uncertainty"] }

def finalReport (report : DryRunReport) (plan : Plan) (deleted : List String) : DryRunReport :=
  { report with
    state := .complete
    planned := plan.objects
    deleted
    objects := report.objects.map (settle deleted) }

def isReport (entry : ReportEntry) : Bool :=
  ".json".toList.isSuffixOf entry.name.toList && !".progress.json".toList.isSuffixOf entry.name.toList

def collectReport (found : List (SystemTime × String)) (entry : Except GcError ReportEntry) :
    Except GcError (List (SystemTime × String)) := do
  let entry ← entry
  let isFile ← entry.isFile
  if !isFile || !isReport entry then .ok found
  else do
    let modified ← entry.modified
    if gcMaxReportObjects ≤ found.length then
      .error (.policy s!"GC report namespace exceeds {gcMaxReportObjects} records")
    else .ok (found ++ [(modified, entry.name)])

def dropOldest (current : String) : ℕ → List String → List String
  | 0, _ => []
  | excess + 1, names =>
    let index := (names.findIdx? (· ≠ current)).getD 0
    names[index]?.toList ++ dropOldest current excess (names.eraseIdx index)

def pruneGcReports (keep : ℕ) (current : String) (reports : Listing ReportEntry) : Except GcError (List String) := do
  let entries ← reports
  let found ← entries.foldlM collectReport []
  let sorted := found.insertionSort fun a b => a.1 < b.1 ∨ a.1 = b.1 ∧ leString a.2 b.2
  .ok (dropOldest current (found.length - max keep 1) (sorted.map (·.2)))

def publishReport (report : DryRunReport) (store : Store) : List GcEvent × Except GcError Unit :=
  match serializeGcJson host.toGcHost report.json with
  | .error e => ([], .error e)
  | .ok () =>
    let wrote := GcEvent.wroteReport report (host.reportTime report)
    match pruneGcReports config.reportLimit (reportName config.runId) (wrote.apply store).reports with
    | .error e => ([wrote], .error e)
    | .ok names => (wrote :: names.map .prunedReport, .ok ())

def sweepPlan (report : DryRunReport) (plan : Plan) (store : Store) : List GcEvent × Except GcError DryRunReport :=
  match persist host config plan plan.deleted with
  | .error e => ([], .error e)
  | .ok start =>
    let (steps, out) := sweepLoop host config plan plan.objects plan.deleted (start.apply store)
    match out with
    | .error e => (start :: steps, .error e)
    | .ok deleted =>
      let final := finalReport report plan deleted
      match validateDryRunReport host.toGcHost final with
      | .error e => (start :: steps, .error e)
      | .ok () =>
        let (closing, published) := publishReport host config final (applyEvents store (start :: steps))
        match published with
        | .error e => (start :: steps ++ closing, .error e)
        | .ok () => (start :: steps ++ closing ++ [.removedProgress config.runId], .ok final)

def runMarked (prior : Option SweepProgress) (state : MarkState) : List GcEvent × Except GcError DryRunReport :=
  match buildDryRunReport host.toGcHost config store.objects state with
  | .error e => ([], .error e)
  | .ok report =>
    let (opening, published) := publishReport host config report store
    match published with
    | .error e => (opening, .error e)
    | .ok () =>
      if !config.apply then (opening, .ok report)
      else match resumePlan host config store (collectHashes report.objects) prior with
        | .error e => (opening, .error e)
        | .ok plan =>
          let (steps, out) := sweepPlan host config report plan (applyEvents store opening)
          (opening ++ steps, out)

def runGc : List GcEvent × Except GcError DryRunReport :=
  match validateRunId config.runId, priorProgress host config store,
      loadMarkState host.toGcHost config.now config.graceSeconds store with
  | .error e, _, _ => ([], .error e)
  | .ok (), .error e, _ => ([], .error e)
  | .ok (), .ok _, .error e => ([], .error e)
  | .ok (), .ok prior, .ok state => runMarked host config store prior state

end Model
end Zero.Gc
