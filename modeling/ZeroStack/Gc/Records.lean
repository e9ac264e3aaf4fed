import ZeroStack.Gc.Refs
import ZeroStack.Gc.Time
import ZeroStack.Tracing.Reach

/-! The records that keep objects alive, as the collector reads them: root snapshots, pins and leases. A store holds,
in place of a record's file, what `read_gc_json` makes of it. -/

open Wire Tracing

namespace Zero.Gc

def gcSchemaVersion : String := "zerostack.cas-gc"
def gcMaxReportObjects : ℕ := 65536
def gcMaxProducerNamespaces : ℕ := 1024
def gcMaxProjectNamespaces : ℕ := gcMaxReportObjects
def gcMinGraceSeconds : ℕ := 60

inductive GcError where
  | panicked (panic : Panic)
  | io (error : String)
  | json (error : String)
  | schemaViolation (reason : String)
  | corruptMetadata (path reason : String)
  | uncertainMetadata (reason : String)
  | policy (reason : String)
  | faultInjected
  deriving DecidableEq

def GcError.display : GcError → String
  | .panicked _ => "panicked"
  | .io error => s!"io error: {error}"
  | .json error => s!"json error: {error}"
  | .schemaViolation reason => s!"schema violation: {reason}"
  | .corruptMetadata path reason => s!"corrupt metadata at {path}: {reason}"
  | .uncertainMetadata reason => s!"uncertain metadata: {reason}"
  | .policy reason => s!"policy violation: {reason}"
  | .faultInjected => "fault injected"

structure RecordHeader where
  schemaVersion : String
  recordType : String
  engine : String
  projectId : String
  storeContractDigest : Option String
  deriving DecidableEq

structure ReachabilitySnapshot extends RecordHeader where
  epoch : ℕ
  publishedAt : String
  blobHashes : List String
  deriving DecidableEq

structure PinRecord extends RecordHeader where
  pinId : String
  createdAt : String
  expiresAt : Option String
  blobHash : String
  deriving DecidableEq

structure LeaseOwner where
  pid : ℕ
  host : String
  deriving DecidableEq

structure LeaseRecord extends RecordHeader where
  operationId : String
  epoch : ℕ
  owner : LeaseOwner
  startedAt : String
  expiresAt : String
  graceSeconds : ℕ
  blobHashes : List String
  deriving DecidableEq

def isLowerHexChar (c : Char) : Bool := c.isDigit || ('a' ≤ c && c ≤ 'f')

def isValidHash (s : String) : Bool := s.length = 64 && s.toList.all isLowerHexChar

def isIdChar (c : Char) : Bool := c.isAlphanum || c = '.' || c = '_' || c = '-'

def isValidPinId (s : String) : Bool :=
  s.length ≠ 0 && s.length ≤ 128 && s.toList.head?.any Char.isAlphanum && s.toList.all isIdChar

def isProducerChar (c : Char) : Bool := c.isLower || c.isDigit || c = '.' || c = '_' || c = '-'

def isValidProducerId (s : String) : Bool :=
  s.length ≠ 0 && s.length ≤ 64 && s.toList.head?.any Char.isAlphanum && s.toList.getLast?.any Char.isAlphanum &&
    s.toList.all isProducerChar

abbrev Listing (α : Type) := Except GcError (List (Except GcError α))

structure DirEntry (α : Type) where
  name : Option String
  isDir : Except GcError Bool
  content : α

/-- What stands at `gc/<subdir>`: nothing, something that cannot be looked at, something that is not a real directory
and may lead to one, or the directory of the producers. -/
inductive GcNamespace (α : Type) where
  | absent
  | failed (error : String)
  | other (leadsToDir : Bool)
  | dir (producers : Listing (DirEntry (Listing (DirEntry α))))

def GcNamespace.isDir {α : Type} : GcNamespace α → Bool
  | .other leadsToDir => leadsToDir
  | .dir _ => true
  | _ => false

structure RecordFile (R : Type) where
  name : String
  isFile : Except GcError Bool
  json : Except GcError R

def RecordFile.isJson {R : Type} (file : RecordFile R) : Bool :=
  ".json".toList.isSuffixOf file.name.toList && file.name ≠ ".json"

structure RecordPath where
  engine : String
  project : String
  display : String

def corrupt (path : RecordPath) (reason : String) : GcError := .corruptMetadata path.display reason

section Read
variable (contractDigest : String) (path : RecordPath)

def require (p : Bool) (reason : String) : Except GcError Unit :=
  if !p then .error (corrupt path reason) else .ok ()

def requireTime (s field : String) : Except GcError SystemTime :=
  match parseRfc3339 s with
  | .error panic => .error (.panicked panic)
  | .ok none => .error (corrupt path s!"invalid {field}")
  | .ok (some t) => .ok t

def requireMin (value min : ℕ) (field : String) : Except GcError Unit :=
  require path (min ≤ value) s!"{field} {value} < {min}"

def requireHashes (hashes : List String) : Except GcError Unit := do
  require path (hashes.length ≤ gcMaxBlobHashes) s!"too many blob hashes (max {gcMaxBlobHashes})"
  hashes.forM fun h => require path (isValidHash h) s!"invalid blob hash {h}"

def validateNamespace (engine projectId : String) : Except GcError Unit := do
  require path (path.engine = engine) s!"engine mismatch: path {path.engine}, record {engine}"
  require path (path.project = projectId) s!"project_id mismatch: path {path.project}, record {projectId}"

def validateRecordCommon (header : RecordHeader) (expected : String) : Except GcError Unit := do
  require path (header.recordType = expected) s!"record_type {header.recordType}"
  require path (header.schemaVersion = gcSchemaVersion) s!"unsupported schema_version {header.schemaVersion}"
  require path (header.storeContractDigest = some contractDigest) "store_contract_digest mismatch"
  require path (isValidProducerId header.engine) s!"invalid producer id {header.engine}"
  require path (isValidHash header.projectId) "invalid project_id"
  validateNamespace path header.engine header.projectId

def readReachabilitySnapshot (json : Except GcError ReachabilitySnapshot) : Except GcError ReachabilitySnapshot := do
  let snap ← json
  validateRecordCommon contractDigest path snap.toRecordHeader "reachability-snapshot"
  requireMin path snap.epoch 1 "epoch"
  let _ ← requireTime path snap.publishedAt "published_at"
  requireHashes path snap.blobHashes
  .ok snap

def readPinRecord (json : Except GcError PinRecord) : Except GcError PinRecord := do
  let pin ← json
  validateRecordCommon contractDigest path pin.toRecordHeader "pin"
  require path (isValidPinId pin.pinId) s!"invalid pin_id {pin.pinId}"
  let createdAt ← requireTime path pin.createdAt "created_at"
  match pin.expiresAt with
  | none => .ok ()
  | some expires => do
    let expiresAt ← requireTime path expires "expires_at"
    require path (createdAt ≤ expiresAt) "expires_at precedes created_at"
  require path (isValidHash pin.blobHash) s!"invalid blob_hash {pin.blobHash}"
  .ok pin

def isControl (c : Char) : Bool := c.toNat < 32 || c.toNat = 127

def readLeaseRecord (json : Except GcError LeaseRecord) : Except GcError LeaseRecord := do
  let lease ← json
  validateRecordCommon contractDigest path lease.toRecordHeader "lease"
  require path (isValidPinId lease.operationId) s!"invalid operation_id {lease.operationId}"
  requireMin path lease.epoch 1 "epoch"
  require path (lease.owner.pid ≠ 0) "owner.pid must be >= 1"
  require path (lease.owner.host.utf8ByteSize ≠ 0 && lease.owner.host.utf8ByteSize ≤ 255 &&
    !lease.owner.host.toList.any isControl) "invalid owner.host"
  let startedAt ← requireTime path lease.startedAt "started_at"
  let expiresAt ← requireTime path lease.expiresAt "expires_at"
  require path (startedAt ≤ expiresAt) "expires_at precedes started_at"
  requireMin path lease.graceSeconds gcMinGraceSeconds "grace_seconds"
  requireHashes path lease.blobHashes
  .ok lease

end Read

section Walk
variable {α σ : Type}

def requireDirUtf8Name (parent noun : String) (entry : DirEntry α) : Except GcError String := do
  let isDir ← entry.isDir
  let path := parent ++ "/" ++ entry.name.getD "�"
  if !isDir then .error (.corruptMetadata path s!"GC {noun} namespace is not a real directory")
  else match entry.name with
    | none => .error (.corruptMetadata path s!"GC {noun} namespace is not UTF-8")
    | some name => .ok name

abbrev Visit (α σ : Type) := String → String → α → σ → Except GcError σ

variable (f : Visit α σ)

def visitProject (parent producer : String) (state : ℕ × σ) (entry : Except GcError (DirEntry α)) :
    Except GcError (ℕ × σ) := do
  let entry ← entry
  let project ← requireDirUtf8Name (parent ++ "/" ++ producer) "project" entry
  if !isValidHash project then
    .error (.corruptMetadata (parent ++ "/" ++ producer ++ "/" ++ project) "invalid project_id namespace")
  else if gcMaxProjectNamespaces < state.1 + 1 then
    .error (.policy s!"GC project traversal exceeds {gcMaxProjectNamespaces}")
  else do
    let s ← f producer project entry.content state.2
    .ok (state.1 + 1, s)

def walkProjectNamespaces (parent producer : String) (projects : Listing (DirEntry α))
    (state : ℕ × σ) : Except GcError (ℕ × σ) := do
  let entries ← projects
  entries.foldlM (visitProject f parent producer) state

def visitProducer (parent : String) (state : ℕ × ℕ × σ)
    (entry : Except GcError (DirEntry (Listing (DirEntry α)))) : Except GcError (ℕ × ℕ × σ) := do
  let entry ← entry
  let producer ← requireDirUtf8Name parent "producer" entry
  if !isValidProducerId producer then
    .error (.corruptMetadata (parent ++ "/" ++ producer) s!"invalid producer id {producer}")
  else if gcMaxProducerNamespaces < state.1 + 1 then
    .error (.policy s!"GC producer traversal exceeds {gcMaxProducerNamespaces}")
  else do
    let s ← walkProjectNamespaces f parent producer entry.content state.2
    .ok (state.1 + 1, s)

def walkGcProjects (parent : String) : GcNamespace α → σ → Except GcError σ
  | .absent, s => .ok s
  | .failed error, _ => .error (.io error)
  | .other _, _ => .error (.corruptMetadata parent "GC namespace is not a real directory")
  | .dir producers, s => do
    let entries ← producers
    let (_, _, s) ← entries.foldlM (visitProducer f parent) (0, 0, s)
    .ok s

def recordPath (parent producer project file : String) : RecordPath :=
  ⟨producer, project, parent ++ "/" ++ producer ++ "/" ++ project ++ "/" ++ file⟩

abbrev RecordVisit (R σ : Type) := RecordPath → Except GcError R → σ → Except GcError σ

def visitEntry {R : Type} (visit : RecordVisit R σ) (parent producer project : String)
    (state : ℕ × σ) (entry : Except GcError (RecordFile R)) : Except GcError (ℕ × σ) := do
  let file ← entry
  let path := recordPath parent producer project file.name
  let isFile ← file.isFile
  if !isFile then .error (corrupt path "GC metadata entry is not a real file")
  else if !file.isJson then .ok state
  else if gcMaxBlobHashes ≤ state.1 then .error (.policy s!"GC JSON traversal exceeds {gcMaxBlobHashes} entries")
  else do
    let s ← visit path file.json state.2
    .ok (state.1 + 1, s)

def visitListing {R : Type} (visit : RecordVisit R σ) (parent : String) :
    Visit (Listing (RecordFile R)) (ℕ × σ) := fun producer project listing state => do
  let entries ← listing
  entries.foldlM (visitEntry visit parent producer project) state

def walkGcJson {R : Type} (visit : RecordVisit R σ) (parent : String)
    (records : GcNamespace (Listing (RecordFile R))) (s : σ) : Except GcError σ := do
  let (_, s) ← walkGcProjects (visitListing visit parent) parent records (0, s)
  .ok s

def GcNamespace.Has (records : GcNamespace α) (producer project : String) (content : α) : Prop :=
  ∃ producers p projects q, records = .dir (.ok producers) ∧ .ok p ∈ producers ∧ p.name = some producer ∧
    p.content = .ok projects ∧ .ok q ∈ projects ∧ q.name = some project ∧ q.content = content

def GcNamespace.HasRecord {R : Type} (records : GcNamespace (Listing (RecordFile R))) (parent : String)
    (path : RecordPath) (json : Except GcError R) : Prop :=
  ∃ producer project entries file, records.Has producer project (.ok entries) ∧ .ok file ∈ entries ∧
    file.isJson = true ∧ path = recordPath parent producer project file.name ∧ json = file.json

abbrev GcTree (α : Type) := List (String × List (String × α))

def GcTree.toDir (tree : GcTree α) : GcNamespace α :=
  .dir (.ok (tree.map fun p => .ok ⟨some p.1, .ok true, .ok (p.2.map fun q => .ok ⟨some q.1, .ok true, q.2⟩)⟩))

def GcTree.contents (tree : GcTree α) : List α := tree.flatMap fun p => p.2.map (·.2)

structure GcTree.Valid (tree : GcTree α) : Prop where
  producer : ∀ p ∈ tree, isValidProducerId p.1 = true
  project : ∀ p ∈ tree, ∀ q ∈ p.2, isValidHash q.1 = true
  producers : tree.length ≤ gcMaxProducerNamespaces
  projects : tree.contents.length ≤ gcMaxProjectNamespaces

def GcNamespace.Readable (records : GcNamespace α) (tree : GcTree α) : Prop := records = tree.toDir ∧ tree.Valid

def jsonFiles {R : Type} (listing : Listing (RecordFile R)) : ℕ :=
  (listing.toOption.getD []).countP fun entry => entry.toOption.any RecordFile.isJson

def GcNamespace.RecordsReadable {R : Type} (records : GcNamespace (Listing (RecordFile R))) : Prop :=
  records = .absent ∨ ∃ tree, records.Readable tree ∧ (tree.contents.map jsonFiles).sum ≤ gcMaxBlobHashes ∧
    ∀ listing ∈ tree.contents, ∃ files : List (RecordFile R), listing = .ok (files.map .ok) ∧
      ∀ file ∈ files, file.isFile = .ok true

theorem requireDirUtf8Name_eq_ok {parent noun name : String} {entry : DirEntry α}
    (h : requireDirUtf8Name parent noun entry = .ok name) : entry = ⟨some name, .ok true, entry.content⟩ := by
  obtain ⟨found, isDir, content⟩ := entry
  obtain ⟨real, rfl, h⟩ := bind_eq_ok.mp h
  obtain ⟨hreal, h⟩ := guard_eq_ok.mp h
  cases found with
  | none => cases h
  | some found =>
    cases h
    rw [(Bool.not_eq_false real).mp fun hnot => hreal (by rw [hnot]; rfl)]

variable {parent : String}

section Congr
variable {f g : Visit α σ}

end Congr

section Visits
variable {f : Visit α σ} {s t : ℕ × σ}

theorem visitProject_eq_ok {producer : String} {entry : Except GcError (DirEntry α)}
    (h : visitProject f parent producer s entry = .ok t) : ∃ project content,
      entry = .ok ⟨some project, .ok true, content⟩ ∧ isValidHash project = true ∧
      f producer project content s.2 = .ok t.2 ∧ t.1 = s.1 + 1 ∧ t.1 ≤ gcMaxProjectNamespaces := by
  obtain ⟨q, rfl, hq⟩ := bind_eq_ok.mp h
  obtain ⟨project, hproject, hq⟩ := bind_eq_ok.mp hq
  obtain ⟨hvalid, hq⟩ := guard_eq_ok.mp hq
  obtain ⟨hcount, hq⟩ := guard_eq_ok.mp hq
  obtain ⟨next, hvisit, hq⟩ := bind_eq_ok.mp hq
  cases hq
  exact ⟨project, q.content, congrArg Except.ok (requireDirUtf8Name_eq_ok hproject), by simpa using hvalid, hvisit, rfl,
    Nat.not_lt.mp hcount⟩

theorem visitProducer_eq_ok {s t : ℕ × ℕ × σ} {entry : Except GcError (DirEntry (Listing (DirEntry α)))}
    (h : visitProducer f parent s entry = .ok t) : ∃ producer projects,
      entry = .ok ⟨some producer, .ok true, projects⟩ ∧ isValidProducerId producer = true ∧
      walkProjectNamespaces f parent producer projects s.2 = .ok t.2 ∧ t.1 = s.1 + 1 ∧
      t.1 ≤ gcMaxProducerNamespaces := by
  obtain ⟨p, rfl, hp⟩ := bind_eq_ok.mp h
  obtain ⟨producer, hproducer, hp⟩ := bind_eq_ok.mp hp
  obtain ⟨hvalid, hp⟩ := guard_eq_ok.mp hp
  obtain ⟨hcount, hp⟩ := guard_eq_ok.mp hp
  obtain ⟨next, hwalk, hp⟩ := bind_eq_ok.mp hp
  cases hp
  exact ⟨producer, p.content, congrArg Except.ok (requireDirUtf8Name_eq_ok hproducer),
    by simpa using hvalid, hwalk, rfl,
    Nat.not_lt.mp hcount⟩

theorem walkProjectNamespaces_form {producer : String} {projects : Listing (DirEntry α)}
    (h : walkProjectNamespaces f parent producer projects s = .ok t) : ∃ qs : List (String × α),
      projects = .ok (qs.map fun q => .ok ⟨some q.1, .ok true, q.2⟩) ∧
      ∀ q ∈ qs, isValidHash q.1 = true ∧ ∃ u v, f producer q.1 q.2 u = .ok v := by
  obtain ⟨entries, rfl, hfold⟩ := bind_eq_ok.mp h
  have hstep : ∀ u entry v, visitProject f parent producer u entry = .ok v → ∃ q : String × α,
      entry = .ok ⟨some q.1, .ok true, q.2⟩ ∧ isValidHash q.1 = true ∧ ∃ u v, f producer q.1 q.2 u = .ok v := by
    intro u entry v hvisit
    obtain ⟨project, content, hentry, hvalid, hput, -⟩ := visitProject_eq_ok hvisit
    exact ⟨(project, content), hentry, hvalid, u.2, v.2, hput⟩
  obtain ⟨qs, rfl, hvalid⟩ := foldlM_form hstep hfold
  exact ⟨qs, rfl, hvalid⟩

section Counts
variable {tree : GcTree α} {s t : σ}

theorem walkGcProjects_counts (count : ℕ × σ → ℕ) (size : α → ℕ) (cap : ℕ)
    (hstep : ∀ content ∈ tree.contents, ∀ producer project u v,
      visitProject f parent producer u (.ok ⟨some project, .ok true, content⟩) = .ok v →
        count v = count u + size content ∧ (count u ≤ cap → count v ≤ cap))
    (h : walkGcProjects f parent tree.toDir s = .ok t) : ∃ n,
      count (n, t) = count (0, s) + (tree.contents.map size).sum ∧ (count (0, s) ≤ cap → count (n, t) ≤ cap) := by
  obtain ⟨entries, hentries, h⟩ := bind_eq_ok.mp h
  cases hentries
  obtain ⟨⟨producers, n, last⟩, hfold, h⟩ := bind_eq_ok.mp h
  cases h
  have hproducer : ∀ p ∈ tree, ∀ u v, visitProducer f parent u
      (.ok ⟨some p.1, .ok true, .ok (p.2.map fun q => .ok ⟨some q.1, .ok true, q.2⟩)⟩) = .ok v →
        count v.2 = count u.2 + (p.2.map (size ·.2)).sum ∧ (count u.2 ≤ cap → count v.2 ≤ cap) := by
    intro p hp u v hvisit
    obtain ⟨producer, projects, hentry, -, hwalk, -⟩ := visitProducer_eq_ok hvisit
    cases hentry
    have hmem : ∀ q ∈ p.2, q.2 ∈ tree.contents :=
      fun q hq => List.mem_flatMap.mpr ⟨p, hp, List.mem_map_of_mem hq⟩
    exact foldlM_counts count (fun q : String × α => size q.2) (fun q hq u v => hstep q.2 (hmem q hq) p.1 q.1 u v) hwalk
  obtain ⟨hcount, hcap⟩ := foldlM_counts (fun state : ℕ × ℕ × σ => count state.2) _ hproducer hfold
  refine ⟨n, hcount.trans ?_, hcap⟩
  simp [GcTree.contents, List.flatMap_def, List.sum_flatten, Function.comp_def]

end Counts

theorem walkGcProjects_form {s t : σ} {records : GcNamespace α} (h : walkGcProjects f parent records s = .ok t) :
    records = .absent ∨ ∃ tree, records.Readable tree ∧ ∀ p ∈ tree, ∀ q ∈ p.2, ∃ u v, f p.1 q.1 q.2 u = .ok v := by
  cases records with
  | absent => exact .inl rfl
  | failed error | other leadsToDir => cases h
  | dir producers =>
    right
    obtain ⟨entries, rfl, hentries⟩ := bind_eq_ok.mp h
    obtain ⟨⟨producers, n, last⟩, hfold, hentries⟩ := bind_eq_ok.mp hentries
    have hstep : ∀ u entry v, visitProducer f parent u entry = .ok v → ∃ p : String × List (String × α),
        entry = .ok ⟨some p.1, .ok true, .ok (p.2.map fun q => .ok ⟨some q.1, .ok true, q.2⟩)⟩ ∧
        isValidProducerId p.1 = true ∧ ∀ q ∈ p.2, isValidHash q.1 = true ∧ ∃ u v, f p.1 q.1 q.2 u = .ok v := by
      intro u entry v hvisit
      obtain ⟨producer, projects, hentry, hvalid, hwalk, -⟩ := visitProducer_eq_ok hvisit
      obtain ⟨qs, rfl, hprojects⟩ := walkProjectNamespaces_form hwalk
      exact ⟨(producer, qs), hentry, hvalid, hprojects⟩
    obtain ⟨tree, rfl, hnames⟩ := foldlM_form hstep hfold
    obtain ⟨hlength, hproducers⟩ := foldlM_counts Prod.fst (fun _ => 1) (fun p _ u v hvisit => by
      obtain ⟨-, -, -, -, -, hcount, hcap⟩ := visitProducer_eq_ok hvisit
      exact ⟨hcount, fun _ => hcap⟩) hfold
    obtain ⟨m, hm, hprojects⟩ := walkGcProjects_counts Prod.fst (fun _ => 1) gcMaxProjectNamespaces
      (fun content _ producer project u v hvisit => by
        obtain ⟨-, -, -, -, -, hcount, hcap⟩ := visitProject_eq_ok hvisit
        exact ⟨hcount, fun _ => hcap⟩) h
    refine ⟨tree, ⟨rfl, fun p hp => (hnames p hp).1, fun p hp q hq => ((hnames p hp).2 q hq).1, ?_, ?_⟩,
      fun p hp q hq => ((hnames p hp).2 q hq).2⟩
    · have hle := hproducers (Nat.zero_le _)
      rw [hlength] at hle
      simpa using hle
    · have hle := hprojects (Nat.zero_le _)
      rw [hm] at hle
      simpa using hle

section Listing
variable {R : Type} {visit : RecordVisit R σ}

theorem visitEntry_eq_ok {producer project : String} {entry : Except GcError (RecordFile R)}
    (h : visitEntry visit parent producer project s entry = .ok t) : ∃ file, entry = .ok file ∧
      file.isFile = .ok true ∧ t.1 = s.1 + (if file.isJson then 1 else 0) ∧
      (s.1 ≤ gcMaxBlobHashes → t.1 ≤ gcMaxBlobHashes) := by
  obtain ⟨file, rfl, hfile⟩ := bind_eq_ok.mp h
  obtain ⟨isFile, hreal, hfile⟩ := bind_eq_ok.mp hfile
  obtain ⟨htrue, hfile⟩ := guard_eq_ok.mp hfile
  refine ⟨file, rfl, by simpa [hreal] using htrue, ?_⟩
  cases hjson : file.isJson with
  | false =>
    rw [hjson, Bool.not_false, if_pos rfl] at hfile
    cases hfile
    exact ⟨rfl, id⟩
  | true =>
    rw [hjson, Bool.not_true, if_neg Bool.false_ne_true] at hfile
    obtain ⟨hroom, hfile⟩ := guard_eq_ok.mp hfile
    obtain ⟨next, -, hfile⟩ := bind_eq_ok.mp hfile
    cases hfile
    exact ⟨rfl, fun _ => Nat.not_le.mp hroom⟩

theorem sum_isJson (files : List (RecordFile R)) :
    (files.map fun file => if file.isJson then 1 else 0).sum = jsonFiles (.ok (files.map .ok)) := by
  induction files with
  | nil => rfl
  | cons file files ih =>
    rw [List.map_cons, List.sum_cons, ih, Nat.add_comm]
    simp only [jsonFiles, Except.toOption, Option.getD_some, List.map_cons, List.countP_cons, Option.any_some]

theorem visitListing_eq_ok {producer project : String} {listing : Listing (RecordFile R)}
    (h : visitListing visit parent producer project listing s = .ok t) :
    (∃ files : List (RecordFile R), listing = .ok (files.map .ok) ∧ ∀ file ∈ files, file.isFile = .ok true) ∧
      t.1 = s.1 + jsonFiles listing ∧ (s.1 ≤ gcMaxBlobHashes → t.1 ≤ gcMaxBlobHashes) := by
  obtain ⟨entries, rfl, hfold⟩ := bind_eq_ok.mp h
  have hform : ∀ u entry v, visitEntry visit parent producer project u entry = .ok v →
      ∃ file : RecordFile R, entry = .ok file ∧ file.isFile = .ok true := by
    intro u entry v hvisit
    obtain ⟨file, hentry, hreal, -⟩ := visitEntry_eq_ok hvisit
    exact ⟨file, hentry, hreal⟩
  obtain ⟨files, rfl, hreal⟩ := foldlM_form hform hfold
  obtain ⟨hcount, hcap⟩ := foldlM_counts Prod.fst (fun file => if file.isJson then 1 else 0)
    (fun file _ u v hvisit => by
      obtain ⟨found, hfound, -, hcount⟩ := visitEntry_eq_ok hvisit
      cases hfound
      exact hcount) hfold
  exact ⟨⟨files, rfl, hreal⟩, sum_isJson files ▸ hcount, hcap⟩

theorem walkGcJson_form {records : GcNamespace (Listing (RecordFile R))} {s t : σ}
    (h : walkGcJson visit parent records s = .ok t) : records.RecordsReadable := by
  obtain ⟨last, hwalk, -⟩ := bind_eq_ok.mp h
  refine (walkGcProjects_form hwalk).imp id ?_
  rintro ⟨tree, ⟨rfl, hvalid⟩, hread⟩
  obtain ⟨n, hcount, hcap⟩ := walkGcProjects_counts (fun state => state.2.1) jsonFiles gcMaxBlobHashes
    (fun content _ producer project u v hvisit => by
      obtain ⟨project', content', hentry, -, hput, -⟩ := visitProject_eq_ok hvisit
      cases hentry
      exact (visitListing_eq_ok hput).2) hwalk
  refine ⟨tree, ⟨rfl, hvalid⟩, ?_, fun listing hlisting => ?_⟩
  · have hle := hcap (Nat.zero_le _)
    rw [hcount] at hle
    simpa using hle
  · obtain ⟨p, hp, hmem⟩ := List.mem_flatMap.mp hlisting
    obtain ⟨q, hq, rfl⟩ := List.mem_map.mp hmem
    obtain ⟨u, v, hvisit⟩ := hread p hp q hq
    exact (visitListing_eq_ok hvisit).1

end Listing

variable [Preorder σ]

section
variable (hgrows : ∀ p q a s t, f p q a s = .ok t → s ≤ t)
include hgrows

theorem walkProjectNamespaces_visits {producer : String} {projects : Listing (DirEntry α)}
    (h : walkProjectNamespaces f parent producer projects s = .ok t) :
    s ≤ t ∧ ∀ entries q project, projects = .ok entries → .ok q ∈ entries → q.name = some project →
      ∃ u v, f producer project q.content u = .ok v ∧ v ≤ t.2 := by
  obtain ⟨entries, rfl, hfold⟩ := bind_eq_ok.mp h
  have hstep : ∀ u entry v, visitProject f parent producer u entry = .ok v → u ≤ v := by
    intro u entry v hvisit
    obtain ⟨project, content, -, -, hput, hcount, -⟩ := visitProject_eq_ok hvisit
    exact Prod.le_def.mpr ⟨hcount ▸ Nat.le_succ _, hgrows _ _ _ _ _ hput⟩
  obtain ⟨hle, hall⟩ := foldlM_visits hstep hfold
  refine ⟨hle, fun entries' q project heq hq hname => ?_⟩
  cases heq
  obtain ⟨u, v, hvisit, hv⟩ := hall _ hq
  obtain ⟨project', content, hq', -, hput, -⟩ := visitProject_eq_ok hvisit
  cases hq'
  cases hname
  exact ⟨u.2, v.2, hput, (Prod.le_def.mp hv).2⟩

theorem walkGcProjects_visits {s t : σ} {records : GcNamespace α} (h : walkGcProjects f parent records s = .ok t) :
    s ≤ t ∧ ∀ p q a, records.Has p q a → ∃ u v, f p q a u = .ok v ∧ v ≤ t := by
  cases records with
  | absent =>
    cases h
    exact ⟨le_rfl, fun p q a ⟨_, _, _, _, hdir, _⟩ => nomatch hdir⟩
  | failed error | other leadsToDir => cases h
  | dir producers =>
    obtain ⟨entries, rfl, hentries⟩ := bind_eq_ok.mp h
    obtain ⟨last, hfold, hentries⟩ := bind_eq_ok.mp hentries
    cases hentries
    have hstep : ∀ u entry v, visitProducer f parent u entry = .ok v → u ≤ v := by
      intro u entry v hvisit
      obtain ⟨producer, projects, -, -, hwalk, hcount, -⟩ := visitProducer_eq_ok hvisit
      exact Prod.le_def.mpr ⟨hcount ▸ Nat.le_succ _, (walkProjectNamespaces_visits hgrows hwalk).1⟩
    obtain ⟨hle, hall⟩ := foldlM_visits hstep hfold
    refine ⟨(Prod.le_def.mp (Prod.le_def.mp hle).2).2, ?_⟩
    rintro producer project _ ⟨producers, p, projects, q, hdir, hp, hname, hcontent, hq, hproject, rfl⟩
    cases hdir
    obtain ⟨u, v, hvisit, hv⟩ := hall _ hp
    obtain ⟨producer', projects', hp', -, hwalk, -⟩ := visitProducer_eq_ok hvisit
    cases hp'
    cases hname
    obtain ⟨u', v', hput, hv'⟩ := (walkProjectNamespaces_visits hgrows hwalk).2 projects q project hcontent hq hproject
    exact ⟨u', v', hput, le_trans hv' (Prod.le_def.mp (Prod.le_def.mp hv).2).2⟩

end

variable {R : Type} {visit : RecordVisit R σ}
  (hgrows : ∀ path json s t, visit path json s = .ok t → s ≤ t)
include hgrows

theorem visitEntry_visits {producer project : String} {entry : Except GcError (RecordFile R)}
    (h : visitEntry visit parent producer project s entry = .ok t) : s ≤ t ∧ ∀ file, entry = .ok file →
      file.isJson = true → visit (recordPath parent producer project file.name) file.json s.2 = .ok t.2 := by
  obtain ⟨file, rfl, hfile⟩ := bind_eq_ok.mp h
  obtain ⟨isFile, -, hfile⟩ := bind_eq_ok.mp hfile
  obtain ⟨-, hfile⟩ := guard_eq_ok.mp hfile
  cases hjson : file.isJson with
  | false =>
    rw [hjson, Bool.not_false, if_pos rfl] at hfile
    cases hfile
    refine ⟨le_rfl, fun file' hfile' hjson' => ?_⟩
    cases hfile'
    rw [hjson] at hjson'
    cases hjson'
  | true =>
    rw [hjson, Bool.not_true, if_neg Bool.false_ne_true] at hfile
    obtain ⟨-, hfile⟩ := guard_eq_ok.mp hfile
    obtain ⟨next, hvisit, hfile⟩ := bind_eq_ok.mp hfile
    cases hfile
    refine ⟨Prod.le_def.mpr ⟨Nat.le_succ _, hgrows _ _ _ _ hvisit⟩, fun file' hfile' _ => ?_⟩
    cases hfile'
    exact hvisit

theorem visitListing_visits {producer project : String} {listing : Listing (RecordFile R)}
    (h : visitListing visit parent producer project listing s = .ok t) : s ≤ t ∧ ∀ entries file,
      listing = .ok entries → .ok file ∈ entries → file.isJson = true →
        ∃ u v, visit (recordPath parent producer project file.name) file.json u = .ok v ∧ v ≤ t.2 := by
  obtain ⟨entries, rfl, hfold⟩ := bind_eq_ok.mp h
  obtain ⟨hle, hall⟩ := foldlM_visits (fun _ _ _ hentry => (visitEntry_visits hgrows hentry).1) hfold
  refine ⟨hle, fun entries' file heq hfile hjson => ?_⟩
  cases heq
  obtain ⟨u, v, hvisit, hv⟩ := hall _ hfile
  exact ⟨u.2, v.2, (visitEntry_visits hgrows hvisit).2 file rfl hjson, (Prod.le_def.mp hv).2⟩

theorem walkGcJson_visits {records : GcNamespace (Listing (RecordFile R))} {s t : σ}
    (h : walkGcJson visit parent records s = .ok t) :
    s ≤ t ∧ ∀ path json, records.HasRecord parent path json → ∃ u v, visit path json u = .ok v ∧ v ≤ t := by
  obtain ⟨last, hwalk, hlast⟩ := bind_eq_ok.mp h
  cases hlast
  obtain ⟨hle, hall⟩ := walkGcProjects_visits (fun _ _ _ _ _ hvisit => (visitListing_visits hgrows hvisit).1) hwalk
  refine ⟨(Prod.le_def.mp hle).2, ?_⟩
  rintro path json ⟨producer, project, entries, file, hhas, hfile, hjson, rfl, rfl⟩
  obtain ⟨u, v, hvisit, hv⟩ := hall _ _ _ hhas
  obtain ⟨w, x, hrecord, hx⟩ := (visitListing_visits hgrows hvisit).2 entries file rfl hfile hjson
  exact ⟨w, x, hrecord, le_trans hx (Prod.le_def.mp hv).2⟩

end Visits
end Walk
end Zero.Gc
