import ZeroStack.Gc.Records

/-! The mark phase: the records name the seeds, and what is embedded in a seed is marked with it. What cannot be read,
verified or kept within its cap makes the marks uncertain. -/

open Wire Tracing Zero.Zbf

namespace Zero.Gc

def gcMaxEvidenceItems : ℕ := 256
def gcEvidenceTruncated : String := "evidence truncated at GC_MAX_EVIDENCE_ITEMS"
def casMaxObjectBytes : ℕ := 256 * 1024 * 1024

def reasonCodes : List String :=
  ["reachability-root", "ref-child", "pin", "active-lease", "stale-lease-grace", "shared-root", "unknown-version",
    "corrupt-metadata", "uncertain-metadata", "unpublished-temp", "namespace-isolation", "no-live-reference"]

inductive CasError where
  | notFound
  | io (message : String)
  | digestMismatch (expected actual : String)
  | policyDenied (message : String)
  | malformed (message : String)
  deriving DecidableEq

def CasError.display : CasError → String
  | .notFound => "missing: object not found"
  | .io message => s!"io: {message}"
  | .digestMismatch expected actual => s!"digest_mismatch: expected {expected}, got {actual}"
  | .policyDenied message => s!"policy_denied: {message}"
  | .malformed message => s!"malformed: {message}"

def CasError.toGcError : CasError → GcError
  | .io message => .io message
  | .digestMismatch _ _ => .corruptMetadata "" "CAS object corruption"
  | .policyDenied message => .policy message
  | .malformed message => .schemaViolation message
  | .notFound => .uncertainMetadata "CAS object not found"

structure ObjectFile where
  bytes : List UInt8
  readError : Option String
  modified : Option SystemTime
  deriving DecidableEq

inductive PathEntry where
  | absent
  | failed (error : String)
  | regular (file : ObjectFile)
  | other (modified : Option SystemTime)
  deriving DecidableEq

structure Listed where
  name : String
  own : Bool
  deriving DecidableEq

structure ObjectTree where
  entry : String → PathEntry
  listed : Except CasError (List Listed)

/-- An entry of `gc/reports`. A name that is not UTF-8 is empty, and a time that the system does not tell is 0. -/
structure ReportEntry where
  name : String
  isFile : Except GcError Bool
  modified : Except GcError SystemTime
  deriving DecidableEq

/-- The store, and the progress files by the id of their run. The progress is what `read_gc_json` makes
of the file. -/
structure GcStore (Progress : Type) where
  reports : Listing ReportEntry
  roots : GcNamespace (Option (Except GcError ReachabilitySnapshot))
  pins : GcNamespace (Listing (RecordFile PinRecord))
  leases : GcNamespace (Listing (RecordFile LeaseRecord))
  objects : ObjectTree
  progress : String → Option (Except GcError Progress)

/-- What the collector takes from its surroundings, the length of a record's JSON text among them. -/
structure GcHost where
  sha256 : List UInt8 → Sha256Digest
  contractDigest : String
  storeRoot : String
  jsonLength : Json → ℕ
  jsonLength_eq : ∀ value, jsonLength value = value.prettyLength 0

structure MarkMeta where
  reasons : Std.TreeSet String := ∅
  evidence : Std.TreeSet String := ∅

structure MarkState where
  live : Std.TreeMap String MarkMeta := ∅
  uncertain : Bool := false
  globalEvidence : Std.TreeSet String := ∅

def dropLargest : ℕ → Std.TreeSet String → Std.TreeSet String
  | 0, values => values
  | fuel + 1, values =>
    if values.size ≤ gcMaxEvidenceItems then values
    else match values.toList.reverse.find? (· ≠ gcEvidenceTruncated) with
      | none => values
      | some removable => dropLargest fuel (values.erase removable)

def pushBoundedSet (values : Std.TreeSet String) (value : String) : Std.TreeSet String :=
  let values := values.insert value
  if values.size ≤ gcMaxEvidenceItems then values
  else
    let values := values.insert gcEvidenceTruncated
    dropLargest values.size values

def markUncertain (evidence : String) (state : MarkState) : MarkState :=
  { state with uncertain := true, globalEvidence := pushBoundedSet state.globalEvidence evidence }

def markHash (reason evidence : String) (state : MarkState) (hash : String) : MarkState :=
  if gcMaxReportObjects ≤ state.live.size ∧ !state.live.contains hash then
    markUncertain s!"live hash traversal exceeded {gcMaxReportObjects}" state
  else
    let found := state.live.getD hash {}
    let marks := ⟨found.reasons.insert reason, pushBoundedSet found.evidence evidence⟩
    { state with live := state.live.insert hash marks }

section Model
variable {Progress : Type} (host : GcHost)

def GcHost.namespaceDir (subdir : String) : String := host.storeRoot ++ "/gc/" ++ subdir

def visitRecord {R : Type} (read : RecordPath → Except GcError R → Except GcError R)
    (visit : RecordPath → R → MarkState → MarkState) : RecordVisit R MarkState := fun path json state =>
  match read path json with
  | .ok record => .ok (visit path record state)
  | .error (.panicked panic) => .error (.panicked panic)
  | .error err => .ok (markUncertain s!"{path.display}: {err.display}" state)

def walkGcRecords {R : Type} (read : RecordPath → Except GcError R → Except GcError R)
    (visit : RecordPath → R → MarkState → MarkState) (parent : String)
    (records : GcNamespace (Listing (RecordFile R))) (state : MarkState) : Except GcError MarkState :=
  walkGcJson (visitRecord read visit) parent records state

def PinRecord.expired (pin : PinRecord) (now : SystemTime) : Bool :=
  (pin.expiresAt.bind parsedTime).any (· ≤ now)

variable (now : SystemTime)

def visitPin (path : RecordPath) (pin : PinRecord) (state : MarkState) : MarkState :=
  if pin.expired now then state else markHash "pin" s!"pin {path.display}" state pin.blobHash

def loadAllPins (store : GcStore Progress) (state : MarkState) : Except GcError MarkState :=
  walkGcRecords (readPinRecord host.contractDigest) (visitPin now) (host.namespaceDir "pins") store.pins state

def visitRoot (producer project : String) (current : Option (Except GcError ReachabilitySnapshot))
    (state : Bool × MarkState) : Except GcError (Bool × MarkState) :=
  let path := recordPath (host.namespaceDir "roots") producer project "current.json"
  match current with
  | none => .ok (true, markUncertain s!"missing reachability snapshot {path.display}" state.2)
  | some json =>
    match readReachabilitySnapshot host.contractDigest path json with
    | .ok snap =>
      let evidence := s!"root {path.display} epoch {snap.epoch}"
      .ok (true, snap.blobHashes.foldl (markHash "reachability-root" evidence) state.2)
    | .error (.panicked panic) => .error (.panicked panic)
    | .error err => .ok (true, markUncertain s!"{path.display}: {err.display}" state.2)

def loadReachabilityRoots (store : GcStore Progress) (state : MarkState) : Except GcError MarkState :=
  if !store.roots.isDir then
    .ok (markUncertain "missing gc/roots directory; reachability metadata absent" state)
  else do
    let (sawAnyProject, state) ← walkGcProjects (visitRoot host) (host.namespaceDir "roots") store.roots (false, state)
    if !sawAnyProject then
      .ok (markUncertain "gc/roots has no project namespaces; reachability metadata absent" state)
    else .ok state

inductive LeaseLiveness where
  | active
  | inGrace
  | stale
  deriving DecidableEq

def LeaseRecord.liveness (lease : LeaseRecord) (now : SystemTime) (graceSeconds : ℕ) : LeaseLiveness :=
  let expires := (parsedTime lease.expiresAt).getD now
  let graceEnd := checkedAdd expires (max lease.graceSeconds graceSeconds)
  if now ≤ expires then .active
  else if graceEnd.all (now < ·) then .inGrace
  else .stale

def applyLeaseLiveness (graceSeconds : ℕ) (path : RecordPath) (lease : LeaseRecord) (state : MarkState) : MarkState :=
  match lease.liveness now graceSeconds with
  | .active => lease.blobHashes.foldl (markHash "active-lease" s!"lease {path.display}") state
  | .inGrace => lease.blobHashes.foldl (markHash "stale-lease-grace" s!"lease {path.display} inside grace") state
  | .stale =>
    lease.blobHashes.foldl (markHash "stale-lease-grace" s!"lease {path.display} retained on uncertain liveness")
      (markUncertain s!"lease {path.display} stale outside grace; owner liveness unverified" state)

variable (objects : ObjectTree)

def getVerified (hash : String) : Except CasError (List UInt8) :=
  if !isValidHash hash then
    .error (.malformed s!"identity must be full lowercase 64-hex SHA-256, got '{hash}'")
  else match objects.entry hash with
    | .absent => .error .notFound
    | .failed error => .error (.io s!"stat object: {error}")
    | .other _ =>
      let short := String.ofList (hash.toList.take 8)
      .error (.malformed s!"object {short} in 'shared-cas' is not a regular file")
    | .regular file =>
      let size := file.bytes.length
      let actual := contentSha256Hex host.sha256 file.bytes
      if casMaxObjectBytes < size then
        .error (.policyDenied s!"object of {size} bytes exceeds the CAS size policy ({casMaxObjectBytes} bytes)")
      else match file.readError with
        | some error => .error (.io s!"read object: {error}")
        | none => if actual ≠ hash then .error (.digestMismatch hash actual) else .ok file.bytes

def traceSeed (state : MarkState) (seed : String) : MarkState :=
  match getVerified host objects seed with
  | .error .notFound =>
    markUncertain s!"reachable seed {seed} missing from CAS; refs evidence incomplete" state
  | .error error => markUncertain s!"refs seed {seed} unreadable: {error.display}" state
  | .ok bytes =>
    match refsFromVerifiedBytes host.sha256 bytes with
    | .ok refs => refs.foldl (markHash "ref-child" s!"ref from {seed}") state
    | .error reason => markUncertain s!"refs evidence corrupt for {seed}: {reason}" state

def traceRefs (state : MarkState) : MarkState :=
  state.live.keys.foldl (traceSeed host objects) state

def loadMarkState (graceSeconds : ℕ) (store : GcStore Progress) : Except GcError MarkState := do
  let state ← loadReachabilityRoots host store {}
  let state ← loadAllPins host now store state
  let state ← walkGcRecords (readLeaseRecord host.contractDigest) (applyLeaseLiveness now graceSeconds)
    (host.namespaceDir "leases") store.leases state
  .ok (traceRefs host store.objects state)

end Model

section Grow

instance : Preorder MarkState where
  le s t := (s.uncertain = true → t.uncertain = true) ∧ (∀ h ∈ s.live, h ∈ t.live) ∧
    (s.live.size ≤ gcMaxReportObjects → t.live.size ≤ gcMaxReportObjects)
  le_refl _ := ⟨id, fun _ => id, id⟩
  le_trans _ _ _ hst htu := ⟨htu.1 ∘ hst.1, fun h hs => htu.2.1 h (hst.2.1 h hs), htu.2.2 ∘ hst.2.2⟩

def Covered (hash : String) (state : MarkState) : Prop := state.uncertain = true ∨ hash ∈ state.live

theorem Covered.mono {hash : String} {s t : MarkState} (hst : s ≤ t) (h : Covered hash s) : Covered hash t :=
  h.imp hst.1 (hst.2.1 hash)

variable {reason evidence : String} (state : MarkState)

theorem le_markUncertain : state ≤ markUncertain evidence state := ⟨fun _ => rfl, fun _ => id, id⟩

theorem le_markHash (hash : String) : state ≤ markHash reason evidence state hash := by
  unfold markHash
  split_ifs with hfull
  · exact le_markUncertain _
  · refine ⟨id, fun h hh => Std.TreeMap.mem_insert.mpr (.inr hh), fun hsize => ?_⟩
    rw [Std.TreeMap.size_insert]
    split_ifs with hcontains
    · exact hsize
    · simp only [hcontains, Bool.not_false, and_true, not_le] at hfull
      exact hfull

theorem covered_markHash (hash : String) : Covered hash (markHash reason evidence state hash) := by
  unfold markHash
  split_ifs with hfull
  · exact .inl rfl
  · exact .inr Std.TreeMap.mem_insert_self

theorem foldl_markHash (reason evidence : String) (state : MarkState) (hashes : List String) :
    state ≤ hashes.foldl (markHash reason evidence) state ∧
      ∀ h ∈ hashes, Covered h (hashes.foldl (markHash reason evidence) state) :=
  foldl_establishes (fun s h => le_markHash s h) (fun s h => covered_markHash s h)
    (fun _ _ _ hst h => h.mono hst) hashes state

end Grow

section Seeds
variable {Progress : Type} {host : GcHost} {now : SystemTime} {graceSeconds : ℕ} {store : GcStore Progress}
  {s t : MarkState}

/-- A record that was read and that names the hash: the current snapshot of a project, a pin that has not
expired, or a lease. -/
inductive Seed (host : GcHost) (now : SystemTime) (store : GcStore Progress) (hash : String) : Prop where
  | root (producer project : String) (json : Except GcError ReachabilitySnapshot) (snap : ReachabilitySnapshot)
      (has : store.roots.Has producer project (some json))
      (read : readReachabilitySnapshot host.contractDigest
        (recordPath (host.namespaceDir "roots") producer project "current.json") json = .ok snap)
      (mem : hash ∈ snap.blobHashes)
  | pin (path : RecordPath) (json : Except GcError PinRecord) (pin : PinRecord)
      (has : store.pins.HasRecord (host.namespaceDir "pins") path json)
      (read : readPinRecord host.contractDigest path json = .ok pin)
      (unexpired : pin.expired now = false) (names : pin.blobHash = hash)
  | lease (path : RecordPath) (json : Except GcError LeaseRecord) (lease : LeaseRecord)
      (has : store.leases.HasRecord (host.namespaceDir "leases") path json)
      (read : readLeaseRecord host.contractDigest path json = .ok lease) (mem : hash ∈ lease.blobHashes)

def Refers (host : GcHost) (objects : ObjectTree) (hash child : String) : Prop :=
  ∃ bytes refs, getVerified host objects hash = .ok bytes ∧ refsFromVerifiedBytes host.sha256 bytes = .ok refs ∧
    child ∈ refs

def RootMarked (host : GcHost) (producer project : String) (current : Option (Except GcError ReachabilitySnapshot))
    (state : MarkState) : Prop :=
  state.uncertain = true ∨ ∃ json snap, current = some json ∧ readReachabilitySnapshot host.contractDigest
      (recordPath (host.namespaceDir "roots") producer project "current.json") json = .ok snap ∧
    ∀ h ∈ snap.blobHashes, Covered h state

theorem RootMarked.mono {producer project : String} {current : Option (Except GcError ReachabilitySnapshot)}
    (hst : s ≤ t) (h : RootMarked host producer project current s) : RootMarked host producer project current t := by
  rcases h with h | ⟨json, snap, hcurrent, hread, hall⟩
  · exact .inl (hst.1 h)
  · exact .inr ⟨json, snap, hcurrent, hread, fun h hh => (hall h hh).mono hst⟩

theorem visitRoot_marks {producer project : String} {current : Option (Except GcError ReachabilitySnapshot)}
    {s t : Bool × MarkState} (h : visitRoot host producer project current s = .ok t) :
    s ≤ t ∧ RootMarked host producer project current t.2 := by
  unfold visitRoot at h
  unfold RootMarked
  generalize recordPath (host.namespaceDir "roots") producer project "current.json" = path at h ⊢
  cases current with
  | none =>
    cases h
    exact ⟨Prod.le_def.mpr ⟨Bool.le_true _, le_markUncertain _⟩, .inl rfl⟩
  | some json =>
    dsimp only at h
    split at h
    next snap hread =>
      cases h
      obtain ⟨hle, hall⟩ := foldl_markHash "reachability-root" s!"root {path.display} epoch {snap.epoch}" s.2
        snap.blobHashes
      exact ⟨Prod.le_def.mpr ⟨Bool.le_true _, hle⟩, .inr ⟨json, snap, rfl, hread, hall⟩⟩
    next => cases h
    next err _ hread =>
      cases h
      exact ⟨Prod.le_def.mpr ⟨Bool.le_true _, le_markUncertain _⟩, .inl rfl⟩

def RootsReadable (roots : GcNamespace (Option (Except GcError ReachabilitySnapshot))) : Prop :=
  ∃ tree, roots.Readable tree ∧ tree.contents ≠ []

theorem loadReachabilityRoots_readable (h : loadReachabilityRoots host store s = .ok t) :
    t.uncertain = true ∨ RootsReadable store.roots := by
  unfold loadReachabilityRoots at h
  split_ifs at h with hdir
  · cases h
    exact .inl rfl
  · obtain ⟨⟨sawAny, walked⟩, hwalk, hend⟩ := bind_eq_ok.mp h
    dsimp only at hend
    split_ifs at hend with hnone
    · cases hend
      exact .inl rfl
    · rcases walkGcProjects_form hwalk with habsent | ⟨tree, htree, -⟩
      · simp [habsent, GcNamespace.isDir] at hdir
      · refine .inr ⟨tree, htree, fun hempty => hnone ?_⟩
        -- Without a project the walk hands back the flag that it was given.
        rw [htree.1] at hwalk
        obtain ⟨n, hflag, -⟩ := walkGcProjects_counts (fun state => state.2.1.toNat) (fun _ => 0) 0
          (by simp [hempty]) hwalk
        simpa [hempty] using hflag

theorem loadReachabilityRoots_marks (h : loadReachabilityRoots host store s = .ok t) :
    s ≤ t ∧ ∀ producer project current, store.roots.Has producer project current →
      RootMarked host producer project current t := by
  unfold loadReachabilityRoots at h
  split_ifs at h with hdir
  · cases h
    exact ⟨le_markUncertain _, fun _ _ _ _ => .inl rfl⟩
  · obtain ⟨⟨sawAny, walked⟩, hwalk, hend⟩ := bind_eq_ok.mp h
    obtain ⟨hle, hall⟩ := walkGcProjects_visits (fun _ _ _ _ _ hvisit => (visitRoot_marks hvisit).1) hwalk
    have hwalked : walked ≤ t := by
      dsimp only at hend
      split_ifs at hend
      · cases hend
        exact le_markUncertain _
      · cases hend
        exact le_rfl
    refine ⟨le_trans (Prod.le_def.mp hle).2 hwalked, fun p q a hhas => ?_⟩
    obtain ⟨u, v, hvisit, hv⟩ := hall p q a hhas
    exact (visitRoot_marks hvisit).2.mono (le_trans (Prod.le_def.mp hv).2 hwalked)

section Records
variable {R : Type} {read : RecordPath → Except GcError R → Except GcError R}
  {visit : RecordPath → R → MarkState → MarkState} {P : R → MarkState → Prop}

def RecordMarked (read : RecordPath → Except GcError R → Except GcError R) (P : R → MarkState → Prop)
    (path : RecordPath) (json : Except GcError R) (state : MarkState) : Prop :=
  state.uncertain = true ∨ ∃ r, read path json = .ok r ∧ P r state

theorem RecordMarked.mono (hup : ∀ r s t, s ≤ t → P r s → P r t) {path : RecordPath} {json : Except GcError R}
    (hst : s ≤ t) (h : RecordMarked read P path json s) : RecordMarked read P path json t := by
  rcases h with h | ⟨r, hread, hr⟩
  · exact .inl (hst.1 h)
  · exact .inr ⟨r, hread, hup r s t hst hr⟩

theorem visitRecord_eq_ok {path : RecordPath} {json : Except GcError R}
    (h : visitRecord read visit path json s = .ok t) :
    (∃ r, read path json = .ok r ∧ t = visit path r s) ∨ ∃ evidence, t = markUncertain evidence s := by
  unfold visitRecord at h
  split at h
  next r hread =>
    cases h
    exact .inl ⟨r, hread, rfl⟩
  next => cases h
  next err _ _ =>
    cases h
    exact .inr ⟨_, rfl⟩

theorem walkGcRecords_marks (hgrows : ∀ path r s, s ≤ visit path r s) (hputs : ∀ path r s, P r (visit path r s))
    (hup : ∀ r s t, s ≤ t → P r s → P r t) {parent : String} {records : GcNamespace (Listing (RecordFile R))}
    (h : walkGcRecords read visit parent records s = .ok t) : s ≤ t ∧ records.RecordsReadable ∧
      ∀ path json, records.HasRecord parent path json → RecordMarked read P path json t := by
  have hstep : ∀ path json u v, visitRecord read visit path json u = .ok v → u ≤ v := by
    intro path json u v hvisit
    rcases visitRecord_eq_ok hvisit with ⟨r, -, rfl⟩ | ⟨evidence, rfl⟩
    · exact hgrows path r u
    · exact le_markUncertain u
  obtain ⟨hle, hall⟩ := walkGcJson_visits hstep h
  refine ⟨hle, walkGcJson_form h, fun path json hhas => ?_⟩
  obtain ⟨u, v, hvisit, hv⟩ := hall path json hhas
  refine RecordMarked.mono hup hv ?_
  rcases visitRecord_eq_ok hvisit with ⟨r, hread, rfl⟩ | ⟨evidence, rfl⟩
  · exact .inr ⟨r, hread, hputs path r u⟩
  · exact .inl rfl

end Records

def PinMarked (now : SystemTime) (pin : PinRecord) (state : MarkState) : Prop :=
  pin.expired now = true ∨ Covered pin.blobHash state

theorem PinMarked.mono (pin : PinRecord) (s t : MarkState) (hst : s ≤ t) (h : PinMarked now pin s) :
    PinMarked now pin t := h.imp id (Covered.mono hst)

theorem loadAllPins_marks (h : loadAllPins host now store s = .ok t) :
    s ≤ t ∧ store.pins.RecordsReadable ∧ ∀ path json, store.pins.HasRecord (host.namespaceDir "pins") path json →
      RecordMarked (readPinRecord host.contractDigest) (PinMarked now) path json t := by
  apply walkGcRecords_marks _ _ PinMarked.mono h
  · intro path pin s
    unfold visitPin
    split_ifs
    · exact le_rfl
    · exact le_markHash _ _
  · intro path pin s
    unfold visitPin
    split_ifs with hexpired
    · exact .inl hexpired
    · exact .inr (covered_markHash _ _)

def LeaseMarked (now : SystemTime) (graceSeconds : ℕ) (lease : LeaseRecord) (state : MarkState) : Prop :=
  (∀ h ∈ lease.blobHashes, Covered h state) ∧ (lease.liveness now graceSeconds = .stale → state.uncertain = true)

theorem LeaseMarked.mono (lease : LeaseRecord) (s t : MarkState) (hst : s ≤ t)
    (h : LeaseMarked now graceSeconds lease s) : LeaseMarked now graceSeconds lease t :=
  ⟨fun hash hmem => (h.1 hash hmem).mono hst, fun hstale => hst.1 (h.2 hstale)⟩

theorem applyLeaseLiveness_marks (path : RecordPath) (lease : LeaseRecord) (s : MarkState) :
    s ≤ applyLeaseLiveness now graceSeconds path lease s ∧
      LeaseMarked now graceSeconds lease (applyLeaseLiveness now graceSeconds path lease s) := by
  unfold applyLeaseLiveness LeaseMarked
  cases hlive : lease.liveness now graceSeconds with
  | active =>
    obtain ⟨hle, hall⟩ := foldl_markHash "active-lease" s!"lease {path.display}" s lease.blobHashes
    exact ⟨hle, hall, fun h => nomatch h⟩
  | inGrace =>
    obtain ⟨hle, hall⟩ := foldl_markHash "stale-lease-grace" s!"lease {path.display} inside grace"
      s lease.blobHashes
    exact ⟨hle, hall, fun h => nomatch h⟩
  | stale =>
    have hfirst : s ≤ markUncertain s!"lease {path.display} stale outside grace; owner liveness unverified" s :=
      le_markUncertain s
    obtain ⟨hle, hall⟩ := foldl_markHash "stale-lease-grace" s!"lease {path.display} retained on uncertain liveness"
      (markUncertain s!"lease {path.display} stale outside grace; owner liveness unverified" s) lease.blobHashes
    exact ⟨le_trans hfirst hle, hall, fun _ => hle.1 rfl⟩

def Traced (host : GcHost) (objects : ObjectTree) (seed : String) (state : MarkState) : Prop :=
  state.uncertain = true ∨ ∃ bytes refs, getVerified host objects seed = .ok bytes ∧
    refsFromVerifiedBytes host.sha256 bytes = .ok refs ∧ ∀ child ∈ refs, Covered child state

theorem traceSeed_marks (objects : ObjectTree) (s : MarkState) (seed : String) :
    s ≤ traceSeed host objects s seed ∧ Traced host objects seed (traceSeed host objects s seed) := by
  unfold traceSeed Traced
  cases hget : getVerified host objects seed with
  | error error => cases error <;> exact ⟨le_markUncertain _, .inl rfl⟩
  | ok bytes =>
    dsimp only
    cases hrefs : refsFromVerifiedBytes host.sha256 bytes with
    | error reason => exact ⟨le_markUncertain _, .inl rfl⟩
    | ok refs =>
      obtain ⟨hle, hall⟩ := foldl_markHash "ref-child" s!"ref from {seed}" s refs
      exact ⟨hle, .inr ⟨bytes, refs, rfl, hrefs, hall⟩⟩

theorem Traced.mono {objects : ObjectTree} {seed : String} (hst : s ≤ t) (h : Traced host objects seed s) :
    Traced host objects seed t := by
  rcases h with h | ⟨bytes, refs, hget, hrefs, hall⟩
  · exact .inl (hst.1 h)
  · exact .inr ⟨bytes, refs, hget, hrefs, fun c hc => (hall c hc).mono hst⟩

theorem traceRefs_marks (host : GcHost) (objects : ObjectTree) (s : MarkState) :
    s ≤ traceRefs host objects s ∧ ∀ seed ∈ s.live, Traced host objects seed (traceRefs host objects s) := by
  obtain ⟨hle, hall⟩ := foldl_establishes
    (fun s seed => (traceSeed_marks objects s seed).1) (fun s seed => (traceSeed_marks objects s seed).2)
    (fun _ _ _ hst h => h.mono hst) s.live.keys s
  exact ⟨hle, fun seed hseed => hall seed (Std.TreeMap.mem_keys.mpr hseed)⟩

/-- Every record and every traced object could be read and verified, the leases are alive or in their
grace, and what they keep fits under the cap. -/
structure Intact (host : GcHost) (now : SystemTime) (graceSeconds : ℕ) (store : GcStore Progress) : Prop where
  rootsReadable : RootsReadable store.roots
  pinsReadable : store.pins.RecordsReadable
  leasesReadable : store.leases.RecordsReadable
  roots : ∀ producer project current, store.roots.Has producer project current → ∃ json snap, current = some json ∧
    readReachabilitySnapshot host.contractDigest
      (recordPath (host.namespaceDir "roots") producer project "current.json") json = .ok snap
  pins : ∀ path json, store.pins.HasRecord (host.namespaceDir "pins") path json →
    ∃ pin, readPinRecord host.contractDigest path json = .ok pin
  leases : ∀ path json, store.leases.HasRecord (host.namespaceDir "leases") path json →
    ∃ lease, readLeaseRecord host.contractDigest path json = .ok lease ∧ lease.liveness now graceSeconds ≠ .stale
  objects : ∀ seed, Seed host now store seed → ∃ bytes refs, getVerified host store.objects seed = .ok bytes ∧
    refsFromVerifiedBytes host.sha256 bytes = .ok refs
  bounded : ∃ marked : List String, marked.length ≤ gcMaxReportObjects ∧
    ∀ hash, (Seed host now store hash ∨ ∃ seed, Seed host now store seed ∧ Refers host store.objects seed hash) →
      hash ∈ marked

structure Marked (host : GcHost) (now : SystemTime) (graceSeconds : ℕ) (store : GcStore Progress)
    (state : MarkState) : Prop where
  intact : Intact host now graceSeconds store
  seeds : ∀ hash, Seed host now store hash → hash ∈ state.live
  refs : ∀ seed hash, Seed host now store seed → Refers host store.objects seed hash → hash ∈ state.live

def loadSeeds (host : GcHost) (now : SystemTime) (graceSeconds : ℕ) (store : GcStore Progress) :
    Except GcError MarkState := do
  let state ← loadReachabilityRoots host store {}
  let state ← loadAllPins host now store state
  walkGcRecords (readLeaseRecord host.contractDigest) (applyLeaseLiveness now graceSeconds)
    (host.namespaceDir "leases") store.leases state

theorem loadMarkState_eq_ok {state : MarkState} : loadMarkState host now graceSeconds store = .ok state ↔
    ∃ seeds, loadSeeds host now graceSeconds store = .ok seeds ∧ traceRefs host store.objects seeds = state := by
  have hsplit : loadMarkState host now graceSeconds store =
      (loadSeeds host now graceSeconds store >>= fun seeds => .ok (traceRefs host store.objects seeds)) := by
    simp only [loadMarkState, loadSeeds, bind_assoc]
  rw [hsplit, bind_eq_ok]
  simp only [Except.ok.injEq]

structure SeedsMarked (host : GcHost) (now : SystemTime) (graceSeconds : ℕ) (store : GcStore Progress)
    (state : MarkState) : Prop where
  grown : {} ≤ state
  rootsReadable : state.uncertain = true ∨ RootsReadable store.roots
  pinsReadable : store.pins.RecordsReadable
  leasesReadable : store.leases.RecordsReadable
  roots : ∀ producer project current, store.roots.Has producer project current →
    RootMarked host producer project current state
  pins : ∀ path json, store.pins.HasRecord (host.namespaceDir "pins") path json →
    RecordMarked (readPinRecord host.contractDigest) (PinMarked now) path json state
  leases : ∀ path json, store.leases.HasRecord (host.namespaceDir "leases") path json →
    RecordMarked (readLeaseRecord host.contractDigest) (LeaseMarked now graceSeconds) path json state

theorem loadSeeds_marks {seeds : MarkState} (h : loadSeeds host now graceSeconds store = .ok seeds) :
    SeedsMarked host now graceSeconds store seeds := by
  obtain ⟨rooted, hroots, h⟩ := bind_eq_ok.mp h
  obtain ⟨pinned, hpins, h⟩ := bind_eq_ok.mp h
  obtain ⟨hle₁, hrooted⟩ := loadReachabilityRoots_marks hroots
  obtain ⟨hle₂, hpinsReadable, hpinned⟩ := loadAllPins_marks hpins
  obtain ⟨hle₃, hleasesReadable, hleased⟩ := walkGcRecords_marks
    (fun path lease s => (applyLeaseLiveness_marks path lease s).1)
    (fun path lease s => (applyLeaseLiveness_marks path lease s).2) LeaseMarked.mono h
  have hrooted_le : rooted ≤ seeds := le_trans hle₂ hle₃
  exact ⟨le_trans hle₁ hrooted_le, (loadReachabilityRoots_readable hroots).imp hrooted_le.1 id, hpinsReadable,
    hleasesReadable, fun p q a hhas => (hrooted p q a hhas).mono hrooted_le,
    fun path json hhas => (hpinned path json hhas).mono PinMarked.mono hle₃, hleased⟩

theorem loadSeeds_seed {seeds : MarkState} (h : loadSeeds host now graceSeconds store = .ok seeds)
    (hcertain : seeds.uncertain ≠ true) {hash : String} (hseed : Seed host now store hash) : hash ∈ seeds.live := by
  have hmarks := loadSeeds_marks h
  cases hseed with
  | root producer project json snap has read mem =>
    obtain ⟨json', snap', heq, hread, hall⟩ := (hmarks.roots producer project _ has).resolve_left hcertain
    cases heq
    rw [read] at hread
    cases hread
    exact (hall hash mem).resolve_left hcertain
  | pin path json pin has read unexpired names =>
    obtain ⟨pin', hread, hmark⟩ := (hmarks.pins path json has).resolve_left hcertain
    rw [read] at hread
    cases hread
    rw [← names]
    exact (hmark.resolve_left (by simp [unexpired])).resolve_left hcertain
  | lease path json lease has read mem =>
    obtain ⟨lease', hread, hmark⟩ := (hmarks.leases path json has).resolve_left hcertain
    rw [read] at hread
    cases hread
    exact (hmark.1 hash mem).resolve_left hcertain

theorem loadMarkState_bounded {state : MarkState} (h : loadMarkState host now graceSeconds store = .ok state) :
    state.live.size ≤ gcMaxReportObjects := by
  obtain ⟨seeds, hseeds, rfl⟩ := loadMarkState_eq_ok.mp h
  have hle : {} ≤ traceRefs host store.objects seeds :=
    le_trans (loadSeeds_marks hseeds).grown (traceRefs_marks host store.objects seeds).1
  exact hle.2.2 (Nat.zero_le _)

theorem loadMarkState_marked {state : MarkState} (h : loadMarkState host now graceSeconds store = .ok state)
    (hcertain : state.uncertain = false) : Marked host now graceSeconds store state := by
  obtain ⟨seeds, hseeds, rfl⟩ := loadMarkState_eq_ok.mp h
  obtain ⟨hle, htraced⟩ := traceRefs_marks host store.objects seeds
  have hmarks := loadSeeds_marks hseeds
  -- The seeds were certain, since the marks that grew from them are.
  have hlast : (traceRefs host store.objects seeds).uncertain ≠ true := by simp [hcertain]
  have hfirst : seeds.uncertain ≠ true := fun hu => hlast (hle.1 hu)
  have hobjects : ∀ seed, Seed host now store seed → ∃ bytes refs, getVerified host store.objects seed = .ok bytes ∧
      refsFromVerifiedBytes host.sha256 bytes = .ok refs ∧
      ∀ child ∈ refs, Covered child (traceRefs host store.objects seeds) :=
    fun seed hseed => (htraced seed (loadSeeds_seed hseeds hfirst hseed)).resolve_left hlast
  have hrefs : ∀ seed hash, Seed host now store seed → Refers host store.objects seed hash →
      hash ∈ (traceRefs host store.objects seeds).live := by
    rintro seed hash hseed ⟨bytes, refs, hget, hrefs, hmem⟩
    obtain ⟨bytes', refs', hget', hrefs', hall⟩ := hobjects seed hseed
    rw [hget] at hget'
    cases hget'
    rw [hrefs] at hrefs'
    cases hrefs'
    exact (hall hash hmem).resolve_left hlast
  have hlive : ∀ hash, Seed host now store hash → hash ∈ (traceRefs host store.objects seeds).live :=
    fun hash hseed => hle.2.1 hash (loadSeeds_seed hseeds hfirst hseed)
  refine ⟨⟨hmarks.rootsReadable.resolve_left hfirst, hmarks.pinsReadable, hmarks.leasesReadable, ?_, ?_, ?_, ?_, ?_⟩,
    hlive, hrefs⟩
  · intro producer project current has
    obtain ⟨json, snap, heq, hread, -⟩ := (hmarks.roots producer project current has).resolve_left hfirst
    exact ⟨json, snap, heq, hread⟩
  · intro path json has
    obtain ⟨pin, hread, -⟩ := (hmarks.pins path json has).resolve_left hfirst
    exact ⟨pin, hread⟩
  · intro path json has
    obtain ⟨lease, hread, hmark⟩ := (hmarks.leases path json has).resolve_left hfirst
    exact ⟨lease, hread, fun hstale => hfirst (hmark.2 hstale)⟩
  · intro seed hseed
    obtain ⟨bytes, refs, hget, hrefs, -⟩ := hobjects seed hseed
    exact ⟨bytes, refs, hget, hrefs⟩
  · refine ⟨(traceRefs host store.objects seeds).live.keys, ?_, ?_⟩
    · rw [Std.TreeMap.length_keys]
      exact loadMarkState_bounded h
    · rintro hash (hseed | ⟨seed, hseed, hrefers⟩)
      · exact Std.TreeMap.mem_keys.mpr (hlive hash hseed)
      · exact Std.TreeMap.mem_keys.mpr (hrefs seed hash hseed hrefers)

end Seeds
end Zero.Gc
