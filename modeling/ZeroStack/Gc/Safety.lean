import ZeroStack.Gc.Sweep

/-! No run of the collector deletes an object that is reachable, and a run that cannot read everything deletes
nothing. -/

open Wire Tracing Zero.Zbf List

namespace Zero.Gc

section Reach
variable {Progress : Type} {host : GcHost} {now : SystemTime} {graceSeconds : ℕ} {store : GcStore Progress}

def NoClash (host : GcHost) (objects : ObjectTree) : Prop :=
  ∀ hash bytes frame bytes', getVerified host objects hash = .ok bytes → Embedded frame bytes →
    getVerified host objects (contentSha256Hex host.sha256 frame) = .ok bytes' → bytes' = frame

theorem Refers.trans {objects : ObjectTree} (hclash : NoClash host objects) {a b c : String}
    (hab : Refers host objects a b) (hbc : Refers host objects b c) : Refers host objects a c := by
  obtain ⟨outer, refs, houter, hrefs, hb⟩ := hab
  obtain ⟨inner, refs', hinner, hrefs', hc⟩ := hbc
  obtain ⟨hmagic, frame, hframe, rfl⟩ := (mem_refs hrefs).mp hb
  have hsame : inner = frame := hclash a outer frame inner houter hframe hinner
  rw [hsame] at hrefs'
  obtain ⟨-, deep, hdeep, rfl⟩ := (mem_refs hrefs').mp hc
  exact ⟨outer, refs, houter, hrefs, (mem_refs hrefs).mpr ⟨hmagic, deep, hdeep.trans hframe, rfl⟩⟩

/-- No record names the hash or an object that refers to it, and no chain of references leads to it. -/
structure Unreachable (host : GcHost) (now : SystemTime) (store : GcStore Progress) (hash : String) : Prop where
  unnamed : ¬Seed host now store hash
  unreferred : ∀ seed, Seed host now store seed → ¬Refers host store.objects seed hash
  unreached : NoClash host store.objects → ¬Reachable (Seed host now store) (Refers host store.objects) hash

theorem Marked.unreachable {state : MarkState} (h : Marked host now graceSeconds store state) {hash : String}
    (hdead : hash ∉ state.live) : Unreachable host now store hash := by
  have hunnamed : ¬Seed host now store hash := fun hseed => hdead (h.seeds hash hseed)
  have hunreferred : ∀ seed, Seed host now store seed → ¬Refers host store.objects seed hash :=
    fun seed hseed hrefers => hdead (h.refs seed hash hseed hrefers)
  refine ⟨hunnamed, hunreferred, fun hclash hreach => ?_⟩
  have hshort : ∀ a b c, Seed host now store a → Refers host store.objects a b → Refers host store.objects b c →
      Refers host store.objects a c := fun a b c _ hab hbc => hab.trans hclash hbc
  rcases reachable_flat hshort hreach with hseed | ⟨seed, hseed, hrefers⟩
  · exact hunnamed hseed
  · exact hunreferred seed hseed hrefers

end Reach

def deletions : Store → List GcEvent → List (Store × String)
  | _, [] => []
  | store, .deleted hash :: steps => (store, hash) :: deletions (GcEvent.apply store (.deleted hash)) steps
  | store, step :: steps => deletions (step.apply store) steps

structure Session where
  config : GcConfig
  steps : ℕ
  publish : Store → Store

structure Deletion where
  now : SystemTime
  store : Store
  hash : String

def sessionSteps (host : SweepHost) (session : Session) (store : Store) : List GcEvent :=
  (runGc host session.config store).1.take session.steps

def historyDeletions (host : SweepHost) : List Session → Store → List Deletion
  | [], _ => []
  | session :: sessions, store =>
    (deletions store (sessionSteps host session store)).map (fun d => ⟨session.config.now, d.1, d.2⟩) ++
      historyDeletions host sessions (session.publish (applyEvents store (sessionSteps host session store)))

section Steps
variable {host : SweepHost} {config : GcConfig}

theorem deletions_append (store : Store) (a b : List GcEvent) :
    deletions store (a ++ b) = deletions store a ++ deletions (applyEvents store a) b := by
  induction a generalizing store with
  | nil => rfl
  | cons step a ih =>
    cases step with
    | deleted hash =>
      rw [cons_append, deletions, ih]
      rfl
    | wroteReport report modified | prunedReport name | wroteProgress progress | removedProgress runId => exact ih _

variable {store : Store} {d : Store × String}

theorem deletions_take {steps : List GcEvent} {n : ℕ}
    (h : d ∈ deletions store (steps.take n)) : d ∈ deletions store steps := by
  rw [← take_append_drop n steps, deletions_append]
  exact mem_append_left _ h

theorem deletions_publishReport (host : SweepHost) (config : GcConfig) (report : DryRunReport) (store before : Store) :
    deletions before (publishReport host config report store).1 = [] := by
  have hpruned : ∀ (names : List String) before, deletions before (names.map .prunedReport) = [] := by
    intro names
    induction names with
    | nil => exact fun _ => rfl
    | cons name names ih => exact fun before => ih _
  unfold publishReport
  cases serializeGcJson host.toGcHost report.json with
  | error e => rfl
  | ok _ =>
    dsimp only
    cases pruneGcReports _ _ _ with
    | error e => rfl
    | ok names => exact hpruned names _

def Unmarked (host : SweepHost) (config : GcConfig) (d : Store × String) : Prop :=
  ∃ state, loadMarkState host.toGcHost config.now config.graceSeconds d.1 = .ok state ∧ state.uncertain = false ∧
    d.2 ∉ state.live

theorem persist_eq_ok {plan : Plan} {deleted : List String} {wrote : GcEvent}
    (h : persist host config plan deleted = .ok wrote) :
    wrote = .wroteProgress (progressOf host config plan deleted) := by
  obtain ⟨_, -, h⟩ := bind_eq_ok.mp h
  cases h
  rfl

theorem sweepLoop_deletion {plan : Plan} {hash : String} {hashes deleted : List String}
    (h : d ∈ deletions store (sweepLoop host config plan (hash :: hashes) deleted store).1) :
    Unmarked host config d ∨
      ∃ deleted' store', d ∈ deletions store' (sweepLoop host config plan hashes deleted' store').1 := by
  rw [sweepLoop] at h
  by_cases hgone : hash ∈ deleted
  · rw [if_pos hgone] at h
    exact .inr ⟨deleted, store, h⟩
  rw [if_neg hgone] at h
  cases hload : loadMarkState host.toGcHost config.now config.graceSeconds store with
  | error e =>
    rw [hload] at h
    cases h
  | ok state =>
    rw [hload] at h
    dsimp only at h
    by_cases hkeep : (state.live.contains hash || state.uncertain) = true
    · rw [if_pos hkeep] at h
      exact .inr ⟨deleted, store, h⟩
    rw [if_neg hkeep] at h
    rw [Bool.or_eq_true, not_or, Bool.not_eq_true state.uncertain] at hkeep
    have hhere : Unmarked host config (store, hash) := ⟨state, hload, hkeep.2, hkeep.1⟩
    cases hremove : store.objects.checkRemove hash with
    | error e =>
      rw [hremove] at h
      cases h
    | ok _ =>
      rw [hremove] at h
      dsimp only at h
      cases hpersist : persist host config plan (deleted ++ [hash]) with
      | error e =>
        rw [hpersist] at h
        rw [mem_singleton.mp h]
        exact .inl hhere
      | ok wrote =>
        obtain rfl : wrote = .wroteProgress (progressOf host config plan (deleted ++ [hash])) := persist_eq_ok hpersist
        rw [hpersist] at h
        dsimp only at h
        split_ifs at h
        · rw [mem_singleton.mp h]
          exact .inl hhere
        · rcases mem_cons.mp h with rfl | hlater
          · exact .inl hhere
          · exact .inr ⟨_, _, hlater⟩

theorem sweepLoop_deletions {plan : Plan} {hashes deleted : List String}
    (h : d ∈ deletions store (sweepLoop host config plan hashes deleted store).1) : Unmarked host config d := by
  induction hashes generalizing deleted store with
  | nil => cases h
  | cons hash hashes ih =>
    rcases sweepLoop_deletion h with hhere | ⟨_, _, hlater⟩
    · exact hhere
    · exact ih hlater

theorem sweepLoop_skip {plan : Plan} {skipped deleted : List String} (h : skipped ⊆ deleted) (rest : List String)
    (store : Store) :
    sweepLoop host config plan (skipped ++ rest) deleted store = sweepLoop host config plan rest deleted store := by
  induction skipped with
  | nil => rfl
  | cons hash skipped ih =>
    rw [cons_subset] at h
    rw [cons_append, sweepLoop, if_pos h.1, ih h.2]

theorem sweepPlan_deletions {report : DryRunReport} {plan : Plan}
    (h : d ∈ deletions store (sweepPlan host config report plan store).1) :
    d ∈ deletions (GcEvent.apply store (.wroteProgress (progressOf host config plan plan.deleted)))
      (sweepLoop host config plan plan.objects plan.deleted
        (GcEvent.apply store (.wroteProgress (progressOf host config plan plan.deleted)))).1 := by
  unfold sweepPlan at h
  cases hpersist : persist host config plan plan.deleted with
  | error e =>
    rw [hpersist] at h
    cases h
  | ok start =>
    obtain rfl : start = .wroteProgress (progressOf host config plan plan.deleted) := persist_eq_ok hpersist
    rw [hpersist] at h
    dsimp only at h
    cases hloop : sweepLoop host config plan plan.objects plan.deleted
      (GcEvent.apply store (.wroteProgress (progressOf host config plan plan.deleted))) with
    | mk steps out =>
      rw [hloop] at h
      dsimp only at h ⊢
      -- What follows the loop deletes nothing.
      have hclosing : ∀ closing : List GcEvent, (∀ before, deletions before closing = []) →
          d ∈ deletions store (.wroteProgress (progressOf host config plan plan.deleted) :: steps ++ closing) →
          d ∈ deletions (GcEvent.apply store (.wroteProgress (progressOf host config plan plan.deleted))) steps := by
        intro closing hnone hmem
        rw [deletions_append, hnone, append_nil] at hmem
        exact hmem
      cases out with
      | error e => exact hclosing [] (fun _ => rfl) (by rwa [append_nil])
      | ok deleted =>
        dsimp only at h
        cases hvalid : validateDryRunReport host.toGcHost (finalReport report plan deleted) with
        | error e =>
          rw [hvalid] at h
          exact hclosing [] (fun _ => rfl) (by rwa [append_nil])
        | ok _ =>
          rw [hvalid] at h
          dsimp only at h
          have hreport := deletions_publishReport host config (finalReport report plan deleted)
            (applyEvents store (.wroteProgress (progressOf host config plan plan.deleted) :: steps))
          generalize publishReport host config (finalReport report plan deleted) _ = published at h hreport
          obtain ⟨closing, published⟩ := published
          cases published with
          | error e => exact hclosing closing hreport h
          | ok _ =>
            dsimp only at h
            rw [append_assoc] at h
            refine hclosing _ (fun before => ?_) h
            rw [deletions_append, hreport]
            rfl

theorem collectHashes_uncertain {state : MarkState} {report : DryRunReport}
    (h : buildDryRunReport host.toGcHost config store.objects state = .ok report)
    (huncertain : state.uncertain = true) :
    collectHashes report.objects = [] := by
  obtain ⟨hashes, -, h⟩ := bind_eq_ok.mp h
  obtain ⟨-, h⟩ := guard_eq_ok.mp h
  cases h
  rw [collectHashes, map_eq_nil_iff, filter_eq_nil_iff]
  intro object hobject
  rw [mem_insertionSort, mem_map] at hobject
  obtain ⟨hash, -, rfl⟩ := hobject
  unfold candidate judge
  cases state.live[hash]? with
  | some marks => simp
  | none => simp [huncertain]

theorem resumePlan_done {prior : Option SweepProgress} {plan : Plan}
    (h : resumePlan host config store [] prior = .ok plan) : ∀ hash ∈ plan.objects, hash ∈ plan.deleted := by
  cases prior with
  | none =>
    cases h
    exact fun hash hmem => nomatch hmem
  | some progress =>
    obtain ⟨deleted, -, h⟩ := bind_eq_ok.mp h
    obtain ⟨hsame, h⟩ := guard_eq_ok.mp h
    cases h
    rw [not_not, filter_eq_nil_iff] at hsame
    intro hash hmem
    simpa using hsame hash hmem

theorem runMarked_deletions {state : MarkState} {prior : Option SweepProgress}
    (h : d ∈ deletions store (runMarked host config store prior state).1) :
    state.uncertain = false ∧ Unmarked host config d := by
  unfold runMarked at h
  cases hreport : buildDryRunReport host.toGcHost config store.objects state with
  | error e =>
    rw [hreport] at h
    cases h
  | ok report =>
    rw [hreport] at h
    dsimp only at h
    have hopening := deletions_publishReport host config report store
    generalize publishReport host config report store = published at h hopening
    obtain ⟨opening, published⟩ := published
    dsimp only at h hopening
    cases published with
    | error e =>
      rw [hopening] at h
      cases h
    | ok _ =>
      dsimp only at h
      by_cases happly : (!config.apply) = true
      · rw [if_pos happly, hopening] at h
        cases h
      rw [if_neg happly] at h
      cases hplan : resumePlan host config store (collectHashes report.objects) prior with
      | error e =>
        rw [hplan, hopening] at h
        cases h
      | ok plan =>
        rw [hplan] at h
        dsimp only at h
        rw [deletions_append, hopening, nil_append] at h
        have hsweep := sweepPlan_deletions h
        refine ⟨?_, sweepLoop_deletions hsweep⟩
        by_contra huncertain
        rw [Bool.not_eq_false] at huncertain
        rw [collectHashes_uncertain hreport huncertain] at hplan
        rw [← append_nil plan.objects, sweepLoop_skip (resumePlan_done hplan)] at hsweep
        cases hsweep

theorem runGc_deletions (h : d ∈ deletions store (runGc host config store).1) :
    (∃ state, loadMarkState host.toGcHost config.now config.graceSeconds store = .ok state ∧ state.uncertain = false) ∧
      Unmarked host config d := by
  unfold runGc at h
  split at h
  · cases h
  · cases h
  · cases h
  next prior state _ _ hload =>
    obtain ⟨hcertain, hunmarked⟩ := runMarked_deletions h
    exact ⟨⟨state, hload, hcertain⟩, hunmarked⟩

theorem runGc_safe (h : d ∈ deletions store (runGc host config store).1) :
    Unreachable host.toGcHost config.now d.1 d.2 := by
  obtain ⟨-, state, hload, hcertain, hdead⟩ := runGc_deletions h
  exact (loadMarkState_marked hload hcertain).unreachable hdead

end Steps

/-- Along every history of runs, each stopped after any of its steps and followed by any change to the store, a
deleted object is unreachable in the store it is deleted from; a run on a store that is not intact deletes nothing. -/
theorem gc_deletes_unreachable (host : SweepHost) (sessions : List Session) (store : Store) :
    (∀ d ∈ historyDeletions host sessions store, Unreachable host.toGcHost d.now d.store d.hash) ∧
    ∀ (config : GcConfig) (store : Store), ¬Intact host.toGcHost config.now config.graceSeconds store →
      deletions store (runGc host config store).1 = [] := by
  constructor
  · induction sessions generalizing store with
    | nil => exact fun d hd => nomatch hd
    | cons session sessions ih =>
      intro d hd
      rcases mem_append.mp hd with hhere | hlater
      · obtain ⟨found, hfound, rfl⟩ := mem_map.mp hhere
        exact runGc_safe (deletions_take hfound)
      · exact ih _ d hlater
  · intro config store hbroken
    by_contra hsome
    obtain ⟨d, hd⟩ := exists_mem_of_ne_nil _ hsome
    obtain ⟨⟨state, hload, hcertain⟩, -⟩ := runGc_deletions hd
    exact hbroken (loadMarkState_marked hload hcertain).intact

def sampleHost : SweepHost where
  sha256 bytes := BitVec.ofNat 256 (bytes.headD 0).toNat
  contractDigest := "contract"
  storeRoot := "/store"
  jsonLength value := value.prettyLength 0
  jsonLength_eq _ := rfl
  planDigest runId _ objects := s!"{runId} of {objects.length}"
  reportTime _ := 0

def sampleHash (byte : UInt8) : String := String.ofList (List.replicate 63 '0' ++ [hexDigit byte.toNat])

def sampleProject : String := sampleHash 0

def sampleSnapshot (blobHashes : List String) : ReachabilitySnapshot where
  schemaVersion := gcSchemaVersion
  recordType := "reachability-snapshot"
  engine := "engine"
  projectId := sampleProject
  storeContractDigest := some sampleHost.contractDigest
  epoch := 1
  publishedAt := "2024-02-29T12:34:56Z"
  blobHashes

def sampleStore (current : Option (Except GcError ReachabilitySnapshot)) (bytes : List UInt8) : Store where
  reports := .ok []
  roots := .dir (.ok [.ok ⟨some "engine", .ok true, .ok [.ok ⟨some sampleProject, .ok true, current⟩]⟩])
  pins := .absent
  leases := .absent
  objects.entry hash :=
    match bytes.find? (sampleHash · = hash) with
    | some byte => .regular ⟨[byte], none, some 0⟩
    | none => .absent
  objects.listed := .ok (bytes.map fun byte => ⟨sampleHash byte, true⟩)
  progress _ := none

def sharedStore : Store := sampleStore (some (.ok (sampleSnapshot [sampleHash 1]))) [1, 2]

def sampleConfig : GcConfig := ⟨"run", 60, 3600, true, 1709210096 * 10 ^ 9, none, 32⟩

def deniedPins : Store := { sharedStore with pins := .dir (.error (.io "permission denied")) }

theorem sample_deletes_unreachable :
    ((historyDeletions sampleHost [⟨sampleConfig, 3, id⟩] sharedStore).map (·.hash) = [sampleHash 2] ∧
      ∀ d ∈ historyDeletions sampleHost [⟨sampleConfig, 3, id⟩] sharedStore,
        Unreachable sampleHost.toGcHost d.now d.store d.hash) ∧
    deletions (sampleStore none [1, 2]) (runGc sampleHost sampleConfig (sampleStore none [1, 2])).1 = [] ∧
    deletions deniedPins (runGc sampleHost sampleConfig deniedPins).1 = [] := by
  have hsafe := gc_deletes_unreachable sampleHost [⟨sampleConfig, 3, id⟩] sharedStore
  refine ⟨⟨by decide +kernel, hsafe.1⟩, hsafe.2 sampleConfig (sampleStore none [1, 2]) fun hintact => ?_,
    hsafe.2 sampleConfig deniedPins fun hintact => ?_⟩
  · have hhas : (sampleStore none [1, 2]).roots.Has "engine" sampleProject none :=
      ⟨_, _, _, _, rfl, mem_singleton_self _, rfl, rfl, mem_singleton_self _, rfl, rfl⟩
    obtain ⟨json, snap, hjson, -⟩ := hintact.roots "engine" sampleProject none hhas
    cases hjson
  · rcases hintact.pinsReadable with habsent | ⟨tree, ⟨htree, -⟩, -⟩
    · cases habsent
    · cases htree

end Zero.Gc
