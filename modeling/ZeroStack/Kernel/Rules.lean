import ZeroStack.Kernel.Coverage

/-! One rule for each operation that a transaction performs, and the specification of the
rollback that every way out of a transaction shares. -/

open Durable List

namespace Zero.Kernel

abbrev Runs (L : Layout) (fault : Prop) (focus : Option Focus) {α : Type} (Q : α → World → Prop)
    (p : KernelProgram α) (s : World) : Prop :=
  (kernel L).Safe (Allowed L fault focus) (Step L fault focus) Q p s

variable {k : RecordKey} {r : TransactionRecord}

section Operations
variable {L : Layout} {C : KernelChoice → KernelOp → World → Prop} {G : World → World → Prop}
variable {α : Type} {Q : α → World → Prop} {s : World}

theorem safe_still {o : KernelOp} {f : KernelOp.Res o → KernelProgram α} (hG : G s s)
    (hstill : ∀ c, ((kernel L).exec c o s).2 = s)
    (h : ∀ c, C c o s → (kernel L).Safe C G Q (f ((kernel L).exec c o s).1) s) :
    (kernel L).Safe C G Q (Program.perform o >>= f) s := by
  intro c hc
  rw [hstill c]
  exact ⟨hG, h c hc⟩

theorem safe_isCancelled {probe : Probe} {f : Bool → KernelProgram α} (hG : G s s)
    (h : ∀ c, C c (.isCancelled k probe) s → (kernel L).Safe C G Q (f c.cancelled) s) :
    (kernel L).Safe C G Q (isCancelled k probe >>= f) s :=
  safe_still hG (fun _ => rfl) h

theorem safe_readFile {path : PathBuf} {f : Except EngineError ZeroHandle → KernelProgram α} (hG : G s s)
    (hfound : ∀ content, s.files (L.resolve path) = some content → (kernel L).Safe C G Q (f (.ok content)) s)
    (hmissing : ∀ e : EngineError, e.kind = .notFound → s.files (L.resolve path) = none →
      (kernel L).Safe C G Q (f (.error e)) s)
    (hfail : ∀ c e, C c (.readFile path) s → c.read = some e → e.kind ≠ .notFound →
      (kernel L).Safe C G Q (f (.error e)) s) : (kernel L).Safe C G Q (readFile path >>= f) s := by
  refine safe_still (o := .readFile path) hG (fun _ => rfl) fun c hc => ?_
  change (kernel L).Safe C G Q (f (execRead L path s c.read)) s
  unfold execRead
  cases hr : c.read.filter (·.kind ≠ .notFound) with
  | some e =>
    obtain ⟨hread, hk⟩ := Option.filter_eq_some_iff.mp hr
    exact hfail c e hc hread (of_decide_eq_true hk)
  | none =>
    cases hcontent : s.files (L.resolve path) with
    | some content => exact hfound content hcontent
    | none => exact hmissing _ rfl hcontent

theorem safe_putPreparation {request : FileEffectRequest} {before : Option ZeroHandle}
    {trace : String} {f : Except String ZeroHandle → KernelProgram α} (hG : G s s)
    (h : ∀ r, (kernel L).Safe C G Q (f r) s) : (kernel L).Safe C G Q (putPreparation request before trace >>= f) s :=
  safe_still hG (fun _ => rfl) fun c _ => h c.put

theorem safe_recordExists {f : Bool → KernelProgram α} (hG : G s s)
    (h : (kernel L).Safe C G Q (f (s.journal.slot k).isSome) s) : (kernel L).Safe C G Q (recordExists k >>= f) s :=
  safe_still hG (fun _ => rfl) fun _ _ => h

theorem safe_loadRecord {f : RecordRead → KernelProgram α} (hG : G s s)
    (hstat : ∀ c e, C c (.loadRecord k) s → c.load = some (.stat e) → (kernel L).Safe C G Q (f (.statFailed e)) s)
    (hread : ∀ c e, C c (.loadRecord k) s → c.load = some (.read e) → (kernel L).Safe C G Q (f (.readFailed e)) s)
    (hmissing : s.journal.slot k = none → (kernel L).Safe C G Q (f .missing) s)
    (hentry : ∀ e, s.journal.slot k = some e → (kernel L).Safe C G Q (f (.entry e)) s) :
    (kernel L).Safe C G Q (loadRecord k >>= f) s := by
  refine safe_still (o := .loadRecord k) hG (fun _ => rfl) fun c hc => ?_
  change (kernel L).Safe C G Q (f (execLoad k s c.load)) s
  rcases hl : c.load with _ | ⟨e⟩ | ⟨e⟩
  · unfold execLoad
    cases hk : s.journal.slot k with
    | none => exact hmissing hk
    | some e => exact hentry e hk
  · exact hstat c e hc hl
  · exact hread c e hc hl

theorem safe_listRecords {session : String} {f : Except String (List RecordKey) → KernelProgram α} (hG : G s s)
    (hfail : ∀ c e, C c (.listRecords session) s → c.list = .error e → (kernel L).Safe C G Q (f (.error e)) s)
    (hok : ∀ keys, keys.Nodup → (∀ k, k ∈ keys ↔ s.journal.slot k ≠ none ∧ k.session = session) →
      (kernel L).Safe C G Q (f (.ok keys)) s) : (kernel L).Safe C G Q (listRecords session >>= f) s := by
  refine safe_still (o := .listRecords session) hG (fun _ => rfl) fun c hc => ?_
  change (kernel L).Safe C G Q (f (execList session s c.list)) s
  cases hl : c.list with
  | error e => exact hfail c e hc hl
  | ok order =>
    apply hok _ ((Directory.nodup_listing _ _).filter _)
    intro k
    rw [mem_filter, Directory.mem_listing, decide_eq_true_iff]

theorem safe_release {f : Unit → KernelProgram α} (hG : G s { s with leased := false })
    (h : (kernel L).Safe C G Q (f ()) { s with leased := false }) :
    (kernel L).Safe C G Q (release >>= f) s := fun _ _ => ⟨hG, h⟩

theorem safe_lease {c : EngineCallContext} {f : Except EngineError Unit → KernelProgram α}
    (hG : G s s) (hG' : G s { s with leased := true })
    (hfail : ∀ e, (s.leased = true ∨ ∃ d, C d (.lease c) s ∧ d.lease = some e) → (kernel L).Safe C G Q (f (.error e)) s)
    (hok : s.leased = false → (kernel L).Safe C G Q (f (.ok ())) { s with leased := true }) :
    (kernel L).Safe C G Q (lease c >>= f) s := by
  intro d hd
  cases hl : d.lease with
  | some e =>
    have he : (kernel L).exec d (.lease c) s = (.error e, s) := by
      simp only [kernel, hl]
    rw [he]
    exact ⟨hG, hfail e (.inr ⟨d, hd, hl⟩)⟩
  | none =>
    cases hb : s.leased with
    | true =>
      have he : (kernel L).exec d (.lease c) s = (.error leaseHeld, s) := by
        simp [kernel, hl, hb]
      rw [he]
      exact ⟨hG, hfail _ (.inl hb)⟩
    | false =>
      have he : (kernel L).exec d (.lease c) s = (.ok (), { s with leased := true }) := by
        simp [kernel, hl, hb]
      rw [he]
      exact ⟨hG', hok hb⟩

theorem safe_quarantine {f : Option String → KernelProgram α} (hG : G s s)
    (hG' : G s (s.quarantine k)) (hfail : ∀ e, (kernel L).Safe C G Q (f (some e)) s)
    (hok : (kernel L).Safe C G Q (f none) (s.quarantine k)) : (kernel L).Safe C G Q (quarantine k >>= f) s := by
  intro c _
  cases hr : c.rename with
  | some e =>
    have he : (kernel L).exec c (.quarantine k) s = (some e, s) := by
      simp only [kernel, hr]
      rfl
    rw [he]
    exact ⟨hG, hfail e⟩
  | none =>
    have he : (kernel L).exec c (.quarantine k) s = (none, s.quarantine k) := by
      simp only [kernel, hr]
      rfl
    rw [he]
    exact ⟨hG', hok⟩

theorem safe_persistRecord {f : Except TransactionError Unit → KernelProgram α}
    (hok : G s (s.putRecord k r) ∧ (kernel L).Safe C G Q (f (.ok ())) (s.putRecord k r))
    (hfail : ∀ c e, C c (.persistRecord k r) s → c.persist = some e → e.published = false →
      G s s ∧ (kernel L).Safe C G Q (f (.error (e.error (L.recordPath k)))) s)
    (hambiguous : ∀ c e, C c (.persistRecord k r) s → c.persist = some e → e.published = true → G s (s.putRecord k r) ∧
        (kernel L).Safe C G Q (f (.error (e.error (L.recordPath k)))) (s.putRecord k r)) :
    (kernel L).Safe C G Q (persistRecord L k r >>= f) s := by
  intro c hc
  cases hp : c.persist with
  | none =>
    have he : (kernel L).exec c (.persistRecord k r) s = (none, s.putRecord k r) :=
      congrArg (execPersist k r s) hp
    rw [he]
    exact hok
  | some e =>
    cases hpub : e.published with
    | true =>
      have he : (kernel L).exec c (.persistRecord k r) s = (some e, s.putRecord k r) := by
        refine (congrArg (execPersist k r s) hp).trans ?_
        rw [execPersist, hpub, if_pos rfl]
      rw [he]
      exact hambiguous c e hc hp hpub
    | false =>
      have he : (kernel L).exec c (.persistRecord k r) s = (some e, s) := by
        refine (congrArg (execPersist k r s) hp).trans ?_
        rw [execPersist, hpub, if_neg Bool.false_ne_true]
      rw [he]
      exact hfail c e hc hp hpub

theorem safe_restoreFile {receipt : FileEffectReceipt} {f : Except EngineError Unit → KernelProgram α}
    (hG : G s s) (hG' : G s (s.setFile (L.resolve receipt.path) receipt.before))
    (hok : (kernel L).Safe C G Q (f (.ok ())) (s.setFile (L.resolve receipt.path) receipt.before))
    (hfail : ∀ c e, C c (.restoreFile receipt) s → c.restore = some e → (kernel L).Safe C G Q (f (.error e.error)) s ∧
        (kernel L).Safe C G Q (f (.error e.error)) (s.setFile (L.resolve receipt.path) receipt.before)) :
    (kernel L).Safe C G Q (restoreFile receipt >>= f) s := by
  intro c hc
  cases hr : c.restore with
  | none =>
    have he : (kernel L).exec c (.restoreFile receipt) s =
        (.ok (), s.setFile (L.resolve receipt.path) receipt.before) :=
      congrArg (execRestore L receipt s) hr
    rw [he]
    exact ⟨hG', hok⟩
  | some failure =>
    have he : (kernel L).exec c (.restoreFile receipt) s = (.error failure.error,
        if failure.wrote then s.setFile (L.resolve receipt.path) receipt.before else s) :=
      congrArg (execRestore L receipt s) hr
    obtain ⟨hkeep, hwrote⟩ := hfail c failure hc hr
    rw [he]
    cases failure.wrote with
    | true => exact ⟨hG', hwrote⟩
    | false => exact ⟨hG, hkeep⟩

theorem safe_applyFile {request : FileEffectRequest}
    {f : Except EngineError FileEffectReceipt → KernelProgram α} (hG : G s s)
    (hG' : ∀ content, G s (s.setFile (L.resolve request.path) content))
    (hok : ∀ c after path journal, C c (.applyFile request) s → c.apply = .succeed after path journal →
      L.resolve (receiptPath L request path) = L.resolve request.path →
      (kernel L).Safe C G Q (f (.ok ⟨request.kind, receiptPath L request path,
        s.files (L.resolve request.path), after, journal⟩)) (s.setFile (L.resolve request.path) after))
    (hrefuse : ∀ e : EngineError, e.kind.precondition = true → (kernel L).Safe C G Q (f (.error e)) s)
    (hfail : ∀ c e wrote, C c (.applyFile request) s → c.apply = .fail e wrote →
      e.kind.precondition = false → (kernel L).Safe C G Q (f (.error e)) s ∧
        ∀ content, (kernel L).Safe C G Q (f (.error e)) (s.setFile (L.resolve request.path) content)) :
    (kernel L).Safe C G Q (applyFile request >>= f) s := by
  intro c hc
  change G s (execApply L request s c.apply).2 ∧
    (kernel L).Safe C G Q (f (execApply L request s c.apply).1) (execApply L request s c.apply).2
  rcases ha : c.apply with ⟨after, path, journal⟩ | ⟨error, wrote⟩
  · refine ⟨hG' after, hok c after path journal hc ha ?_⟩
    unfold receiptPath
    split_ifs with hp
    · exact hp
    · rfl
  · simp only [execApply]
    cases hp : error.kind.precondition with
    | true =>
      exact ⟨hG, hrefuse error hp⟩
    | false =>
      obtain ⟨hkeep, hwrote⟩ := hfail c error wrote hc ha hp
      cases wrote with
      | none => exact ⟨hG, hkeep⟩
      | some content => exact ⟨hG' content, hwrote content⟩

theorem safe_commitState {expected : Option ZeroHandle} {values : StateValues}
    {f : Except StateError ZeroHandle → KernelProgram α} (hG : G s s)
    (hfail : ∀ e, (kernel L).Safe C G Q (f (.error e)) s)
    (hok : G s { s with stateRoot := some (L.rootOf values) } ∧ (kernel L).Safe C G Q
      (f (.ok (L.rootOf values))) { s with stateRoot := some (L.rootOf values) }) :
    (kernel L).Safe C G Q (commitState expected values >>= f) s := by
  intro c _
  change G s (execCommitState L expected values s c.state).2 ∧ (kernel L).Safe C G Q
    (f (execCommitState L expected values s c.state).1) (execCommitState L expected values s c.state).2
  cases c.state with
  | some e => exact ⟨hG, hfail e⟩
  | none =>
    unfold execCommitState
    split_ifs
    · exact ⟨hG, hfail _⟩
    · exact hok

theorem safe_compareAndSetRoot {site : RootRollback} {current target : Option ZeroHandle}
    {f : Except StateError Unit → KernelProgram α} (hG : G s s)
    (hfail : ∀ c e, C c (.compareAndSetRoot site current target) s →
      c.state ≠ none ∨ s.stateRoot ≠ current → (kernel L).Safe C G Q (f (.error e)) s)
    (hok : G s { s with stateRoot := target } ∧ (kernel L).Safe C G Q (f (.ok ())) { s with stateRoot := target }) :
    (kernel L).Safe C G Q (compareAndSetRoot site current target >>= f) s := by
  intro c hc
  change G s (execCompareAndSetRoot current target s c.state).2 ∧ (kernel L).Safe C G Q
    (f (execCompareAndSetRoot current target s c.state).1) (execCompareAndSetRoot current target s c.state).2
  cases hstate : c.state with
  | some e =>
    refine ⟨hG, hfail c e hc (.inl ?_)⟩
    rw [hstate]
    exact Option.some_ne_none e
  | none =>
    unfold execCompareAndSetRoot
    split_ifs with hroot
    · exact ⟨hG, hfail c _ hc (.inr hroot)⟩
    · exact hok

theorem safe_serializeResult {value : String} {f : Except String String → KernelProgram α} (hG : G s s)
    (h : ∀ r, (kernel L).Safe C G Q (f r) s) : (kernel L).Safe C G Q (serializeResult value >>= f) s :=
  safe_still hG (fun _ => rfl) fun _ _ => h _

theorem safe_project {bytes : String} {f : Except EngineError Projection → KernelProgram α} (hG : G s s)
    (h : ∀ r, (kernel L).Safe C G Q (f r) s) : (kernel L).Safe C G Q (project bytes >>= f) s :=
  safe_still hG (fun _ => rfl) fun c _ => h c.project

theorem safe_publishEvent {event : ZeroKernelEvent} {f : Except String ZeroHandle → KernelProgram α}
    (hG : ∀ es, G s { s with events := es })
    (hok : ∀ handle es, (kernel L).Safe C G Q (f (.ok handle)) { s with events := es })
    (hfail : ∀ c e es, C c (.publishEvent event) s → (∀ handle, c.publish ≠ .done handle) →
      (kernel L).Safe C G Q (f (.error e)) { s with events := es }) :
    (kernel L).Safe C G Q (publishEvent event >>= f) s := by
  intro c hc
  change G s (execPublish event s c.publish).2 ∧ (kernel L).Safe C G Q
    (f (execPublish event s c.publish).1) (execPublish event s c.publish).2
  rcases hp : c.publish with ⟨handle⟩ | ⟨error, appended⟩
  · exact ⟨hG _, hok handle _⟩
  · have hnot : ∀ handle, c.publish ≠ .done handle := by
      intro handle hdone
      rw [hp] at hdone
      cases hdone
    cases appended with
    | true => exact ⟨hG _, hfail c error _ hc hnot⟩
    | false => exact ⟨hG s.events, hfail c error s.events hc hnot⟩

end Operations

section Reconciliation
variable {L : Layout} {C : KernelChoice → KernelOp → World → Prop} {G : World → World → Prop}
variable {Q : Except TransactionError (List PathBuf) → World → Prop} {s : World} {c : EngineCallContext}

theorem safe_reconcile (I : List RecordKey → Except TransactionError ReconcilePass → World → Prop) (hG : G s s)
    (hG' : G s { s with leased := true }) (hstill : G { s with leased := true } { s with leased := true })
    (hrefused : ∀ e, (s.leased = true ∨ ∃ d, C d (.lease c) s ∧ d.lease = some e) → Q (.error (.engine e)) s)
    (hunlisted : ∀ d e, C d (.listRecords c.sessionId) { s with leased := true } → d.list = .error e →
      ∀ e', I [] (.error e') { s with leased := true })
    (hlisted : ∀ ks : List RecordKey, ks.Nodup → (∀ k, k ∈ ks ↔ s.journal.slot k ≠ none ∧ k.session = c.sessionId) →
      I ks (.ok ⟨[], []⟩) { s with leased := true })
    (hentry : ∀ k ks pass t, I (k :: ks) (.ok pass) t → (kernel L).Safe C G (I ks) (reconcileEntry L c k pass) t)
    (hend : ∀ ks out t, I ks out t → (∀ pass, out = .ok pass → ks = []) →
      G t { t with leased := false } ∧ Q (out.bind ReconcilePass.result) { t with leased := false }) :
    (kernel L).Safe C G Q (reconcile L c) s := by
  have hloop : ∀ ks pass t, I ks (.ok pass) t → (kernel L).Safe C G (fun out t => ∃ ks', I ks' out t ∧
      ∀ pass, out = .ok pass → ks' = []) (reconcileEntries L c ks pass) t := by
    intro ks
    induction ks with
    | nil => exact fun pass t ht => ⟨[], ht, fun _ _ => rfl⟩
    | cons k ks ih =>
      intro pass t ht
      refine (hentry k ks pass t ht).bind fun out u hu => ?_
      cases out with
      | error e => exact ⟨ks, hu, nofun⟩
      | ok pass' => exact ih pass' u hu
  have hbody : (kernel L).Safe C G (fun result t => ∃ ks out, I ks out t ∧ (∀ pass, out = .ok pass → ks = []) ∧
      result = out.bind ReconcilePass.result) (reconcileLeased L c) { s with leased := true } := by
    refine safe_listRecords hstill (fun d e hd he => ?_) fun ks hnodup hks => ?_
    · exact ⟨[], _, hunlisted d e hd he _, fun _ _ => rfl, rfl⟩
    · refine (hloop ks _ _ (hlisted ks hnodup hks)).bind fun out t ⟨ks', hI, hks'⟩ => ?_
      cases out with
      | error e => exact ⟨ks', _, hI, hks', rfl⟩
      | ok pass => exact ⟨ks', _, hI, hks', rfl⟩
  refine safe_lease hG hG' hrefused fun _ => hbody.bind ?_
  rintro _ t ⟨ks, out, hI, hks, rfl⟩
  obtain ⟨hG'', hQ⟩ := hend ks out t hI hks
  exact safe_release hG'' hQ

end Reconciliation

variable {L : Layout} {fault : Prop} {focus : Option Focus} {α : Type} {Q : α → World → Prop} {s : World}

section Steps

theorem Step.still (h : Sound L focus s) : Step L fault focus s s := ⟨.of_journal rfl, h⟩

theorem Step.lease (h : Sound L focus s) (b : Bool) : Step L fault focus s { s with leased := b } :=
  ⟨.of_journal rfl, h.of_eq rfl rfl rfl⟩

end Steps

variable {tx : Transaction} {st : TransactionRecord}

section Publication

theorem Pending.runs_persist (h : Pending L focus tx st s) (hedge : ¬ fault → Edge st tx.record)
    {f : Except TransactionError Unit → KernelProgram α}
    (hok : Live L fault focus tx tx.record (s.putRecord tx.key tx.record) →
      Runs L fault focus Q (f (.ok ())) (s.putRecord tx.key tx.record))
    (hfail : ∀ e t st', fault → Live L fault focus tx st' t →
      t = s ∨ t = s.putRecord tx.key tx.record → Runs L fault focus Q (f (.error e)) t) :
    Runs L fault focus Q (persistRecord L tx.key tx.record >>= f) s := by
  have hstep : Step L fault focus s (s.putRecord tx.key tx.record) :=
    ⟨.putRecord h.stored hedge, (h.published fault).sound⟩
  have hfault : ∀ c e, Allowed L fault focus c (.persistRecord tx.key tx.record) s → c.persist = some e → fault := by
    intro c e hc hp
    by_contra hnf
    rw [hc.1 hnf] at hp
    cases hp
  refine safe_persistRecord ⟨hstep, hok (h.published fault)⟩ (fun c e hc hp _ => ?_) fun c e hc hp _ => ?_
  · have hf := hfault c e hc hp
    exact ⟨.still h.sound, hfail _ s st hf ⟨h, fun hnf => absurd hf hnf⟩ (.inl rfl)⟩
  · exact ⟨hstep, hfail _ _ tx.record (hfault c e hc hp) (h.published fault) (.inr rfl)⟩

end Publication

section Rollback

@[simp] theorem close_effects (r : TransactionRecord) (errors : List String) :
    (r.close errors).effects = r.effects := by
  unfold TransactionRecord.close
  dsimp only
  split_ifs <;> rfl

theorem close_sessionId (r : TransactionRecord) (errors : List String) : (r.close errors).sessionId = r.sessionId := by
  unfold TransactionRecord.close
  dsimp only
  split_ifs <;> rfl

theorem close_not_live (r : TransactionRecord) (errors : List String) : (r.close errors).state.live = false := by
  unfold TransactionRecord.close
  dsimp only
  split_ifs <;> rfl

theorem close_rolledBack {errors : List String} :
    (r.close errors).state = .rolledBack ↔ errors = [] ∧ transitionAllowed r.state .rolledBack = true := by
  unfold TransactionRecord.close
  cases errors with
  | nil =>
    by_cases ha : transitionAllowed r.state .rolledBack = true <;> simp [ha]
  | cons e es =>
    by_cases ha : transitionAllowed r.state .recoveryRequired = true <;> simp [ha]

theorem close_allowed {errors : List String} (hc : r.state ≠ .committed) (hr : r.state = .rolledBack → errors = []) :
    transitionAllowed r.state (r.close errors).state = true := by
  unfold TransactionRecord.close
  cases hs : r.state with
  | committed => exact absurd hs hc
  | rolledBack => simp [hr hs, transitionAllowed]
  | prepared | applying | compensating | recoveryRequired =>
    cases errors <;> simp [transitionAllowed]

theorem close_dead {errors : List String} (hd : r.state.live = false)
    (hr : r.state = .rolledBack → errors = []) : (r.close errors).state = r.state := by
  unfold TransactionRecord.close
  cases hs : r.state with
  | rolledBack => simp [hr hs, transitionAllowed]
  | recoveryRequired => cases errors <;> simp [transitionAllowed]
  | prepared | applying | committed | compensating =>
    rw [hs] at hd
    cases hd

structure Undone (L : Layout) (es : List PreparedEffect) (s : World)
    (out : List PreparedEffect × List String) (t : World) : Prop where
  files : ∃ F, t = { s with files := F }
  log : undoLog L out.1 = undoLog L es
  all : out.2 = [] → ∀ e ∈ out.1, e.restored = true
  undo : out.2 = [] → t.files = Preimage.undo (undoLog L (es.filter (!·.restored))) s.files
  idle : (∀ e ∈ es, e.restored = true) → out.2 = []

theorem runs_rollbackEffects (es : List PreparedEffect) {s : World} (hs : Sound L focus s)
    (hr : ∀ e ∈ es, e.restored = false → ∀ t, Sound L focus t → t.journal = s.journal →
      Sound L focus (t.setFile (e.preimage L).key (e.preimage L).before)) :
    Runs L fault focus (fun out t => Sound L focus t ∧ Undone L es s out t) (rollbackEffects es) s := by
  induction es with
  | nil =>
    exact ⟨hs, ⟨s.files, rfl⟩, rfl, fun _ _ he => (not_mem_nil he).elim, fun _ => rfl, fun _ => rfl⟩
  | cons e es ih =>
    have htail := ih fun e' he' => hr e' (mem_cons_of_mem e he')
    refine htail.bind fun ⟨es', errors⟩ t ⟨hsound, hundone⟩ => ?_
    obtain ⟨F, rfl⟩ := hundone.files
    have hlog := hundone.log
    have hcons : ∀ e' : PreparedEffect, e'.preimage L = e.preimage L → undoLog L (e' :: es') = undoLog L (e :: es) := by
      intro e' he'
      change e'.preimage L :: undoLog L es' = e.preimage L :: undoLog L es
      rw [he', hlog]
    cases hres : e.restored with
    | true =>
      have hfilter : (e :: es).filter (!·.restored) = es.filter (!·.restored) := by simp [hres]
      refine ⟨hsound, ⟨F, rfl⟩, hcons e rfl, fun h => ?_, fun h => ?_, fun h => ?_⟩
      · exact forall_mem_cons.mpr ⟨hres, hundone.all h⟩
      · rw [hfilter]
        exact hundone.undo h
      · exact hundone.idle (forall_mem_cons.mp h).2
    | false =>
      have hfilter : (e :: es).filter (!·.restored) = e :: es.filter (!·.restored) := by simp [hres]
      have hidle : ¬ ∀ e' ∈ e :: es, e'.restored = true := by
        intro h
        have := h e mem_cons_self
        rw [hres] at this
        cases this
      have hput : Sound L focus (World.setFile { s with files := F } (e.preimage L).key
          (e.preimage L).before) := hr e mem_cons_self hres _ hsound rfl
      -- the restore of this effect comes after those of all later ones
      have hfail : ∀ (err : EngineError) G, Sound L focus { s with files := G } →
          Undone L (e :: es) s (e :: es', errors ++ [s!"{e.rollbackReceipt.path}: {err.display}"])
            { s with files := G } := by
        intro err G hG
        have hne : errors ++ [s!"{e.rollbackReceipt.path}: {err.display}"] ≠ [] := by simp
        exact ⟨⟨G, rfl⟩, hcons _ rfl, fun h => absurd h hne, fun h => absurd h hne, fun h => absurd h hidle⟩
      refine safe_restoreFile (.still hsound) ⟨.of_journal rfl, hput⟩ ?_ fun c err _ _ => ?_
      · refine ⟨hput, ⟨_, rfl⟩, hcons _ rfl, fun h => ?_, fun h => ?_, fun h => absurd h hidle⟩
        · exact forall_mem_cons.mpr ⟨rfl, hundone.all h⟩
        · have hF : F = Preimage.undo (undoLog L (es.filter (!·.restored))) s.files := hundone.undo h
          rw [hfilter, hF]
          rfl
      · exact ⟨⟨hsound, hfail err.error F hsound⟩, hput, hfail err.error _ hput⟩

structure Closed (m r : TransactionRecord) : Prop where
  session : r.sessionId = m.sessionId
  dead : r.state.live = false
  allowed : m.state ≠ .committed → transitionAllowed m.state r.state = true

theorem Pending.runs_rollbackRecord (h : Pending L focus tx st s) {f : TransactionRecord → KernelProgram α}
    (hf : ∀ r F, Pending L focus (tx.withRecord r) st { s with files := F } → Closed tx.record r →
      Runs L fault focus Q (f r) { s with files := F }) : Runs L fault focus Q (rollbackRecord tx.record >>= f) s := by
  have hloop : Runs L fault focus (fun out t => Sound L focus t ∧ Undone L tx.record.effects s out t)
      (rollbackEffects tx.record.effects) s :=
    runs_rollbackEffects tx.record.effects h.sound fun e he hres t ht hj => h.restore_sound he hres ht hj
  unfold rollbackRecord
  rw [Program.bind_assoc]
  refine hloop.bind fun ⟨effects, errors⟩ t ⟨hsound, hundone⟩ => ?_
  obtain ⟨F, rfl⟩ := hundone.files
  have hidle : tx.record.state = .rolledBack → errors = [] := fun hr => hundone.idle (h.restored hr)
  apply hf
  · constructor
    · exact h.leased
    · exact h.stored
    · exact hsound
    · exact h.key
    · intro g hg
      refine ⟨fun hr => ?_, fun hl => ?_, fun hl => ?_⟩
      · -- every restore succeeded, so the files are what undoing the log gives
        obtain ⟨rfl, hallowed⟩ := close_rolledBack.mp hr
        have hF : F = _ := hundone.undo rfl
        cases hlive : tx.record.state.live with
        | true =>
          have hfresh : tx.record.effects.filter (!·.restored) = tx.record.effects := by
            rw [filter_eq_self]
            intro e he
            simp [(h.fits g hg).fresh hlive e he]
          rw [hfresh] at hF
          exact hF.trans ((h.fits g hg).undo hlive)
        | false =>
          have hrolled : tx.record.state = .rolledBack := by
            cases hs : tx.record.state <;> simp_all [TransactionState.live, transitionAllowed]
          have hnone : tx.record.effects.filter (!·.restored) = [] := by
            rw [filter_eq_nil_iff]
            intro e he
            simp [h.restored hrolled e he]
          rw [hnone] at hF
          exact hF.trans ((h.fits g hg).undone hrolled)
      · rw [Transaction.withRecord, close_not_live] at hl
        cases hl
      · rw [Transaction.withRecord, close_not_live] at hl
        cases hl
    · intro g hg e he
      have heff : ({ tx.record with effects := effects }.close errors).effects = effects :=
        close_effects _ _
      -- a restored flag does not change what an effect puts back
      have hmem : e.preimage L ∈ undoLog L tx.record.effects := by
        have hmem' : e ∈ effects := heff ▸ he
        have := hundone.log
        rw [← this]
        exact mem_map_of_mem hmem'
      obtain ⟨e', he', heq⟩ := mem_map.mp hmem
      rw [← heq]
      exact h.backed g hg e' he'
    · intro hr
      have heff : ({ tx.record with effects := effects }.close errors).effects = effects :=
        close_effects _ _
      obtain ⟨hnil, -⟩ := close_rolledBack.mp hr
      intro e he
      exact hundone.all hnil e (heff ▸ he)
    · intro hs
      have hsame := h.finished hs
      rw [← hsame]
      rw [← hsame] at hs
      exact close_dead (r := { tx.record with effects := effects }) hs hidle
  · exact ⟨close_sessionId _ _, close_not_live _ _, fun hc =>
      close_allowed (r := { tx.record with effects := effects }) hc hidle⟩

theorem Live.runs_rollbackAndPersist (h : Live L fault focus tx st s) (hopen : ¬ fault → tx.record.state ≠ .committed)
    {f : Attempt Unit → KernelProgram α}
    (hf : ∀ r st' published t, Live L fault focus (tx.withRecord r) st' t → Closed tx.record r →
      (published = .ok () → st' = r) → (∀ e, published = .error e → fault) →
      Runs L fault focus Q (f (tx.withRecord r, published)) t) :
    Runs L fault focus Q (rollbackAndPersist L tx >>= f) s := by
  unfold rollbackAndPersist
  rw [Program.bind_assoc]
  refine h.toPending.runs_rollbackRecord fun r F hpend hclosed => ?_
  rw [Program.bind_assoc]
  have hedge : ¬ fault → Edge st r := by
    intro hnf
    left
    rw [h.same hnf]
    exact hclosed.allowed (hopen hnf)
  refine hpend.runs_persist hedge (fun hlive => ?_) fun e t st' hfault hlive _ => ?_
  · exact hf r r (.ok ()) _ hlive hclosed (fun _ => rfl) nofun
  · exact hf r st' (.error e) t hlive hclosed nofun fun _ _ => hfault

end Rollback
end Zero.Kernel
