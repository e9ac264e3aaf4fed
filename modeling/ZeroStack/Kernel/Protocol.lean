import ZeroStack.Kernel.Atomicity

/-! The stored records follow a protocol over every run of calls and crashes: they move along the transition table,
except that a withdrawn first effect takes a record back to `Prepared`. -/

open Durable List

namespace Zero.Kernel
variable {L : Layout}

section Closed
variable {k : RecordKey}

theorem SlotStep.closed {r : TransactionRecord} {b : Option JournalEntry}
    (h : SlotStep k.session (some (.record r)) b) (hd : r.state.live = false) :
    b = none ∨ ∃ r', b = some (.record r') ∧ r'.state = r.state := by
  cases h with
  | keep => exact .inr ⟨r, rfl, rfl⟩
  | quarantine => exact .inl rfl
  | @advance _ r' hedge =>
    refine .inr ⟨r', rfl, ?_⟩
    rcases hedge with hallowed | ⟨happlying, -, -⟩
    · cases hs : r.state <;> cases hs' : r'.state <;> simp_all [TransactionState.live, transitionAllowed]
    · rw [happlying] at hd
      cases hd

theorem closed_stays {r r' : TransactionRecord} {t u : World} {mid : List World}
    (hchain : (t :: (mid ++ [u])).IsChain fun s t => SlotStep k.session (s.journal.slot k) (t.journal.slot k))
    (ht : t.journal.slot k = some (.record r)) (hd : r.state.live = false)
    (hmid : ∀ v ∈ mid, v.journal.slot k ≠ none) (hu : u.journal.slot k = some (.record r')) : r'.state = r.state := by
  induction mid generalizing t r with
  | nil =>
    have hstep := (isChain_pair.mp hchain)
    rw [ht] at hstep
    rcases hstep.closed hd with hnone | ⟨q, hq, hstate⟩
    · rw [hu] at hnone
      cases hnone
    · rw [hu] at hq
      cases hq
      exact hstate
  | cons v mid ih =>
    obtain ⟨hstep, hrest⟩ := isChain_cons_cons.mp hchain
    obtain ⟨hv, hmid'⟩ := forall_mem_cons.mp hmid
    rw [ht] at hstep
    rcases hstep.closed hd with hnone | ⟨q, hq, hstate⟩
    · exact absurd hnone hv
    · exact (ih hrest hq (hstate ▸ hd) hmid').trans hstate

end Closed

section Idempotence
variable {c : EngineCallContext} {s : World}

def Untouched (s t : World) : Prop := ∃ b, t = { s with leased := b }

theorem Untouched.refl (s : World) : Untouched s s := ⟨s.leased, rfl⟩

theorem reconcileEntry_quiet {k : RecordKey} (pass : ReconcilePass) (hq : Quiet c.sessionId (s.journal.slot k)) :
    (kernel L).Safe Machine.Free Untouched (fun _ t => t = s) (reconcileEntry L c k pass) s := by
  refine safe_loadRecord (.refl s) (fun _ _ _ _ => rfl) (fun _ _ _ _ => rfl) (fun _ => rfl) fun e he => ?_
  rw [he] at hq
  cases hq with
  | notFile => rfl
  | settled r hs hr =>
    dsimp only
    rw [if_neg (not_not.mpr hs), if_pos hr]
    rfl

theorem reconcile_quiet (hq : ∀ k, k.session = c.sessionId → Quiet c.sessionId (s.journal.slot k)) :
    (kernel L).Safe Machine.Free Untouched (fun _ _ => True) (reconcile L c) s := by
  refine safe_reconcile (fun ks _ t => t = { s with leased := true } ∧ ∀ k ∈ ks, k.session = c.sessionId) (.refl s)
    ⟨true, rfl⟩ (.refl _) (fun _ _ => trivial) (fun _ _ _ _ _ => ⟨rfl, fun _ hk => absurd hk not_mem_nil⟩)
    (fun ks _ hks => ⟨rfl, fun k hk => ((hks k).mp hk).2⟩) (fun k ks pass t ⟨ht, hsession⟩ => ?_)
    fun _ _ t _ _ => ⟨⟨false, rfl⟩, trivial⟩
  obtain ⟨hk, htail⟩ := forall_mem_cons.mp hsession
  subst ht
  exact (reconcileEntry_quiet (s := { s with leased := true }) pass (hq k hk)).post fun _ t ht => ⟨ht, htail⟩

theorem reconcile_again (env env' : ℕ → KernelChoice) {paths : List PathBuf}
    (hok : ((kernel L).run (reconcile L c) env s).1 = .ok paths) :
    ∀ t ∈ (kernel L).states (reconcile L c) env' ((kernel L).run (reconcile L c) env s).2,
      Untouched ((kernel L).run (reconcile L c) env s).2 t := by
  have hfirst : Runs L True none (fun out t => Sound L none t ∧ ∀ paths, out = .ok paths →
      ∀ k, k.session = c.sessionId → Quiet c.sessionId (t.journal.slot k)) (reconcile L c) s :=
    runs_reconcile nofun nofun
  have hquiet := (hfirst.run ((kernel L).along_of_forall (fun _ _ _ =>
    ⟨fun h => absurd trivial h, fun h => absurd rfl h⟩) _ s)).2 paths hok
  have hchain := (reconcile_quiet hquiet).isChain ((kernel L).along_free _ env' _)
  intro t ht
  -- the lease apart, every state is the one before the call
  refine Machine.isChain_invariant (fun u v hu hv => ?_) (.refl _) hchain t (mem_cons_of_mem _ ht)
  obtain ⟨b, rfl⟩ := hu
  obtain ⟨b', rfl⟩ := hv
  exact ⟨b', rfl⟩

end Idempotence

def storedState (k : RecordKey) (s : World) : Option TransactionState :=
  match s.journal.slot k with
  | some (.record r) => some r.state
  | _ => none

/-- Over every run in which publications do not fail, the record of a key is created in `Prepared`, moves along an
`Edge` and leaves by quarantine; a closed record keeps its state; and a `reconcile` after a successful one changes no
record and no file. -/
theorem journal_follows_protocol (L : Layout) (w : World) (is : List TransactionInvocation)
    (hm : (transactionSystem L).Meets (kernel L) (fun _ _ => True) (fun c _ _ => c.persist = none) is ⟨none, w⟩) :
    (∀ k, ((w :: (transactionSystem L).history (kernel L) is ⟨none, w⟩).map (·.journal.slot k)).IsChain
      (SlotStep k.session)) ∧ (∀ k l t mid u m r r', w :: (transactionSystem L).history (kernel L) is ⟨none, w⟩ =
        l ++ (t :: (mid ++ [u]) ++ m) → t.journal.slot k = some (.record r) →
      r.state = .rolledBack ∨ r.state = .recoveryRequired → (∀ v ∈ mid, v.journal.slot k ≠ none) →
      u.journal.slot k = some (.record r') → r'.state = r.state) ∧ ∀ c env paths env',
      let first := (kernel L).run (reconcile L c) env
        ((transactionSystem L).play (kernel L) is ⟨none, w⟩).disk
      first.1 = .ok paths → ∀ t ∈ (kernel L).states (reconcile L c) env' first.2,
        t.journal = first.2.journal ∧ t.files = first.2.files := by
  have hmeets : (transactionSystem L).Meets (kernel L) (Focused none) (Allowed L False none) is ⟨none, w⟩ :=
    hm.mono (fun call c _ => focused_none call c) fun _ _ _ hp => ⟨fun _ => hp, fun h => absurd rfl h⟩
  have hstart : Kept L False none ⟨none, w⟩ := nofun
  have hchain := ((transaction_invariant L False none).history (fun _ => step_reboot) is hstart hmeets).1
  have hslots : ∀ k, (w :: (transactionSystem L).history (kernel L) is ⟨none, w⟩).IsChain
      fun s t => SlotStep k.session (s.journal.slot k) (t.journal.slot k) :=
    fun k => hchain.imp fun s t hst => hst.1 not_false k
  refine ⟨fun k => (isChain_map _).mpr (hslots k), ?_, ?_⟩
  · intro k l t mid u m r r' hsplit ht hr hmid hu
    have hpart := hslots k
    rw [hsplit] at hpart
    have hd : r.state.live = false := by
      rcases hr with hr | hr <;> rw [hr] <;> rfl
    exact closed_stays hpart.right_of_append.left_of_append ht hd hmid hu
  · intro c env paths env' first hok t ht
    obtain ⟨b, hb⟩ := reconcile_again env env' hok t ht
    rw [hb]
    exact ⟨rfl, rfl⟩

def cancelledBeforeDispatch : ℕ → KernelChoice := fun n => { smooth with cancelled := n ≥ 4 }

def withdrawnEffect : List TransactionInvocation :=
  [smoothly (.begin sampleContext), ⟨.apply sampleRequest, cancelledBeforeDispatch, none⟩]

/-- A withdrawn first effect: the stored record goes from `Applying` to `Prepared`. -/
theorem withdrawnEffect_leaves_table :
    ¬ ((sampleWorld :: (transactionSystem sampleLayout).history (kernel sampleLayout) withdrawnEffect
      ⟨none, sampleWorld⟩).map (storedState sampleContext.key)).IsChain
        fun a b => ∀ x ∈ a, ∀ y ∈ b, x = y ∨ transitionAllowed x y = true := by
  decide

theorem withdrawnEffect_follows_protocol :
    ((sampleWorld :: (transactionSystem sampleLayout).history (kernel sampleLayout) withdrawnEffect
      ⟨none, sampleWorld⟩).map (·.journal.slot sampleContext.key)).IsChain (SlotStep "session") ∧
    (sampleWorld :: (transactionSystem sampleLayout).history (kernel sampleLayout) withdrawnEffect
      ⟨none, sampleWorld⟩).map (storedState sampleContext.key) =
        [none, none, none, some .prepared, some .prepared, some .prepared, some .prepared,
          some .applying, some .applying, some .prepared] := by
  refine ⟨(journal_follows_protocol sampleLayout sampleWorld withdrawnEffect ?_).1 sampleContext.key, ?_⟩
  · refine System.meets_of_choices (fun i hi n o s => ?_) ⟨trivial, Machine.along_free .., trivial,
      Machine.along_free .., trivial⟩
    rcases mem_cons.mp hi with rfl | hi
    · rfl
    · rw [mem_singleton.mp hi]
      rfl
  · decide

end Zero.Kernel
