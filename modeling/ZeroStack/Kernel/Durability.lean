import ZeroStack.Kernel.Protocol

/-! When `commit` says that a transaction is committed, the disk says so too, unless a first `commit` failed to
publish: a second one then believes the record in memory. -/

open Durable List

namespace Zero.Kernel
variable {L : Layout} {s : World}

section Recovery

def NothingLive (session : String) (s : World) : Prop :=
  ∀ k : RecordKey, k.session = session → ∀ r, s.journal.slot k = some (.record r) →
    r.state = .committed ∨ r.state = .rolledBack

theorem NothingLive.quarantine {session : String} (h : NothingLive session s) (k : RecordKey) :
    NothingLive session (s.quarantine k) := by
  intro j hsession r hr
  by_cases hj : j = k
  · subst hj
    rw [show (s.quarantine j).journal.slot j = none from Directory.remove_self ..] at hr
    cases hr
  · exact h j hsession r (by rwa [quarantine_others s k j hj] at hr)

theorem nothingLive_of_committed {session : String} {k : RecordKey} (h : storedState k s = some .committed)
    (hothers : ∀ j, j.session = session → j ≠ k → ∀ r, s.journal.slot j = some (.record r) →
      r.state = .committed ∨ r.state = .rolledBack) : NothingLive session s := by
  intro j hsession r hr
  by_cases hj : j = k
  · subst hj
    rw [storedState, hr] at h
    exact .inl (Option.some.inj h)
  · exact hothers j hsession hj r hr

structure SetAside (C : KernelChoice → KernelOp → World → Prop) (k : RecordKey) (s : World)
    (out : Except TransactionError ReconcilePass) (t : World) : Prop where
  world : t = s ∨ t = s.quarantine k
  unread : ∀ e, out = .error e → s.journal.slot k = none ∨ ∃ d, C d (.loadRecord k) s ∧ d.load ≠ none

theorem reconcileEntry_settled {C : KernelChoice → KernelOp → World → Prop} {c : EngineCallContext}
    {k : RecordKey} (pass : ReconcilePass)
    (hk : ∀ r, s.journal.slot k = some (.record r) → r.state = .committed ∨ r.state = .rolledBack) :
    (kernel L).Safe C (fun _ t => t = s ∨ t = s.quarantine k) (SetAside C k s) (reconcileEntry L c k pass) s := by
  have hkeep : ∀ pass', SetAside C k s (.ok pass') s := fun _ => ⟨.inl rfl, nofun⟩
  have haside : ∀ pass', (kernel L).Safe C (fun _ t => t = s ∨ t = s.quarantine k)
      (SetAside C k s) (quarantine k >>= fun _ => pure (.ok pass')) s := by
    intro pass'
    exact safe_quarantine (.inl rfl) (.inr rfl) (fun _ => hkeep pass') ⟨.inr rfl, nofun⟩
  have hunread : ∀ d f e, C d (.loadRecord k) s → d.load = some f → SetAside C k s (.error e) s := by
    intro d f e hd hf
    refine ⟨.inl rfl, fun _ _ => .inr ⟨d, hd, ?_⟩⟩
    rw [hf]
    exact Option.some_ne_none f
  refine safe_loadRecord (.inl rfl) (fun d _ hd hf => hunread d _ _ hd hf)
    (fun d _ hd hf => hunread d _ _ hd hf) (fun hnone => ⟨.inl rfl, fun _ _ => .inl hnone⟩) fun e he => ?_
  rcases e with r | e | _
  · dsimp only
    split_ifs with hsession hdone
    · exact haside _
    · exact hkeep _
    · exact absurd (hk r he) hdone
  · exact haside _
  · exact hkeep _

structure Rests (session : String) (s t : World) : Prop where
  files : t.files = s.files
  root : t.stateRoot = s.stateRoot
  settled : NothingLive session t

theorem reconcileEntry_rests {c : EngineCallContext} {k : RecordKey} (pass : ReconcilePass) {t : World}
    (h : Rests c.sessionId s t) (hk : k.session = c.sessionId) :
    (kernel L).Safe Machine.Free (fun _ u => Rests c.sessionId s u) (fun _ u => Rests c.sessionId s u)
      (reconcileEntry L c k pass) t := by
  have hrests : ∀ u, u = t ∨ u = t.quarantine k → Rests c.sessionId s u := by
    rintro u (rfl | rfl)
    · exact h
    · exact ⟨h.files, h.root, h.settled.quarantine k⟩
  exact (reconcileEntry_settled pass (h.settled k hk)).mono (fun _ _ _ hfree => hfree)
    (fun _ u hu => hrests u hu) fun _ u hu => hrests u hu.world

theorem reconcile_rests (c : EngineCallContext) (h : NothingLive c.sessionId s) (env : ℕ → KernelChoice) :
    ∀ t ∈ s :: (kernel L).states (reconcile L c) env s, Rests c.sessionId s t := by
  have hself : Rests c.sessionId s s := ⟨rfl, rfl, h⟩
  have hleased : Rests c.sessionId s { s with leased := true } := ⟨rfl, rfl, h⟩
  have hsafe : (kernel L).Safe Machine.Free (fun _ u => Rests c.sessionId s u)
      (fun _ u => Rests c.sessionId s u) (reconcile L c) s := by
    refine safe_reconcile (fun ks _ t => Rests c.sessionId s t ∧ ∀ k ∈ ks, k.session = c.sessionId) hself hleased
      hleased (fun _ _ => hself) (fun _ _ _ _ _ => ⟨hleased, fun _ hk => absurd hk not_mem_nil⟩)
      (fun ks _ hks => ⟨hleased, fun k hk => ((hks k).mp hk).2⟩) (fun k ks pass t ⟨ht, hsession⟩ => ?_)
      fun _ _ u ⟨hu, _⟩ _ => ?_
    · obtain ⟨hk, htail⟩ := forall_mem_cons.mp hsession
      exact (reconcileEntry_rests pass ht hk).post fun _ u hu => ⟨hu, htail⟩
    · have hfree : Rests c.sessionId s { u with leased := false } := ⟨hu.files, hu.root, hu.settled⟩
      exact ⟨hfree, hfree⟩
  exact forall_mem_cons.mpr ⟨hself, hsafe.states ((kernel L).along_free _ env s)⟩

end Recovery

/-- The record is stored as committed, and if it is the only one that was open, a restart and
`reconcile` leave every file in place. -/
def CommitSticks (L : Layout) (k : RecordKey) (s : World) : Prop :=
  storedState k s = some .committed ∧
    (OthersSettled k s → ∀ c env, ∀ t ∈ s.reboot :: (kernel L).states (reconcile L c) env s.reboot, t.files = s.files)

theorem commitSticks_of_stored {k : RecordKey} (h : storedState k s = some .committed) : CommitSticks L k s := by
  refine ⟨h, fun hothers c env t ht => ?_⟩
  have hlive : NothingLive c.sessionId s.reboot := nothingLive_of_committed h
    fun j _ => hothers j
  exact (reconcile_rests c hlive env t ht).files

def UnpublishedCommit (tx : Transaction) (s : World) : Prop :=
  Recommits tx ∧ storedState tx.key s ≠ some .committed

theorem recommit_ok {tx : Transaction} (h : Recommits tx) : recommit L tx = (tx.settle, .ok tx.receipts) := by
  have hnone : tx.record.effects.any (·.receipt.isNone) = false := by
    have := h.2.2
    simp only [all_eq_true, any_eq_false] at this ⊢
    intro e he
    simp [Option.isNone_iff_eq_none, Option.isSome_iff_ne_none.mp (this e he)]
  rw [recommit, hnone, if_neg Bool.false_ne_true]

theorem commit_believes_memory {tx : Transaction} (h : Recommits tx) (env : ℕ → KernelChoice)
    (henv : (env 0).cancelled = false) : (kernel L).run (commit L tx) env s = ((tx.settle, .ok tx.receipts), s) := by
  unfold commit
  rw [h.1]
  change (kernel L).run (Program.bind (.ret (env 0).cancelled) _) _ s = _
  rw [henv]
  rw [if_pos h.2.1, recommit_ok h]
  rfl

/-- After any run of calls, under any faults: every `commit` that returns `Ok` from here
leaves a commit that sticks, exactly if no earlier `commit` is left unpublished. -/
theorem commit_durable_iff (L : Layout) (w : World) (is : List TransactionInvocation) (tx : Transaction)
    (hmem : ((transactionSystem L).play (kernel L) is ⟨none, w⟩).memory = some tx) :
    (∀ env receipts, ((kernel L).run (commit L tx) env
        ((transactionSystem L).play (kernel L) is ⟨none, w⟩).disk).1.2 = .ok receipts →
      CommitSticks L tx.key ((kernel L).run (commit L tx) env
        ((transactionSystem L).play (kernel L) is ⟨none, w⟩).disk).2) ↔
    ¬ UnpublishedCommit tx ((transactionSystem L).play (kernel L) is ⟨none, w⟩).disk := by
  have hfree : ∀ c o s, Machine.Free c o s → Allowed L True none c o s :=
    fun _ _ _ _ => ⟨fun h => absurd trivial h, fun h => absurd rfl h⟩
  have hkept := (transaction_invariant L True none).play is (c := ⟨none, w⟩) nofun
    (System.meets_free.mono (fun call c _ => focused_none call c) hfree)
  unfold Kept at hkept
  rw [hmem] at hkept
  obtain ⟨st, hheld⟩ := hkept
  generalize ((transactionSystem L).play (kernel L) is ⟨none, w⟩).disk = d at hheld ⊢
  constructor
  · rintro hall ⟨hre, hstored⟩
    -- nothing is cancelled, so `commit` returns at once
    have hrun := commit_believes_memory (L := L) (s := d) hre (fun _ => smooth) rfl
    have hsticks := hall (fun _ => smooth) tx.receipts (by rw [hrun])
    rw [hrun] at hsticks
    exact hstored hsticks.1
  · intro hpub env receipts hok
    have hout := (runs_commit hheld).run (Machine.Along.mono _ hfree ((kernel L).along_free _ env d))
    apply commitSticks_of_stored
    obtain ⟨hrec, -⟩ := hout.memory receipts hok
    rcases hout.stored receipts hok with hslot | ⟨hre, hsame⟩
    · rw [storedState, hslot, hrec]
      rfl
    · rw [hsame]
      by_contra hstored
      exact hpub ⟨hre, hstored⟩

section Sample

def publicationFails : ℕ → KernelChoice := fun _ => { smooth with persist := some (.write "no space") }

def unpublished : List TransactionInvocation :=
  [smoothly (.begin sampleContext), smoothly (.apply sampleRequest), ⟨.commit, publicationFails, none⟩]

/-- The retried `commit` returns `Ok` over a record that is stored as `Applying`; after a
restart, `reconcile` takes the effect back. -/
theorem unpublished_commit_lost :
    let tried := (transactionSystem sampleLayout).play (kernel sampleLayout) unpublished ⟨none, sampleWorld⟩
    let committed := (transactionSystem sampleLayout).invoke (kernel sampleLayout) (smoothly .commit) tried
    let recovered := (transactionSystem sampleLayout).play (kernel sampleLayout)
      [⟨.drop, fun _ => smooth, some 0⟩, smoothly (.reconcile sampleContext)] committed
    (∃ receipts, (transactionSystem sampleLayout).reply (kernel sampleLayout) (smoothly .commit) tried =
      some (.committed (.ok receipts))) ∧ storedState sampleContext.key committed.disk = some .applying ∧
    committed.disk.files "a.txt" = some "new" ∧ recovered.disk.files "a.txt" = some "old" :=
  ⟨⟨_, rfl⟩, rfl, rfl, rfl⟩

def applied : List TransactionInvocation :=
  [smoothly (.begin sampleContext), smoothly (.apply sampleRequest)]

theorem applied_commit_sticks :
    ∃ tx, ((transactionSystem sampleLayout).play (kernel sampleLayout) applied ⟨none, sampleWorld⟩).memory =
        some tx ∧ tx.record.effects ≠ [] ∧
      CommitSticks sampleLayout tx.key ((kernel sampleLayout).run (commit sampleLayout tx) (fun _ => smooth)
        ((transactionSystem sampleLayout).play (kernel sampleLayout) applied ⟨none, sampleWorld⟩).disk).2 := by
  refine ⟨_, rfl, cons_ne_nil _ _, ?_⟩
  refine (commit_durable_iff sampleLayout sampleWorld applied _ rfl).mpr ?_ (fun _ => smooth) _ rfl
  rintro ⟨⟨-, hcommitted, -⟩, -⟩
  cases hcommitted

end Sample
end Zero.Kernel
