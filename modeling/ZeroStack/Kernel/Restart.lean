import ZeroStack.Kernel.Honesty
import ZeroStack.Kernel.Durability

/-! A restart after a crash: `reconcile` finds the record of the cell that was running and
takes it back, or finds it committed and leaves everything in place. -/

open Durable List

namespace Zero.Kernel
variable {L : Layout} {f : Focus} {s : World} {c : EngineCallContext}

/-- The environment of a restart: the lease is free, every read is answered, and nothing that
is written or restored fails. -/
structure Answering (L : Layout) (c : KernelChoice) (o : KernelOp) (s : World) : Prop where
  steady : Steady L False c o s
  lease : c.lease = none
  load : c.load = none
  list : ∃ order, c.list = .ok order

structure Awaits (L : Layout) (f : Focus) (ks : List RecordKey) (s : World) : Prop where
  sound : f.Holds L s
  leased : s.leased = true
  present : ∀ k ∈ ks, s.journal.slot k ≠ none
  todo : (s.files = f.files ∧ ∀ r, s.journal.slot f.key = some (.record r) → r.state = .rolledBack) ∨
    Filed f.key s ∧ f.key ∈ ks

section Entries
variable {k : RecordKey} {ks : List RecordKey}

theorem Awaits.aside {t : World} (h : Awaits L f (k :: ks) s) (hk : k ∉ ks)
    (hdone : k = f.key → ¬ Filed f.key s) (ht : t = s ∨ t = s.quarantine k) : Awaits L f ks t := by
  have hpresent := (forall_mem_cons.mp h.present).2
  -- a waiting record is another one
  have hwait : Filed f.key s ∧ f.key ∈ k :: ks → f.key ≠ k ∧ f.key ∈ ks := by
    rintro ⟨hfiled, hmem⟩
    have hne : f.key ≠ k := fun heq => hdone heq.symm hfiled
    exact ⟨hne, (mem_cons.mp hmem).resolve_left hne⟩
  rcases ht with rfl | rfl
  · exact ⟨h.sound, h.leased, hpresent, h.todo.imp id fun hw => ⟨hw.1, (hwait hw).2⟩⟩
  · refine ⟨h.sound.sound.quarantine.holds, h.leased, fun j hj => ?_, ?_⟩
    · rw [quarantine_others s k j fun heq => hk (heq ▸ hj)]
      exact hpresent j hj
    · rcases h.todo with ⟨hfiles, hrolled⟩ | hw
      · refine .inl ⟨hfiles, fun r hr => ?_⟩
        by_cases hkey : f.key = k
        · rw [hkey, show (s.quarantine k).journal.slot k = none from Directory.remove_self ..] at hr
          cases hr
        · rw [quarantine_others s k f.key hkey] at hr
          exact hrolled r hr
      · obtain ⟨hne, hmem⟩ := hwait hw
        obtain ⟨r, hr, hrev⟩ := hw.1
        exact .inr ⟨⟨r, (quarantine_others s k f.key hne).trans hr, hrev⟩, hmem⟩

theorem entry_unread {t : World} {out : Except TransactionError ReconcilePass}
    (hslot : s.journal.slot k ≠ none) (h : SetAside (Answering L) k s out t) : ∃ pass, out = .ok pass := by
  cases out with
  | ok pass => exact ⟨pass, rfl⟩
  | error e =>
    rcases h.unread e rfl with hnone | ⟨d, hd, hload⟩
    · exact absurd hnone hslot
    · exact absurd hd.load hload

theorem hosting_rollbackRecord {r : TransactionRecord} (h : f.Holds L s) (hl : s.leased = true)
    (hslot : s.journal.slot f.key = some (.record r)) (hrev : Revocable f.key.session r)
    (hopen : r.state ≠ .rolledBack) :
    Hosting L False f (fun r' t => RolledBack f.key.session r' ∧ t = { s with files := f.files } ∧
      Sound L (some f) (t.putRecord f.key r')) (rollbackRecord r) s := by
  have hpend : Pending L (some f) ⟨⟨f.key.session, f.key.cell, r.traceId⟩, r, false⟩ r s := by
    refine ⟨hl, hslot, h.sound, ?_, ?_, fun _ _ _ he => .inl (mem_keys_undoLog he),
      fun hs => absurd hs hopen, fun _ => rfl⟩
    · rintro g ⟨rfl⟩
      rfl
    · rintro g ⟨rfl⟩
      exact h.fits r hslot
  have hruns : Runs L False (some f) (fun r' t => ∃ F, t = { s with files := F } ∧
      Pending L (some f) ⟨⟨f.key.session, f.key.cell, r.traceId⟩, r', false⟩ r t) (rollbackRecord r) s := by
    rw [← bind_pure (rollbackRecord r)]
    exact hpend.runs_rollbackRecord fun r' F hp _ => ⟨F, rfl, hp⟩
  have hrevokes : Revokes L f.key (fun r' _ => RolledBack f.key.session r') (rollbackRecord r) s := by
    rw [← bind_pure (rollbackRecord r)]
    exact revokes_rollbackRecord ⟨r, hslot, hrev⟩ hrev fun r' t hr' _ => hr'
  refine (hosting_of hruns hrevokes).post fun r' t hout => ?_
  obtain ⟨⟨F, rfl, hp⟩, hrolled⟩ := hout
  have hF : F = f.files := (hp.fits f rfl).undone hrolled.state
  subst hF
  exact ⟨hrolled, rfl, (hp.published False).sound⟩

theorem awaits_reconcileEntry (pass : ReconcilePass) (h : Awaits L f (k :: ks) s) (hk : k ∉ ks)
    (hc : c.sessionId = f.key.session) (hset : f.settled k) :
    (kernel L).Safe (Answering L) (fun _ _ => True) (fun out t => (∃ pass', out = .ok pass') ∧ Awaits L f ks t)
      (reconcileEntry L c k pass) s := by
  have hslot := h.present k mem_cons_self
  -- an entry without a live record
  have haside : (∀ r, s.journal.slot k = some (.record r) → r.state = .committed ∨ r.state = .rolledBack) →
      (k = f.key → ¬ Filed f.key s) → (kernel L).Safe (Answering L) (fun _ _ => True)
        (fun out t => (∃ pass', out = .ok pass') ∧ Awaits L f ks t) (reconcileEntry L c k pass) s := by
    intro hsettled hdone
    exact (reconcileEntry_settled pass hsettled).mono (fun _ _ _ ha => ha) (fun _ _ _ => trivial)
      fun out t hout => ⟨entry_unread hslot hout, h.aside hk hdone hout.world⟩
  by_cases hkey : k = f.key
  · subst hkey
    by_cases hfiled : Filed f.key s
    · obtain ⟨r, hr, hrev⟩ := hfiled
      -- once the record is rolled back, nothing waits any more
      have hdone : ∀ r' t, t.journal.slot f.key = some (.record r') → r'.state = .rolledBack →
          t.files = f.files → f.Holds L t → t.leased = s.leased →
          (∀ j, j ≠ f.key → t.journal.slot j = s.journal.slot j) → Awaits L f ks t := by
        intro r' t ht hrolled hfiles hsound hleased hothers
        refine ⟨hsound, hleased.trans h.leased, fun j hj => ?_, .inl ⟨hfiles, fun q hq => ?_⟩⟩
        · rw [hothers j fun heq => hk (heq ▸ hj)]
          exact h.present j (mem_cons_of_mem _ hj)
        · rw [ht] at hq
          cases hq
          exact hrolled
      refine safe_loadRecord trivial (fun d _ hd hf => ?_) (fun d _ hd hf => ?_) (fun hnone => ?_) fun e he => ?_
      · rw [hd.load] at hf
        cases hf
      · rw [hd.load] at hf
        cases hf
      · exact absurd hnone hslot
      · have hsame := he.symm.trans hr
        cases hsame
        dsimp only
        rw [if_neg (not_not.mpr (hrev.session.trans hc.symm))]
        by_cases hrolled : r.state = .rolledBack
        · rw [if_pos (.inr hrolled)]
          exact ⟨⟨_, rfl⟩, hdone r s hr hrolled ((h.sound.fits r hr).undone hrolled) h.sound rfl fun _ _ => rfl⟩
        · rw [if_neg (not_or.mpr ⟨hrev.uncommitted, hrolled⟩)]
          have hroll : (kernel L).Safe (Answering L) (fun _ _ => True) (fun r' t =>
              RolledBack f.key.session r' ∧ t = { s with files := f.files } ∧
                Sound L (some f) (t.putRecord f.key r')) (rollbackRecord r) s :=
            (hosting_rollbackRecord h.sound h.leased hr hrev hrolled).mono
              (fun _ _ _ ha => ha.steady) (fun _ _ _ => trivial) fun _ _ hq => hq
          refine hroll.bind fun r' t ⟨hrolled', ht, hput⟩ => ?_
          subst ht
          rw [if_neg fun hrec => by rw [hrolled'.state] at hrec; cases hrec]
          refine safe_persistRecord ⟨trivial, ⟨_, rfl⟩, ?_⟩ (fun d e hd hp _ => ?_) fun d e hd hp _ => ?_
          · exact hdone r' _ (Directory.put_self ..) hrolled'.state rfl hput.holds rfl
              fun j hj => Directory.put_of_ne _ _ hj
          · rw [hd.steady.1 id] at hp
            cases hp
          · rw [hd.steady.1 id] at hp
            cases hp
    · rcases h.todo with ⟨-, hrolled⟩ | ⟨hwait, -⟩
      · exact haside (fun r hr => .inr (hrolled r hr)) fun _ => hfiled
      · exact absurd hwait hfiled
  · exact haside (fun r hr => h.sound.others k hset hkey r hr) fun heq => absurd heq hkey

end Entries

def restart (L : Layout) (c : EngineCallContext) (env : ℕ → KernelChoice) (s : World) : World :=
  ((kernel L).run (reconcile L c) env s.reboot).2

theorem restart_recovers (h : Recovers L f s) (hc : c.sessionId = f.key.session)
    (hset : ∀ k, k.session = f.key.session → f.settled k) {env : ℕ → KernelChoice}
    (henv : (kernel L).Along (Answering L) (reconcile L c) env s.reboot) :
    (restart L c env s).files = f.files ∧ (restart L c env s).stateRoot = f.root := by
  have hsafe : (kernel L).Safe (Answering L) (fun _ _ => True)
      (fun _ t => t.files = f.files ∧ t.stateRoot = f.root) (reconcile L c) s.reboot := by
    refine safe_reconcile (fun ks out t => Awaits L f ks t ∧ ks.Nodup ∧ (∀ k ∈ ks, f.settled k) ∧
      ∃ pass, out = .ok pass) trivial trivial trivial (fun e hfail => ?_) (fun d e hd hlist => ?_)
      (fun keys hnodup hkeys => ?_) (fun k ks pass t ⟨ht, hnodup, hsettled, _⟩ => ?_)
      fun ks _ t ⟨ht, _, _, pass, hpass⟩ hks => ⟨trivial, ?_, ht.sound.root⟩
    · rcases hfail with hleased | ⟨d, hd, hlease⟩
      · cases hleased
      · rw [hd.lease] at hlease
        cases hlease
    · obtain ⟨order, horder⟩ := hd.list
      rw [horder] at hlist
      cases hlist
    · refine ⟨⟨⟨h.sound.root, h.sound.fits, h.sound.others⟩, rfl, fun k hk => ((hkeys k).mp hk).1, ?_⟩, hnodup,
        fun k hk => hset k (((hkeys k).mp hk).2.trans hc), _, rfl⟩
      rcases h.idle with hnone | hfiled
      · refine .inl ⟨h.files hnone, fun r hr => ?_⟩
        rw [show s.journal.slot f.key = some (.record r) from hr] at hnone
        cases hnone
      · obtain ⟨r, hr, hrev⟩ := hfiled
        have hslot : s.journal.slot f.key ≠ none := by
          rw [hr]
          exact Option.some_ne_none _
        have hmem : f.key ∈ keys := (hkeys f.key).mpr ⟨hslot, hc.symm⟩
        exact .inr ⟨⟨r, hr, hrev⟩, hmem⟩
    · obtain ⟨hk, hrest⟩ := nodup_cons.mp hnodup
      obtain ⟨hhead, htail⟩ := forall_mem_cons.mp hsettled
      exact (awaits_reconcileEntry pass ht hk hc hhead).post fun _ u hu => ⟨hu.2, hrest, htail, hu.1⟩
    · rcases ht.todo with hdone | ⟨-, hmem⟩
      · exact hdone.1
      · rw [hks pass hpass] at hmem
        exact (not_mem_nil hmem).elim
  exact hsafe.run henv

structure Stands (f : Focus) (files : FileTree) (root : Option ZeroHandle) (s : World) : Prop where
  stored : storedState f.key s = some .committed
  others : ∀ k, f.settled k → k ≠ f.key → ∀ r, s.journal.slot k = some (.record r) →
    r.state = .committed ∨ r.state = .rolledBack
  files : s.files = files
  root : s.stateRoot = root

theorem restart_stands {files : FileTree} {root : Option ZeroHandle} (h : Stands f files root s)
    (hc : c.sessionId = f.key.session) (hset : ∀ k, k.session = f.key.session → f.settled k) (env : ℕ → KernelChoice) :
    (restart L c env s).files = files ∧ (restart L c env s).stateRoot = root := by
  have hlive : NothingLive c.sessionId s.reboot := nothingLive_of_committed h.stored
    fun j hsession => h.others j (hset j (hsession.trans hc))
  have hlast : restart L c env s ∈ s.reboot :: (kernel L).states (reconcile L c) env s.reboot := by
    rw [restart, Machine.run_snd]
    exact getLastD_mem_cons
  have hrests := reconcile_rests c hlive env _ hlast
  exact ⟨hrests.files.trans h.files, hrests.root.trans h.root⟩

end Zero.Kernel
