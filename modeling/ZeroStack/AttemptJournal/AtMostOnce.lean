import ZeroStack.AttemptJournal.Lifecycle
import ZeroStack.Program.Session

/-! Whole histories of one attempt journal: calls in any order, each of which may fail at
any read or write or be stopped after any of its steps. -/

namespace Zero.AttemptJournal
open Durable Zero.Store

inductive AttemptCall where
  | prepare (binding : AttemptBinding)
  | markDispatchCrossed (preparedEntryDigest : Sha256Digest) (crossedAtUnixNs : ℕ)
  | markSucceeded (dispatchEntryDigest receiptDigest : Sha256Digest) (observedAtUnixNs : ℕ)
  | markFailed (dispatchEntryDigest failureReceiptDigest : Sha256Digest) (observedAtUnixNs : ℕ)
  | markIndeterminate (dispatchEntryDigest : Sha256Digest)
  | abort (preparedEntryDigest : Sha256Digest)
  | recover (expected : AttemptBinding) (evidence : Option AttemptEvidence)
  deriving DecidableEq

inductive AttemptReply where
  | entry (e : AttemptEntry)
  | receipt (r : AttemptRecoveryReceipt)
  deriving DecidableEq

variable {H : Hashes} {a a' : Attempt}

def attemptProgram (H : Hashes) : AttemptCall → AttemptM AttemptReply
  | .prepare binding => do return .entry (← prepareAttempt H binding)
  | .markDispatchCrossed preparedEntryDigest crossedAtUnixNs => do
    return .entry (← markDispatchCrossed H preparedEntryDigest crossedAtUnixNs)
  | .markSucceeded dispatchEntryDigest receiptDigest observedAtUnixNs => do
    return .entry (← markSucceeded H dispatchEntryDigest receiptDigest observedAtUnixNs)
  | .markFailed dispatchEntryDigest failureReceiptDigest observedAtUnixNs => do
    return .entry (← markFailed H dispatchEntryDigest failureReceiptDigest observedAtUnixNs)
  | .markIndeterminate dispatchEntryDigest => do
    return .entry (← markIndeterminate H dispatchEntryDigest)
  | .abort preparedEntryDigest => do return .entry (← abortAttempt H preparedEntryDigest)
  | .recover expected evidence => do return .receipt (← recoverAttempt H expected evidence)

abbrev AttemptResult := Except (Failure AttemptJournalError) AttemptReply

def attemptSystem (H : Hashes) : System (FileOp ℕ fun _ => AttemptEntry) FileOp.Res Unit
    AttemptFiles AttemptCall AttemptResult where
  prog call _ := (attemptProgram H call).run >>= fun r => pure ((), r)
  fresh := ()
  reboot := id

abbrev AttemptInvocation := Invocation AttemptCall FileChoice

def emptyJournal : Config Unit AttemptFiles := ⟨(), Files.empty⟩

theorem safe_entry {x : AttemptM AttemptEntry}
    (h : a.Runs H (Settles H a) x) : a.Runs H (Settles H a) (x >>= fun e => pure (AttemptReply.entry e)) :=
  h.andThen (fun _ _ hs => ⟨hs.1, nofun⟩) fun e _ hs => ⟨hs.1, fun m hm => hs.2 m (by cases hm; rfl)⟩

theorem safe_attemptProgram (ha : a.Valid H) (call : AttemptCall) : a.Runs H (Settles H a) (attemptProgram H call) := by
  cases call with
  | prepare binding => exact safe_entry (safe_prepareAttempt ha binding)
  | markDispatchCrossed digest crossedAt =>
    exact safe_entry (safe_markDispatchCrossed ha digest crossedAt)
  | markSucceeded digest receipt observedAt =>
    exact safe_entry (safe_refuse ha fun hz => safe_markTerminal ha digest (.succeeded receipt observedAt) hz .succeed)
  | markFailed digest receipt observedAt =>
    exact safe_entry (safe_refuse ha fun hz => safe_markTerminal ha digest (.failed receipt observedAt) hz .fail)
  | markIndeterminate digest =>
    exact safe_entry (safe_markTerminal ha digest .indeterminate trivial .indeterminate)
  | abort digest => exact safe_entry (safe_abortAttempt ha digest)
  | recover expected evidence =>
    exact (safe_recoverAttempt evidence ha expected).andThen (fun _ _ hs => ⟨hs.1.1, nofun⟩)
      fun e _ hs => ⟨hs.1.1, fun m hm => hs.1.2 m (by cases hm; rfl)⟩

theorem safe_prog (ha : a.Valid H) (call : AttemptCall) (m : Unit) :
    disk.Safe Machine.Free (Advances H) (fun out t => Settles H a out.2 t)
      ((attemptSystem H).prog call m) (a.files H) :=
  (safe_attemptProgram ha call).bind fun _ _ h => h

theorem attempt_invariant (H : Hashes) {P : Attempt → Prop} (hP : ∀ a a', P a → a.Next a' → P a') :
    System.Invariant (attemptSystem H) disk (fun _ _ => True) Machine.Free (Advances H)
      (fun c => ∃ a, Attempt.Valid H a ∧ P a ∧ c.disk = a.files H)
      (fun s => ∃ a, Attempt.Valid H a ∧ P a ∧ s = a.files H) where
  call := by
    rintro call m s ⟨a, ha, hPa, rfl⟩ -
    refine (safe_prog ha call m).post fun out t h => ?_
    obtain ⟨⟨a', ha', ht, rfl | hn⟩, -⟩ := h
    · exact ⟨a', ha', hPa, ht⟩
    · exact ⟨a', ha', hP a a' hPa hn, ht⟩
  disk := fun _ _ h => h
  step := by
    rintro s t ⟨a, ha, hPa, rfl⟩ (rfl | ⟨a₁, a₂, hn, ha₂, hs, rfl⟩)
    · exact ⟨a, ha, hPa, rfl⟩
    · rw [Attempt.files_injective hs] at hPa
      exact ⟨a₂, ha₂, hP a₁ a₂ hPa hn, rfl⟩
  reboot := fun _ h => h

def Keeps (s t : AttemptFiles) : Prop := ∀ k e, s k = .record e → t k = .record e

instance : Trans Keeps Keeps Keeps where
  trans h h' := fun k e he => h' k e (h k e he)

theorem Advances.keeps {s t : AttemptFiles} (h : Advances H s t) : Keeps s t := by
  rcases h with rfl | ⟨a, a', hn, -, rfl, rfl⟩
  · exact fun _ _ h => h
  · obtain ⟨e, he⟩ := hn.exists_append
    intro k e' hk
    have hne : k ≠ (a.entries H).length + 1 := by
      rintro rfl
      have habsent : a.files H ((a.entries H).length + 1) = .absent := layout_of_length_lt (by omega)
      rw [habsent] at hk
      cases hk
    rw [Attempt.files, he, layout_append, Files.publish_of_ne _ _ hne]
    exact hk

structure AtMostOnce (chain : List AttemptState) : Prop where
  terminal : chain.countP AttemptState.isTerminal ≤ 1
  dispatch : chain.count .dispatchCrossed ≤ 1
  exclusive : .dispatchCrossed ∈ chain → .aborted ∉ chain ∧ .safeToRetry ∉ chain

theorem atMostOnce_closing (how : Closing) : AtMostOnce [.prepared, how.state] := by
  cases how <;> exact ⟨by decide, by decide, by decide⟩

theorem atMostOnce_resolution (how : Resolution) : AtMostOnce [.prepared, .dispatchCrossed, how.state] := by
  cases how
  · exact (⟨by decide, by decide, by decide⟩ : AtMostOnce [.prepared, .dispatchCrossed, .succeeded])
  · exact (⟨by decide, by decide, by decide⟩ : AtMostOnce [.prepared, .dispatchCrossed, .failed])
  · exact (⟨by decide, by decide, by decide⟩ : AtMostOnce [.prepared, .dispatchCrossed, .indeterminate])

theorem Attempt.atMostOnce (H : Hashes) (a : Attempt) : AtMostOnce ((a.entries H).map AttemptEntry.state) := by
  cases a with
  | idle => exact (⟨by decide, by decide, by decide⟩ : AtMostOnce [])
  | prepared b => exact (⟨by decide, by decide, by decide⟩ : AtMostOnce [.prepared])
  | dispatched b crossedAt =>
    exact (⟨by decide, by decide, by decide⟩ : AtMostOnce [.prepared, .dispatchCrossed])
  | closed b how => exact atMostOnce_closing how
  | resolved b crossedAt how => exact atMostOnce_resolution how

def Accepts (H : Hashes) (t : AttemptFiles) (chain : List (CanonicalRead AttemptEntry)) : Prop :=
  ∀ env : ℕ → FileChoice, FaultFree env → disk.run (readChain H).run env t = (.ok chain, t)

theorem Attempt.accepts (ha : a.Valid H) : Accepts H (a.files H) ((a.entries H).map (canonical H)) :=
  fun _ henv => (reads_readChain ha).run_eq henv

theorem recovered_of_reply {expected : AttemptBinding} {evidence : Option AttemptEvidence}
    {env : ℕ → FileChoice} {r : AttemptRecoveryReceipt} {c : Config Unit AttemptFiles}
    (ha : a.Valid H) (hc : c.disk = a.files H)
    (hr : (attemptSystem H).reply disk ⟨.recover expected evidence, env, none⟩ c = some (.ok (.receipt r))) :
    EndsAs H expected r ((attemptSystem H).invoke disk ⟨.recover expected evidence, env, none⟩ c).disk := by
  have hprogram : a.Runs H (fun r t => ∀ receipt, r = .ok (.receipt receipt) → EndsAs H expected receipt t)
      (attemptProgram H (.recover expected evidence)) := by
    refine (safe_recoverAttempt evidence ha expected).andThen (fun receipt t h => ?_) fun _ _ _ => nofun
    rintro _ ⟨⟩
    exact h.2 receipt rfl
  have hprog : disk.Safe Machine.Free (Advances H)
      (fun out t => ∀ receipt, out.2 = .ok (.receipt receipt) → EndsAs H expected receipt t)
      ((attemptSystem H).prog (.recover expected evidence) c.memory) c.disk :=
    hc ▸ hprogram.bind fun _ _ h => h
  exact hprog.run (disk.along_free _ env _) r (Option.some.inj hr)

theorem recover_again {expected : AttemptBinding} {r : AttemptRecoveryReceipt}
    {c : Config Unit AttemptFiles} (h : EndsAs H expected r c.disk)
    (evidence : Option AttemptEvidence) (env : ℕ → FileChoice) :
    (∀ stop, ∀ t ∈ (attemptSystem H).visited disk ⟨.recover expected evidence, env, stop⟩ c, t = c.disk) ∧
    (FaultFree env → ∃ r', (attemptSystem H).reply disk ⟨.recover expected evidence, env, none⟩ c =
        some (.ok (.receipt r')) ∧ r'.bindingDigest = r.bindingDigest ∧
      r'.terminalEntryDigest = r.terminalEntryDigest ∧ r'.terminalState = r.terminalState) := by
  obtain ⟨a, e, ha, hc, ht, hr⟩ := h
  have hreceipt := makeRecoveryReceipt_eq_ok (Attempt.terminal_valid ha ht) hr
    (Attempt.terminal_isTerminal ht) (paired_alreadyOutcome (Attempt.terminal_isTerminal ht))
  have hreads : Reads (attemptProgram H (.recover expected evidence)) (a.files H)
      (.ok (.receipt ⟨attemptReceiptSchemaVersion, H.binding expected, alreadyOutcome e.state,
        H.entry e, e.state⟩)) ReadFailed := by
    have h := reads_recoverAttempt_terminal evidence ha ht
    rw [hreceipt] at h
    exact h.bind (Reads.ofPure _)
  rw [← hc] at hreads
  constructor
  · intro stop
    refine System.visited_eq_of_states rfl ?_
    change ∀ t ∈ disk.states ((attemptProgram H (.recover expected evidence)).run >>=
      fun r => pure ((), r)) env c.disk, t = c.disk
    rw [Machine.states_bind]
    simpa [Machine.states, Program.pure_eq_ret] using hreads.states_eq env
  · intro henv
    refine ⟨⟨attemptReceiptSchemaVersion, H.binding expected, alreadyOutcome e.state, H.entry e,
      e.state⟩, ?_, hr.binding.symm, hr.entry.symm, hr.state.symm⟩
    change some (disk.run ((attemptProgram H (.recover expected evidence)).run >>=
      fun r => pure ((), r)) env c.disk).1.2 = _
    rw [Machine.run_bind, hreads.run_eq henv]
    rfl

/-- Over every history: each directory on the way is accepted by `read_chain` and holds at most one dispatch and one
end, no entry is ever changed, and once a recovery has returned a receipt, every later one writes nothing and, unless
a read fails, returns the same classification. -/
theorem attempt_dispatched_at_most_once (H : Hashes) (is : List AttemptInvocation) :
    (∀ t ∈ Files.empty :: (attemptSystem H).history disk is emptyJournal,
      ∃ chain, Accepts H t chain ∧ AtMostOnce (chain.map fun entry => entry.value.state)) ∧
    (Files.empty :: (attemptSystem H).history disk is emptyJournal).Pairwise Keeps ∧
    ∀ expected evidence env receipt js evidence' env',
      (attemptSystem H).reply disk ⟨.recover expected evidence, env, none⟩
        ((attemptSystem H).play disk is emptyJournal) = some (.ok (.receipt receipt)) →
      let later := (attemptSystem H).play disk js ((attemptSystem H).invoke disk
        ⟨.recover expected evidence, env, none⟩ ((attemptSystem H).play disk is emptyJournal))
      (∀ stop, ∀ t ∈ (attemptSystem H).visited disk ⟨.recover expected evidence', env', stop⟩ later, t = later.disk) ∧
      (FaultFree env' → ∃ receipt', (attemptSystem H).reply disk ⟨.recover expected evidence', env', none⟩ later =
          some (.ok (.receipt receipt')) ∧ receipt'.bindingDigest = receipt.bindingDigest ∧
        receipt'.terminalEntryDigest = receipt.terminalEntryDigest ∧
        receipt'.terminalState = receipt.terminalState) := by
  have hstart : ∃ a, Attempt.Valid H a ∧ True ∧ emptyJournal.disk = a.files H :=
    ⟨.idle, trivial, trivial, layout_nil.symm⟩
  have hinvariant := attempt_invariant H (P := fun _ => True) fun _ _ _ _ => trivial
  obtain ⟨hchain, hstates⟩ := hinvariant.history (fun _ _ => .inl rfl) is hstart System.meets_free
  refine ⟨fun t ht => ?_, ?_, fun expected evidence env receipt js evidence' env' hr => ?_⟩
  · obtain ⟨a, ha, -, rfl⟩ := hstates t ht
    refine ⟨_, Attempt.accepts ha, ?_⟩
    rw [List.map_map]
    exact Attempt.atMostOnce H a
  · exact List.isChain_iff_pairwise.mp (hchain.imp fun _ _ => Advances.keeps)
  · obtain ⟨a, ha, -, hc⟩ := hinvariant.play is hstart System.meets_free
    have hends := recovered_of_reply ha hc hr
    have hlater : EndsAs H expected receipt ((attemptSystem H).play disk js
        ((attemptSystem H).invoke disk ⟨.recover expected evidence, env, none⟩
          ((attemptSystem H).play disk is emptyJournal))).disk := by
      obtain ⟨a', e, ha', hd, ht, hcl⟩ := hends
      -- an attempt that has ended has no next one
      have hended := attempt_invariant H (P := (· = a')) fun _ _ hsame hn =>
        absurd (hsame ▸ hn) (Attempt.not_next_of_terminal ht)
      obtain ⟨_, -, rfl, hkeep⟩ := hended.play js ⟨a', ha', rfl, hd⟩ System.meets_free
      exact ⟨_, e, ha', hkeep, ht, hcl⟩
    exact recover_again hlater evidence' env'

def sampleHashes : Hashes := ⟨fun _ => 1, fun _ => 2, fun e => e.sequence + 3⟩

def sampleBinding : AttemptBinding :=
  .new sampleHashes 1 2 .reversibleMutation 3 .portableStrict 4

def prepareCall : AttemptInvocation := ⟨.prepare sampleBinding, fun _ => quiet, none⟩

def recoverCall : AttemptInvocation := ⟨.recover sampleBinding none, fun _ => quiet, none⟩

def preparedJournal : Config Unit AttemptFiles :=
  (attemptSystem sampleHashes).play disk [prepareCall] emptyJournal

theorem attempt_recovered_again : (attemptSystem sampleHashes).reply disk recoverCall preparedJournal =
        some (.ok (.receipt ⟨1, 2, .classifiedSafeToRetry, 5, .safeToRetry⟩)) ∧
      ∃ receipt, (attemptSystem sampleHashes).reply disk recoverCall
          ((attemptSystem sampleHashes).invoke disk recoverCall preparedJournal) =
            some (.ok (.receipt receipt)) ∧ receipt.terminalState = .safeToRetry := by
  refine ⟨rfl, ?_⟩
  have hrun := attempt_dispatched_at_most_once sampleHashes [prepareCall]
  obtain ⟨receipt, hreply, -, -, hstate⟩ :=
    (hrun.2.2 sampleBinding none (fun _ => quiet) _ [] none (fun _ => quiet) rfl).2 faultFree_quiet
  exact ⟨receipt, hreply, hstate⟩

end Zero.AttemptJournal
