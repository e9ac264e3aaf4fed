import ZeroStack.AttemptJournal.Chain

/-! Every operation of the attempt journal moves along the lifecycle: whatever reads and
writes fail, it leaves the attempt where it was or one step further. -/

open Durable.Fallible (fail ofExcept)

namespace Zero.AttemptJournal
open Durable Zero.Store

variable {H : Hashes} {a a' : Attempt} {β : Type}

def Advances (H : Hashes) (s t : AttemptFiles) : Prop :=
  s = t ∨ ∃ a a', Attempt.Next a a' ∧ a'.Valid H ∧ s = a.files H ∧ t = a'.files H

abbrev Attempt.Runs (H : Hashes) (a : Attempt) (Q : Except (Failure AttemptJournalError) β → AttemptFiles → Prop)
    (x : AttemptM β) : Prop := disk.Safe Machine.Free (Advances H) Q x.run (a.files H)

def Settles (H : Hashes) (a : Attempt) (r : Except (Failure AttemptJournalError) β) (t : AttemptFiles) : Prop :=
  (∃ a', a'.Valid H ∧ t = a'.files H ∧ (a' = a ∨ a.Next a')) ∧ ∀ m, r ≠ .error (.panic m)

theorem settles_err (ha : a.Valid H) (e : AttemptJournalError) :
    Settles H a (.error (.err e) : Except _ β) (a.files H) :=
  ⟨⟨a, ha, rfl, .inl rfl⟩, nofun⟩

theorem settles_ok (ha : a.Valid H) (v : β) : Settles H a (.ok v) (a.files H) :=
  ⟨⟨a, ha, rfl, .inl rfl⟩, nofun⟩

variable {e : AttemptEntry}

theorem writeOnceEntry_of_valid {k : ℕ} (hk : k ≤ attemptJournalMaxEntries) (he : e.validate H = .ok ())
    (write : AttemptWrite) : writeOnceEntry H k e write = writeOnce wording k e (boundaries write) := by
  rw [writeOnceEntry, if_neg (Nat.not_lt.mpr hk), he]
  rfl

theorem safe_writeOnceEntry_bind {Q : Except (Failure AttemptJournalError) β → AttemptFiles → Prop}
    {write : AttemptWrite} {f : Unit → AttemptM β} (hn : a.Next a')
    (hv : a'.Valid H) (he : a'.entries H = a.entries H ++ [e]) (hkeep : ∀ err, Q (.error (.err err)) (a.files H))
    (hnew : ∀ err, Q (.error (.err err)) (a'.files H)) (hok : a'.Runs H Q (f ())) :
    a.Runs H Q (writeOnceEntry H ((a.entries H).length + 1) e write >>= f) := by
  have hvalid : e.validate H = .ok () := Attempt.entries_valid hv e (by simp [he])
  have hpub : (a.files H).publish ((a.entries H).length + 1) e = a'.files H := by
    rw [Attempt.files, Attempt.files, he, layout_append]
  have habsent : a.files H ((a.entries H).length + 1) = .absent := layout_of_length_lt (by omega)
  have hstep : Advances H (a.files H) (a'.files H) := .inr ⟨a, a', hn, hv, rfl, rfl⟩
  rw [writeOnceEntry_of_valid Attempt.length_entries_lt hvalid]
  refine Machine.safe_bind.mpr (safe_writeOnce (.inl rfl) hkeep (fun h => ?_) fun _ => ?_)
  · rw [habsent] at h
    cases h
  · exact safe_durableReplace (.inl rfl) hkeep hpub hstep hok hnew

section
variable (ha : a.Valid H)
include ha

theorem safe_writeOnceEntry_pure {write : AttemptWrite} {v : β} (hn : a.Next a') (hv : a'.Valid H)
    (he : a'.entries H = a.entries H ++ [e]) :
    a.Runs H (Settles H a) (writeOnceEntry H ((a.entries H).length + 1) e write >>= fun _ => pure v) :=
  safe_writeOnceEntry_bind hn hv he (settles_err ha)
    (fun _ => ⟨⟨a', hv, rfl, .inr hn⟩, nofun⟩) ⟨⟨a', hv, rfl, .inr hn⟩, nofun⟩

theorem safe_refuse {p : Prop} [Decidable p] {err : AttemptJournalError} {x : AttemptM β}
    (hx : ¬p → a.Runs H (Settles H a) x) :
    a.Runs H (Settles H a) (if p then fail err else x) := by
  split_ifs with hp
  · exact settles_err ha err
  · exact hx hp

theorem safe_accept {p : Prop} [Decidable p] {err : AttemptJournalError} {v : β} :
    a.Runs H (Settles H a) (if p then pure v else fail err) := by
  split_ifs
  · exact settles_ok ha v
  · exact settles_err ha err

theorem safe_prepareAttempt (binding : AttemptBinding) : a.Runs H (Settles H a) (prepareAttempt H binding) := by
  cases hb : binding.validate H with
  | error err =>
    simp only [prepareAttempt, hb, Fallible.ofExcept_error]
    exact settles_err ha err
  | ok u =>
    simp only [prepareAttempt, hb, Fallible.ofExcept_ok]
    refine (Attempt.reads_readChain ha).safe_bind (.inl rfl) ?_ fun _ err _ => settles_err ha err
    cases a with
    | idle => exact safe_writeOnceEntry_pure ha (.prepare binding) hb rfl
    | prepared b => exact safe_accept ha
    | dispatched b crossedAt => exact settles_err ha _
    | closed _ how | resolved _ _ how => cases how <;> exact settles_err ha _

theorem safe_markDispatchCrossed (preparedEntryDigest : Sha256Digest) (crossedAtUnixNs : ℕ) :
    a.Runs H (Settles H a) (markDispatchCrossed H preparedEntryDigest crossedAtUnixNs) := by
  refine (Attempt.reads_readChain ha).safe_bind (.inl rfl) ?_ fun _ err _ => settles_err ha err
  cases a with
  | idle => exact settles_err ha _
  | prepared b => exact safe_refuse ha fun _ => safe_writeOnceEntry_pure ha (.cross b crossedAtUnixNs) ha rfl
  | dispatched b crossedAt => exact safe_accept ha
  | closed _ how | resolved _ _ how => cases how <;> exact settles_err ha _

theorem safe_abortAttempt (preparedEntryDigest : Sha256Digest) :
    a.Runs H (Settles H a) (abortAttempt H preparedEntryDigest) := by
  refine (Attempt.reads_readChain ha).safe_bind (.inl rfl) ?_ fun _ err _ => settles_err ha err
  cases a with
  | idle => exact settles_err ha _
  | prepared b => exact safe_refuse ha fun _ => safe_writeOnceEntry_pure ha (.close b .aborted) ha rfl
  | dispatched b crossedAt => exact settles_err ha _
  | closed b how =>
    cases how with
    | safeToRetry => exact settles_err ha _
    | aborted => exact safe_refuse ha fun _ => settles_ok ha _
  | resolved b crossedAt how => cases how <;> exact settles_err ha _

omit ha in
theorem terminalEntry_resolution (e : AttemptEntry) (digest : Sha256Digest) (sequence : ℕ)
    (how : Resolution) : terminalEntry e digest sequence how.state how.evidence =
      pure (.successor e digest sequence how.state none none how.evidence) := by
  cases how <;> rfl

theorem safe_markTerminal (dispatchEntryDigest : Sha256Digest)
    (how : Resolution) (hv : how.Valid) (write : AttemptWrite) :
    a.Runs H (Settles H a) (markTerminal H dispatchEntryDigest how.state how.evidence write) := by
  refine (Attempt.reads_readChain ha).safe_bind (.inl rfl) ?_ fun _ err _ => settles_err ha err
  cases a with
  | idle => exact settles_err ha _
  | prepared b => cases how <;> exact settles_err ha _
  | closed b closing => cases how <;> cases closing <;> exact settles_err ha _
  | dispatched b crossedAt =>
    have hne : (crossedEntry H b crossedAt).state ≠ how.state := by cases how <;> nofun
    have hcross : ¬ (crossedEntry H b crossedAt).state ≠ .dispatchCrossed := not_not.mpr rfl
    change disk.Safe _ _ _ (ExceptT.run (if (crossedEntry H b crossedAt).state = how.state
      then _ else if (crossedEntry H b crossedAt).state ≠ .dispatchCrossed then fail _
      else if H.entry (crossedEntry H b crossedAt) ≠ dispatchEntryDigest then fail _
      else _)) _
    rw [if_neg hne, if_neg hcross]
    refine safe_refuse ha fun _ => ?_
    simp only [terminalEntry_resolution, pure_bind]
    exact safe_writeOnceEntry_pure ha (.resolve b crossedAt how) ⟨ha, hv⟩ rfl
  | resolved b crossedAt how' =>
    change disk.Safe _ _ _ (ExceptT.run (if (resolutionEntry H b crossedAt how').state = how.state
      then _ else if (resolutionEntry H b crossedAt how').state ≠ .dispatchCrossed
        then fail _ else _)) _
    have hne : (resolutionEntry H b crossedAt how').state ≠ .dispatchCrossed := by
      cases how' <;> nofun
    split_ifs with hs
    · refine safe_refuse ha fun _ => ?_
      simp only [terminalEntry_resolution, pure_bind]
      exact safe_accept ha
    · exact settles_err ha _

end

def Attempt.terminal (H : Hashes) : Attempt → Option (AttemptBinding × AttemptEntry)
  | .closed b how => some (b, closingEntry H b how)
  | .resolved b crossedAt how => some (b, resolutionEntry H b crossedAt how)
  | _ => none

theorem Attempt.not_next_of_terminal {p : AttemptBinding × AttemptEntry}
    (ht : a.terminal H = some p) : ¬ a.Next a' := by
  rintro (_ | _ | _ | _) <;> cases ht

structure AttemptRecoveryReceipt.Classifies (H : Hashes) (r : AttemptRecoveryReceipt)
    (b : AttemptBinding) (e : AttemptEntry) : Prop where
  binding : r.bindingDigest = H.binding b
  entry : r.terminalEntryDigest = H.entry e
  state : r.terminalState = e.state
  binding_ne : H.binding b ≠ .zero
  entry_ne : H.entry e ≠ .zero

variable {b : AttemptBinding} {outcome : AttemptRecoveryOutcome}

theorem classifies_of_makeRecoveryReceipt {r : AttemptRecoveryReceipt} (hv : e.validate H = .ok ())
    (hr : makeRecoveryReceipt H (H.binding b) outcome e = .ok r) : r.Classifies H b e := by
  simp only [makeRecoveryReceipt, AttemptEntry.digest_of_valid hv, bind, Except.bind] at hr
  split at hr
  · cases hr
  · rename_i hvalid
    cases hr
    simp only [AttemptRecoveryReceipt.validate] at hvalid
    split_ifs at hvalid with _ hzero
    exact ⟨rfl, rfl, rfl, fun h => hzero (.inl h), fun h => hzero (.inr (.inl h))⟩

theorem makeRecoveryReceipt_eq_ok {r : AttemptRecoveryReceipt}
    (hv : e.validate H = .ok ()) (hr : r.Classifies H b e) (ht : e.state.isTerminal = true)
    (hp : AttemptRecoveryReceipt.paired ⟨attemptReceiptSchemaVersion, H.binding b, outcome,
      H.entry e, e.state⟩ = true) : makeRecoveryReceipt H (H.binding b) outcome e =
      .ok ⟨attemptReceiptSchemaVersion, H.binding b, outcome, H.entry e, e.state⟩ := by
  simp only [makeRecoveryReceipt, AttemptEntry.digest_of_valid hv, bind, Except.bind,
    AttemptRecoveryReceipt.validate, hp, ht]
  simp [hr.binding_ne, hr.entry_ne, pure, Except.pure]

def alreadyOutcome : AttemptState → AttemptRecoveryOutcome
  | .failed => .alreadyFailed
  | .indeterminate => .alreadyIndeterminate
  | .safeToRetry => .alreadySafeToRetry
  | .aborted => .alreadyAborted
  | _ => .alreadySucceeded

theorem paired_alreadyOutcome {b d : Sha256Digest} {st : AttemptState}
    (h : st.isTerminal = true) : AttemptRecoveryReceipt.paired
      ⟨attemptReceiptSchemaVersion, b, alreadyOutcome st, d, st⟩ = true := by
  cases st <;> first | rfl | cases h

theorem Attempt.terminal_isTerminal (ht : a.terminal H = some (b, e)) : e.state.isTerminal = true := by
  cases a with
  | closed _ how | resolved _ _ how =>
    cases ht
    cases how <;> rfl
  | _ => cases ht

theorem Attempt.terminal_valid (ha : a.Valid H) (ht : a.terminal H = some (b, e)) : e.validate H = .ok () := by
  cases a with
  | closed b how =>
    cases ht
    exact closingEntry_valid ha how
  | resolved b crossedAt how =>
    cases ht
    exact resolutionEntry_valid ha.1 crossedAt ha.2
  | _ => cases ht

variable (evidence : Option AttemptEvidence)

theorem reads_recoverAttempt_terminal (ha : a.Valid H) (ht : a.terminal H = some (b, e)) :
    Reads (recoverAttempt H b evidence) (a.files H)
      (Fallible.outcome (makeRecoveryReceipt H (H.binding b) (alreadyOutcome e.state) e)) ReadFailed := by
  have hb : b.validate H = .ok () := by
    cases a <;> cases ht
    · exact ha
    · exact ha.1
  simp only [recoverAttempt, hb, AttemptBinding.digest_of_valid hb, Fallible.ofExcept_ok, pure_bind]
  refine Reads.bind (Attempt.reads_readChain ha) ?_
  cases a with
  | idle | prepared | dispatched => cases ht
  | closed b how | resolved b _ how =>
    cases ht
    change Reads (if b ≠ b then fail _ else _) _ _ _
    rw [if_neg (not_not.mpr rfl)]
    cases how <;> exact Reads.ofExcept _

def EndsAs (H : Hashes) (expected : AttemptBinding) (receipt : AttemptRecoveryReceipt) (t : AttemptFiles) : Prop :=
  ∃ (a : Attempt) (e : AttemptEntry), a.Valid H ∧ t = a.files H ∧
    a.terminal H = some (expected, e) ∧ receipt.Classifies H expected e

def Recovers (H : Hashes) (a : Attempt) (expected : AttemptBinding)
    (r : Except (Failure AttemptJournalError) AttemptRecoveryReceipt) (t : AttemptFiles) : Prop :=
  Settles H a r t ∧ ∀ receipt, r = .ok receipt → EndsAs H expected receipt t

theorem recovers_err (ha : a.Valid H) (expected : AttemptBinding) (e : AttemptJournalError) :
    Recovers H a expected (.error (.err e)) (a.files H) := ⟨settles_err ha e, nofun⟩

theorem recovers_of_next (hn : a.Next a') (hv : a'.Valid H) (ht : a'.terminal H = some (b, e)) :
    a'.Runs H (Recovers H a b) (ofExcept (makeRecoveryReceipt H (H.binding b) outcome e)) := by
  refine Machine.safe_ofExcept (fun receipt hr => ⟨⟨⟨a', hv, rfl, .inr hn⟩, nofun⟩, ?_⟩)
    fun err _ => ⟨⟨⟨a', hv, rfl, .inr hn⟩, nofun⟩, nofun⟩
  rintro _ ⟨⟩
  exact ⟨a', e, hv, rfl, ht, classifies_of_makeRecoveryReceipt (Attempt.terminal_valid hv ht) hr⟩

theorem recovers_err_next (hn : a.Next a') (hv : a'.Valid H) (expected : AttemptBinding)
    (e : AttemptJournalError) : Recovers H a expected (.error (.err e)) (a'.files H) :=
  ⟨⟨⟨a', hv, rfl, .inr hn⟩, nofun⟩, nofun⟩

def Resolution.ofEvidence : Option AttemptEvidence → Resolution
  | some (.completion receiptDigest observedAtUnixNs) => .succeeded receiptDigest observedAtUnixNs
  | some (.failure receiptDigest observedAtUnixNs) => .failed receiptDigest observedAtUnixNs
  | none => .indeterminate

theorem classifyDispatched_snd (e : AttemptEntry) (digest : Sha256Digest) (sequence : ℕ) :
    (classifyDispatched e digest sequence evidence).2 = .successor e digest sequence
      (Resolution.ofEvidence evidence).state none none (Resolution.ofEvidence evidence).evidence := by
  rcases evidence with _ | (_ | _) <;> rfl

def Attempt.binding : Attempt → Option AttemptBinding
  | .idle => none
  | .prepared b | .dispatched b _ | .closed b _ | .resolved b _ _ => some b

theorem reads_recoverAttempt_mismatch (ha : a.Valid H) {expected : AttemptBinding} (hne : a.binding ≠ some expected) :
    ∃ err, Reads (recoverAttempt H expected evidence) (a.files H) (.error (.err err)) ReadFailed := by
  cases hb : expected.validate H with
  | error err =>
    simp only [recoverAttempt, hb, Fallible.ofExcept_error, Fallible.fail_bind]
    exact ⟨err, Reads.ofFail err⟩
  | ok u =>
    have hrefuse : ∀ b err (x : AttemptM AttemptRecoveryReceipt), some b ≠ some expected →
        Reads (if b ≠ expected then fail err else x) (a.files H) (.error (.err err))
          ReadFailed := by
      intro b err x hb'
      rw [if_pos fun h => hb' (congrArg some h)]
      exact Reads.ofFail err
    simp only [recoverAttempt, hb, Fallible.ofExcept_ok, pure_bind]
    cases a with
    | idle => exact ⟨_, Reads.bind (Attempt.reads_readChain ha) (Reads.ofFail _)⟩
    | _ => exact ⟨_, Reads.bind (Attempt.reads_readChain ha) (hrefuse _ _ _ hne)⟩

theorem safe_recoverAttempt_dispatched {crossedAt : ℕ} (ha : (Attempt.dispatched b crossedAt).Valid H) :
    (Attempt.dispatched b crossedAt).Runs H (Recovers H (.dispatched b crossedAt) b) (recoverAttempt H b evidence) := by
  have hb : b.validate H = .ok () := ha
  simp only [recoverAttempt, hb, AttemptBinding.digest_of_valid hb, Fallible.ofExcept_ok, pure_bind]
  refine (Attempt.reads_readChain ha).safe_bind (.inl rfl) ?_ fun _ err _ => recovers_err ha _ err
  change disk.Safe _ _ _ (ExceptT.run (if b ≠ b then fail _ else _)) _
  rw [if_neg (not_not.mpr rfl)]
  have hsnd := classifyDispatched_snd evidence (crossedEntry H b crossedAt)
    (H.entry (crossedEntry H b crossedAt)) 3
  set classified := classifyDispatched (crossedEntry H b crossedAt)
    (H.entry (crossedEntry H b crossedAt)) 3 evidence
  change disk.Safe _ _ _ (ExceptT.run (writeOnceEntry H 3 classified.2 .recover >>= fun _ =>
    ofExcept (makeRecoveryReceipt H (H.binding b) classified.1 classified.2))) _
  rw [hsnd]
  set how := Resolution.ofEvidence evidence
  by_cases hv : how.Valid
  · have hn : (Attempt.dispatched b crossedAt).Next (.resolved b crossedAt how) :=
      .resolve b crossedAt how
    exact safe_writeOnceEntry_bind hn ⟨ha, hv⟩ rfl (recovers_err ha b) (recovers_err_next hn ⟨ha, hv⟩ b)
      (recovers_of_next hn ⟨ha, hv⟩ rfl)
  · obtain ⟨err, herr⟩ := resolutionEntry_invalid ha crossedAt hv
    change disk.Safe _ _ _ (ExceptT.run (writeOnceEntry H 3 (resolutionEntry H b crossedAt how) .recover >>= _)) _
    have hlen : ¬ 3 > attemptJournalMaxEntries := by decide
    simp only [writeOnceEntry, hlen, if_false, herr, Fallible.ofExcept_error, Fallible.fail_bind]
    exact recovers_err ha b err

theorem safe_recoverAttempt_prepared (ha : (Attempt.prepared b).Valid H) :
    (Attempt.prepared b).Runs H (Recovers H (.prepared b) b) (recoverAttempt H b evidence) := by
  have hb : b.validate H = .ok () := ha
  simp only [recoverAttempt, hb, AttemptBinding.digest_of_valid hb, Fallible.ofExcept_ok, pure_bind]
  refine (Attempt.reads_readChain ha).safe_bind (.inl rfl) ?_ fun _ err _ => recovers_err ha _ err
  change disk.Safe _ _ _ (ExceptT.run (if b ≠ b then fail _ else _)) _
  rw [if_neg (not_not.mpr rfl)]
  have hn : (Attempt.prepared b).Next (.closed b .safeToRetry) := .close b .safeToRetry
  exact safe_writeOnceEntry_bind hn ha rfl (recovers_err ha b) (recovers_err_next hn ha b) (recovers_of_next hn ha rfl)

theorem safe_recoverAttempt_terminal (ha : a.Valid H) (ht : a.terminal H = some (b, e)) :
    a.Runs H (Recovers H a b) (recoverAttempt H b evidence) := by
  refine reads_recoverAttempt_terminal evidence ha ht _ _ _ (.inl rfl) ?_ fun _ err _ => recovers_err ha b err
  cases hr : makeRecoveryReceipt H (H.binding b) (alreadyOutcome e.state) e with
  | error err => exact recovers_err ha b err
  | ok receipt =>
    refine ⟨settles_ok ha receipt, ?_⟩
    rintro _ ⟨⟩
    exact ⟨a, e, ha, rfl, ht, classifies_of_makeRecoveryReceipt (Attempt.terminal_valid ha ht) hr⟩

theorem safe_recoverAttempt (ha : a.Valid H) (expected : AttemptBinding) :
    a.Runs H (Recovers H a expected) (recoverAttempt H expected evidence) := by
  by_cases hb : a.binding = some expected
  · cases a with
    | idle => cases hb
    | prepared b =>
      cases hb
      exact safe_recoverAttempt_prepared evidence ha
    | dispatched b crossedAt =>
      cases hb
      exact safe_recoverAttempt_dispatched evidence ha
    | closed b how | resolved b crossedAt how =>
      cases hb
      exact safe_recoverAttempt_terminal evidence ha rfl
  · obtain ⟨err, hr⟩ := reads_recoverAttempt_mismatch evidence ha hb
    exact hr _ _ _ (.inl rfl) (recovers_err ha expected err) fun _ e _ => recovers_err ha expected e

end Zero.AttemptJournal
