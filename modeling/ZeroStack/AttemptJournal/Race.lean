import ZeroStack.AttemptJournal.AtMostOnce
import ZeroStack.Program.Interleave

/-! The owner's `mark_dispatch_crossed` against another process's `recover_attempt`, without a lock. The race is lost
when both have looked for entry 2 and neither has renamed yet. -/

open Durable.Fallible (fail ofExcept)

namespace Zero.AttemptJournal
open Durable Zero.Store List

variable {H : Hashes}

def entryOf (H : Hashes) (loaded : Loaded AttemptEntry) : Except AttemptJournalError (CanonicalRead AttemptEntry) := do
  let read ← decode wording .entryMissing H.entry loaded
  read.value.validate H
  let digest ← read.value.digest H
  pure { read with digest := digest }

theorem readCanonicalEntry_eq (k : ℕ) : readCanonicalEntry H k =
    FileProgram.load k >>= fun loaded => ofExcept (entryOf H loaded) := by
  simp only [readCanonicalEntry, readCanonical, bind_assoc, entryOf, Fallible.ofExcept_bind, Fallible.ofExcept_pure]

theorem entryOf_record {e : AttemptEntry} (hv : e.validate H = .ok ()) :
    entryOf H (.found (.record e)) = .ok (canonical H e) := by
  simp only [entryOf, decode, bind, Except.bind, hv, AttemptEntry.digest_of_valid hv]
  rfl

theorem overtaken_readCanonicalEntry {s t : AttemptFiles} {k : ℕ}
    {x : Except AttemptJournalError (CanonicalRead AttemptEntry)}
    {r : Except (Failure AttemptJournalError) (CanonicalRead AttemptEntry)}
    (hs : entryOf H (.found (s k)) = x) (ht : Reads (readCanonicalEntry H k) t r ReadFailed) :
    Overtaken s t (· = Fallible.outcome x) (· = r) (readCanonicalEntry H k).run := by
  have hsafe := ht.noFault
  rw [readCanonicalEntry_eq] at hsafe ⊢
  refine Overtaken.load_bind hsafe ?_
  rw [hs]
  cases x <;> rfl

abbrev opened (H : Hashes) (b : AttemptBinding) : CanonicalRead AttemptEntry := canonical H (preparedEntry b)

section Overtaken
variable {b : AttemptBinding} {e : AttemptEntry}

theorem overtaken_probeEntries_succ (remaining : ℕ) {probe : ℕ} (hp : 2 < probe) :
    Overtaken (layout [preparedEntry b]) (layout [preparedEntry b, e]) (· = .ok ()) (· = .ok ())
      (probeEntries H remaining probe).run := by
  induction remaining generalizing probe with
  | zero => exact rfl
  | succ remaining ih =>
    have hs : layout [preparedEntry b] probe = .absent := layout_of_length_lt (by simp; omega)
    have ht : layout [preparedEntry b, e] probe = .absent := layout_of_length_lt (by simpa using hp)
    refine (overtaken_readCanonicalEntry (congrArg _ (congrArg _ hs))
      (reads_readCanonicalEntry_absent ht)).observe_bind ?_ ?_
    · rintro _ rfl
      exact ih (by omega)
    · rintro _ rfl
      exact (reads_probeEntries remaining (by simp; omega)).noFault

theorem overtaken_probeEntries (he : e.validate H = .ok ()) (remaining : ℕ) :
    Overtaken (layout [preparedEntry b]) (layout [preparedEntry b, e]) (· = .ok ())
      (fun r => r = .ok () ∨ ∃ err, r = .error (.err err)) (probeEntries H (remaining + 1) 2).run := by
  refine (overtaken_readCanonicalEntry rfl (reads_readCanonicalEntry_record rfl he)).observe_bind ?_ ?_
  · rintro _ rfl
    exact (overtaken_probeEntries_succ remaining (by omega)).mono fun _ h => .inl h
  · rintro _ rfl
    exact ⟨rfl, .inr ⟨_, rfl⟩⟩

variable (hb : b.validate H = .ok ()) (he : e.validate H = .ok ())
include hb he

theorem overtaken_readEntries : Overtaken (layout [preparedEntry b]) (layout [preparedEntry b, e])
      (· = .ok ([opened H b], 2)) (fun r => r = .ok ([opened H b], 2) ∨
        r = .ok ([opened H b, canonical H e], 3))
      (readEntries H attemptJournalMaxEntries 1 []).run := by
  have hp := preparedEntry_valid hb
  have hv : ∀ e' ∈ [preparedEntry b, e], e'.validate H = .ok () := by
    simpa using ⟨hp, he⟩
  refine (overtaken_readCanonicalEntry (entryOf_record hp) (reads_readCanonicalEntry_record rfl hp)).observe_bind ?_ ?_
  · rintro _ rfl
    change Overtaken _ _ _ _ (readEntries H (6 + 1) 2 [opened H b]).run
    refine (overtaken_readCanonicalEntry rfl (reads_readCanonicalEntry_record rfl he)).observe_bind ?_ ?_
    · rintro _ rfl
      exact rfl
    · rintro _ rfl
      exact (reads_readEntries hv 6 (append_nil _).symm (by simp)).noFault.post fun _ _ h => ⟨h.1, .inr h.2⟩
  · rintro _ rfl
    have hsplit : [preparedEntry b, e] = [preparedEntry b] ++ [e] := rfl
    have hread := reads_readEntries hv 7 hsplit (by simp)
    exact hread.noFault.post fun _ _ h => ⟨h.1, .inr h.2⟩

theorem overtaken_readChain (hc : checkEntries 0 none ([preparedEntry b, e].map (canonical H)) = .ok ()) :
    Overtaken (layout [preparedEntry b]) (layout [preparedEntry b, e]) (· = .ok [opened H b])
      (fun r => r = .ok [opened H b] ∨
        r = .ok [opened H b, canonical H e] ∨ ∃ err, r = .error (.err err)) (readChain H).run := by
  -- what follows the loop when it stopped before entry 2
  have hrest : Overtaken (layout [preparedEntry b]) (layout [preparedEntry b, e])
      (· = .ok [opened H b])
      (fun r => r = .ok [opened H b] ∨
        r = .ok [opened H b, canonical H e] ∨ ∃ err, r = .error (.err err))
      (probeEntries H (6 + 1) 2 >>= fun _ => do
        ofExcept (checkEntries 0 none [opened H b])
        pure [opened H b]).run := by
    refine (overtaken_probeEntries he 6).andThen ?_ nofun ?_ ?_
    · rintro _ ⟨⟩
      exact rfl
    · rintro _ -
      exact ⟨rfl, .inl rfl⟩
    · rintro err (h | ⟨err', h⟩)
      · cases h
      · cases h
        exact .inr (.inr ⟨err', rfl⟩)
  refine (overtaken_readEntries hb he).andThen ?_ nofun ?_
    (fun _ h => by rcases h with h | h <;> cases h)
  · rintro _ ⟨⟩
    exact hrest
  · rintro _ (h | h)
    · cases h
      exact hrest.safe fun _ h => .inl h
    · cases h
      have hprobe : Reads (probeEntries H 6 3 >>= fun _ => do
          ofExcept (checkEntries 0 none ([preparedEntry b, e].map (canonical H)))
          pure ([preparedEntry b, e].map (canonical H))) (layout [preparedEntry b, e])
          (.ok ([preparedEntry b, e].map (canonical H))) ReadFailed := by
        refine Reads.bind (reads_probeEntries 6 (by simp)) ?_
        rw [hc]
        exact Reads.ofPure _
      exact hprobe.noFault.post fun _ _ h => ⟨h.1, .inr (.inl h.2)⟩

end Overtaken

section Contending
variable {α : Type} (b : AttemptBinding) (e e' : AttemptEntry) (w : AttemptWrite)
variable (f : List (CanonicalRead AttemptEntry) → AttemptM α) (g : Unit → AttemptM α)

abbrev AttemptProgram (α : Type) :=
  Program (FileOp ℕ fun _ => AttemptEntry) FileOp.Res (Except (Failure AttemptJournalError) α)

def Contending (H : Hashes) (p : AttemptProgram α) : Prop :=
  ∃ x, Overtaken (layout [preparedEntry b]) (layout [preparedEntry b, e'])
    (· = .ok [canonical H (preparedEntry b)])
    (fun r => r = .ok [canonical H (preparedEntry b)] ∨
      r = .ok [canonical H (preparedEntry b), canonical H e'] ∨ ∃ err, r = .error (.err err)) x ∧
    p = x >>= ExceptT.bindCont f

def poised : AttemptProgram α := (durableReplace wording 2 e (boundaries w) >>= g).run

variable {b e e' w f g}

theorem Contending.looks (he : e.validate H = .ok ()) (hf : f [opened H b] = writeOnceEntry H 2 e w >>= g)
    {p : AttemptProgram α} (hp : Contending b e' f H p) : ∃ k next, p = .step (.load k) next ∧
      (Contending b e' f H (next (.found (layout [preparedEntry b] k))) ∨
        next (.found (layout [preparedEntry b] k)) = poised e w g) := by
  obtain ⟨x, hx, rfl⟩ := hp
  cases x with
  | ret r =>
    obtain rfl : r = .ok [opened H b] := hx
    change ∃ k next, (f _).run = .step (.load k) next ∧ _
    rw [hf, writeOnceEntry_of_valid (by decide) he]
    exact ⟨2, _, rfl, .inr rfl⟩
  | step o next =>
    cases o with
    | load k => exact ⟨k, _, rfl, .inl ⟨_, hx.2, rfl⟩⟩
    | replace k v | now => exact hx.elim

theorem Contending.safe {R : Except (Failure AttemptJournalError) α → AttemptFiles → Prop}
    (he : e.validate H = .ok ()) (hne : e' ≠ e) (hf : f [opened H b] = writeOnceEntry H 2 e w >>= g)
    (hother : disk.Safe NoFault Keeps R (f [opened H b, canonical H e']).run
      (layout [preparedEntry b, e'])) (herr : ∀ err u, R (.error (.err err)) u) {p : AttemptProgram α}
    (hp : Contending b e' f H p) : disk.Safe NoFault Keeps R p (layout [preparedEntry b, e']) := by
  have hkeep : ∀ u, Keeps u u := fun _ _ _ h => h
  have hlook : disk.Safe NoFault Keeps R (f [opened H b]).run
      (layout [preparedEntry b, e']) := by
    have hs : layout [preparedEntry b, e'] 2 = .record e' := rfl
    rw [hf, writeOnceEntry_of_valid (by decide) he]
    refine Machine.safe_bind.mpr (safe_writeOnce (hkeep _) (fun err => herr err _) (fun h => ?_) fun h => ?_)
    · exact absurd (Slot.record.inj (hs.symm.trans h)) hne
    · cases h
  obtain ⟨x, hx, rfl⟩ := hp
  refine hx.safe_bind hkeep ?_ ?_
  · rintro _ rfl
    exact hlook
  · rintro _ (rfl | rfl | ⟨err, rfl⟩)
    · exact hlook
    · exact hother
    · exact herr err _

end Contending

section Processes
variable {b : AttemptBinding} (hb : b.validate H = .ok ()) (crossedAt : ℕ)
variable (evidence : Option AttemptEvidence)

def owner (H : Hashes) (b : AttemptBinding) (crossedAt : ℕ) : AttemptProgram AttemptEntry :=
  (markDispatchCrossed H (H.entry (preparedEntry b)) crossedAt).run

def recoverer (H : Hashes) (b : AttemptBinding) (evidence : Option AttemptEvidence) :
    AttemptProgram AttemptRecoveryReceipt := (recoverAttempt H b evidence).run

theorem owner_split : ∃ f, markDispatchCrossed H (H.entry (preparedEntry b)) crossedAt = readChain H >>= f ∧
    f [opened H b] = writeOnceEntry H 2 (crossedEntry H b crossedAt) .dispatchCross >>=
        (fun _ => pure (crossedEntry H b crossedAt)) ∧
    ∃ err, f [opened H b, canonical H (closingEntry H b .safeToRetry)] = fail err := by
  refine ⟨_, rfl, ?_, _, rfl⟩
  change (if H.entry (preparedEntry b) ≠ H.entry (preparedEntry b) then _ else _) = _
  rw [if_neg (not_not.mpr rfl)]
  rfl

include hb in
theorem recoverer_split : ∃ f, recoverAttempt H b evidence = readChain H >>= f ∧ f [opened H b] =
      writeOnceEntry H 2 (closingEntry H b .safeToRetry) .recover >>= fun _ =>
        ofExcept (makeRecoveryReceipt H (H.binding b) .classifiedSafeToRetry (closingEntry H b .safeToRetry)) := by
  simp only [recoverAttempt, hb, AttemptBinding.digest_of_valid hb, Fallible.ofExcept_ok, pure_bind]
  refine ⟨_, rfl, ?_⟩
  change (if b ≠ b then _ else _) = _
  rw [if_neg (not_not.mpr rfl)]
  rfl

def NotRetried (r : Except (Failure AttemptJournalError) AttemptRecoveryReceipt) (_ : AttemptFiles) : Prop :=
  ∀ receipt, r = .ok receipt → receipt.terminalState ≠ .safeToRetry

def Refused (r : Except (Failure AttemptJournalError) AttemptEntry) (_ : AttemptFiles) : Prop :=
  ∃ err, r = .error err

theorem notRetried_of_recovers {r : Except (Failure AttemptJournalError) AttemptRecoveryReceipt}
    {t : AttemptFiles} (h : Recovers H (.dispatched b crossedAt) b r t) : NotRetried r t := by
  intro receipt hr
  obtain ⟨⟨⟨a, -, ht, ha⟩, -⟩, hreceipt⟩ := h
  obtain ⟨a', e, -, ht', hterminal, hcl⟩ := hreceipt receipt hr
  obtain rfl : a = a' := Attempt.files_injective (ht.symm.trans ht')
  rw [hcl.state]
  rcases ha with rfl | hn
  · cases hterminal
  · cases hn with
    | resolve _ _ how =>
      cases hterminal
      cases how <;> nofun

include hb in
theorem safe_recoverer_dispatched {f : List (CanonicalRead AttemptEntry) →
      AttemptM AttemptRecoveryReceipt} (hf : recoverAttempt H b evidence = readChain H >>= f) :
    disk.Safe NoFault Keeps NotRetried (f [opened H b, canonical H (crossedEntry H b crossedAt)]).run
      (layout [preparedEntry b, crossedEntry H b crossedAt]) := by
  have ha : (Attempt.dispatched b crossedAt).Valid H := hb
  have hwhole := safe_recoverAttempt_dispatched evidence ha
  rw [hf] at hwhole
  have hrest := (Attempt.reads_readChain ha).safe_of_bind faultFree_quiet (fun _ _ _ => trivial) hwhole
  exact hrest.mono (fun _ _ _ _ => trivial) (fun _ _ => Advances.keeps) fun _ _ =>
    notRetried_of_recovers crossedAt

end Processes

abbrev AttemptRace := Race (FileOp ℕ fun _ => AttemptEntry) FileOp.Res AttemptFiles
  (Except (Failure AttemptJournalError) AttemptEntry)
  (Except (Failure AttemptJournalError) AttemptRecoveryReceipt)

def dispatchRace (H : Hashes) (b : AttemptBinding) (crossedAt : ℕ) (evidence : Option AttemptEvidence) : AttemptRace :=
  ⟨owner H b crossedAt, recoverer H b evidence, (Attempt.prepared b).files H⟩

def BothPublishing (c : AttemptRace) : Prop :=
  publishing c.left = true ∧ publishing c.right = true

instance (c : AttemptRace) : Decidable (BothPublishing c) :=
  inferInstanceAs (Decidable (publishing c.left = true ∧ publishing c.right = true))

section Standing
variable (H : Hashes) (b : AttemptBinding) (crossedAt : ℕ)
variable (f : List (CanonicalRead AttemptEntry) → AttemptM AttemptEntry)
variable (f' : List (CanonicalRead AttemptEntry) → AttemptM AttemptRecoveryReceipt)

def poisedOwner : AttemptProgram AttemptEntry :=
  poised (crossedEntry H b crossedAt) .dispatchCross fun _ => pure (crossedEntry H b crossedAt)

def poisedRecoverer : AttemptProgram AttemptRecoveryReceipt :=
  poised (closingEntry H b .safeToRetry) .recover fun _ =>
    ofExcept (makeRecoveryReceipt H (H.binding b) .classifiedSafeToRetry
      (closingEntry H b .safeToRetry))

theorem step_poisedOwner (right : AttemptProgram AttemptRecoveryReceipt) (state : AttemptFiles) :
    (⟨poisedOwner H b crossedAt, right, state⟩ : AttemptRace).step disk quiet .left =
      ⟨.ret (.ok (crossedEntry H b crossedAt)), right, state.publish 2 (crossedEntry H b crossedAt)⟩ := rfl

theorem step_poisedRecoverer (left : AttemptProgram AttemptEntry) (state : AttemptFiles) :
    (⟨left, poisedRecoverer H b, state⟩ : AttemptRace).step disk quiet .right =
      ⟨left, .ret (Fallible.outcome (makeRecoveryReceipt H (H.binding b) .classifiedSafeToRetry
        (closingEntry H b .safeToRetry))), state.publish 2 (closingEntry H b .safeToRetry)⟩ := by
  rw [← Fallible.run_ofExcept]
  rfl

theorem publish_two (e : AttemptEntry) : Files.publish (layout [preparedEntry b]) 2 e = layout [preparedEntry b, e] :=
  (layout_append [preparedEntry b] e).symm

structure Open (c : AttemptRace) : Prop where
  state : c.state = layout [preparedEntry b]
  left : Contending b (closingEntry H b .safeToRetry) f H c.left ∨ c.left = poisedOwner H b crossedAt
  right : Contending b (crossedEntry H b crossedAt) f' H c.right ∨ c.right = poisedRecoverer H b

def Standing (c : AttemptRace) : Prop :=
  Open H b crossedAt f f' c ∨ (c.left = .ret (.ok (crossedEntry H b crossedAt)) ∧
    disk.Safe NoFault Keeps NotRetried c.right c.state) ∨
  ((∃ r, c.right = .ret r) ∧ disk.Safe NoFault Keeps Refused c.left c.state)

end Standing

section Race
variable {b : AttemptBinding} (hb : b.validate H = .ok ()) {crossedAt : ℕ}
variable {evidence : Option AttemptEvidence}
variable {f : List (CanonicalRead AttemptEntry) → AttemptM AttemptEntry}
variable {f' : List (CanonicalRead AttemptEntry) → AttemptM AttemptRecoveryReceipt}
variable (hf : f [opened H b] =
  writeOnceEntry H 2 (crossedEntry H b crossedAt) .dispatchCross >>= fun _ => pure (crossedEntry H b crossedAt))
variable (hf' : f' [opened H b] =
  writeOnceEntry H 2 (closingEntry H b .safeToRetry) .recover >>= fun _ =>
    ofExcept (makeRecoveryReceipt H (H.binding b) .classifiedSafeToRetry
      (closingEntry H b .safeToRetry)))
variable (hfother : ∃ err, f [opened H b,
  canonical H (closingEntry H b .safeToRetry)] = fail err)
variable (hsplit' : recoverAttempt H b evidence = readChain H >>= f')

theorem closing_ne_crossed : closingEntry H b .safeToRetry ≠ crossedEntry H b crossedAt :=
  fun h => nomatch congrArg AttemptEntry.state h

theorem keeps_publish (e : AttemptEntry) : Keeps (layout [preparedEntry b]) (layout [preparedEntry b, e]) := by
  intro k e' hk
  rcases k with _ | _ | k
  · cases hk
  · exact hk
  · cases hk

variable {c : AttemptRace}

include hb hf' hsplit' in
theorem standing_of_owner_publishes (ho : Open H b crossedAt f f' c)
    (hl : c.left = poisedOwner H b crossedAt) (hr : ¬ publishing c.right = true) :
    Keeps c.state (c.step disk quiet .left).state ∧ Standing H b crossedAt f f' (c.step disk quiet .left) := by
  obtain ⟨left, right, state⟩ := c
  obtain rfl : left = _ := hl
  obtain rfl : state = _ := ho.state
  have hright : Contending b (crossedEntry H b crossedAt) f' H right :=
    ho.right.resolve_right fun h => hr (by rw [h]; rfl)
  rw [step_poisedOwner, publish_two]
  refine ⟨keeps_publish _, .inr (.inl ⟨rfl, ?_⟩)⟩
  exact hright.safe (closingEntry_valid hb .safeToRetry) closing_ne_crossed.symm hf'
    (safe_recoverer_dispatched hb crossedAt evidence hsplit') fun err u => nofun

include hb hf hfother in
theorem standing_of_recoverer_publishes (ho : Open H b crossedAt f f' c)
    (hr : c.right = poisedRecoverer H b) (hl : ¬ publishing c.left = true) :
    Keeps c.state (c.step disk quiet .right).state ∧ Standing H b crossedAt f f' (c.step disk quiet .right) := by
  obtain ⟨left, right, state⟩ := c
  obtain rfl : right = _ := hr
  obtain rfl : state = _ := ho.state
  have hleft : Contending b (closingEntry H b .safeToRetry) f H left :=
    ho.left.resolve_right fun h => hl (by rw [h]; rfl)
  rw [step_poisedRecoverer, publish_two]
  refine ⟨keeps_publish _, .inr (.inr ⟨⟨_, rfl⟩, ?_⟩)⟩
  refine hleft.safe (crossedEntry_valid hb crossedAt) closing_ne_crossed hf ?_ fun err u => ⟨_, rfl⟩
  obtain ⟨err, herr⟩ := hfother
  rw [herr]
  exact ⟨_, rfl⟩

include hb hf hf' hfother hsplit' in
theorem standing_step (who : Side) (c : AttemptRace) (hc : ¬ BothPublishing c) (hs : Standing H b crossedAt f f' c) :
    Keeps c.state (c.step disk quiet who).state ∧ Standing H b crossedAt f f' (c.step disk quiet who) := by
  have hkeep : ∀ u, Keeps u u := fun _ _ _ h => h
  rcases hs with ho | ⟨hl, hr⟩ | ⟨hr, hl⟩
  · cases who with
    | left =>
      rcases ho.left with hleft | hleft
      · obtain ⟨left, right, state⟩ := c
        obtain ⟨k, next, rfl, hnext⟩ := hleft.looks (crossedEntry_valid hb crossedAt) hf
        obtain rfl : state = _ := ho.state
        exact ⟨hkeep _, .inl ⟨rfl, hnext, ho.right⟩⟩
      · exact standing_of_owner_publishes hb hf' hsplit' ho hleft fun hr =>
          hc ⟨by rw [hleft]; rfl, hr⟩
    | right =>
      rcases ho.right with hright | hright
      · obtain ⟨left, right, state⟩ := c
        obtain ⟨k, next, rfl, hnext⟩ := hright.looks (closingEntry_valid hb .safeToRetry) hf'
        obtain rfl : state = _ := ho.state
        exact ⟨hkeep _, .inl ⟨rfl, ho.left, hnext⟩⟩
      · exact standing_of_recoverer_publishes hb hf hfother ho hright fun hl =>
          hc ⟨hl, by rw [hright]; rfl⟩
  · obtain ⟨left, right, state⟩ := c
    obtain rfl : left = _ := hl
    cases who with
    | left => exact ⟨hkeep _, .inr (.inl ⟨rfl, hr⟩)⟩
    | right =>
      obtain ⟨hg, hsafe⟩ := hr.advance (e := quiet) (hkeep _) fun _ _ => ⟨rfl, rfl⟩
      exact ⟨hg, .inr (.inl ⟨rfl, hsafe⟩)⟩
  · obtain ⟨left, right, state⟩ := c
    obtain ⟨r, hr⟩ := hr
    obtain rfl : right = _ := hr
    cases who with
    | right => exact ⟨hkeep _, .inr (.inr ⟨⟨r, rfl⟩, hl⟩)⟩
    | left =>
      obtain ⟨hg, hsafe⟩ := hl.advance (e := quiet) (hkeep _) fun _ _ => ⟨rfl, rfl⟩
      exact ⟨hg, .inr (.inr ⟨⟨r, rfl⟩, hsafe⟩)⟩

include hb hf hf' in
theorem eq_of_bothPublishing (hs : Standing H b crossedAt f f' c) (hc : BothPublishing c) :
    c = ⟨poisedOwner H b crossedAt, poisedRecoverer H b, layout [preparedEntry b]⟩ := by
  obtain ⟨left, right, state⟩ := c
  rcases hs with ho | ⟨hl, -⟩ | ⟨⟨r, hr⟩, -⟩
  · have hleft : left = poisedOwner H b crossedAt := ho.left.resolve_left fun h => by
      obtain ⟨k, next, rfl, -⟩ := h.looks (crossedEntry_valid hb crossedAt) hf
      cases hc.1
    have hright : right = poisedRecoverer H b := ho.right.resolve_left fun h => by
      obtain ⟨k, next, rfl, -⟩ := h.looks (closingEntry_valid hb .safeToRetry) hf'
      cases hc.2
    rw [hleft, hright, show state = _ from ho.state]
  · obtain rfl : left = _ := hl
    cases hc.1
  · obtain rfl : right = _ := hr
    cases hc.2

include hb hf in
theorem Standing.not_dispatched_and_retried
    (hs : Standing H b crossedAt f f' c) {entry : AttemptEntry} {receipt : AttemptRecoveryReceipt}
    (hl : c.left.result? = some (.ok entry)) (hr : c.right.result? = some (.ok receipt)) :
    receipt.terminalState ≠ .safeToRetry := by
  have hleft := Program.eq_ret_of_result? hl
  have hright := Program.eq_ret_of_result? hr
  rcases hs with ho | ⟨-, hsafe⟩ | ⟨-, hsafe⟩
  · rcases ho.left with h | h
    · obtain ⟨k, next, hk, -⟩ := h.looks (crossedEntry_valid hb crossedAt) hf
      cases hleft.symm.trans hk
    · cases hleft.symm.trans h
  · rw [hright] at hsafe
    exact hsafe receipt rfl
  · rw [hleft] at hsafe
    obtain ⟨err, herr⟩ := hsafe
    cases herr

end Race

section Main
variable {b : AttemptBinding} {crossedAt : ℕ} {evidence : Option AttemptEvidence} {sched : List Side}

/-- What the journal promises of a race: the owner does not dispatch an attempt that recovery
reports as safe to retry, and no stored entry is replaced. -/
def RaceSafe (c : AttemptRace) (sched : List Side) : Prop :=
  (¬ ∃ entry receipt, (c.run disk quiet sched).left.result? = some (.ok entry) ∧
    (c.run disk quiet sched).right.result? = some (.ok receipt) ∧ receipt.terminalState = .safeToRetry) ∧
  (c.state :: c.trace disk quiet sched).Pairwise Keeps

theorem not_pairwise_of_poised (hfin : ((⟨poisedOwner H b crossedAt, poisedRecoverer H b, layout [preparedEntry b]⟩ :
      AttemptRace).run disk quiet sched).finished) :
    ¬ ((⟨poisedOwner H b crossedAt, poisedRecoverer H b, layout [preparedEntry b]⟩ :
      AttemptRace).trace disk quiet sched).Pairwise Keeps := by
  intro hkeep
  cases sched with
  | nil => exact absurd hfin.1 nofun
  | cons who sched =>
    obtain ⟨hfirst, -⟩ := pairwise_cons.mp hkeep
    cases who with
    | left =>
      rw [Race.run, step_poisedOwner] at hfin
      rw [step_poisedOwner, publish_two] at hfirst
      rw [publish_two] at hfin
      have hreplaced := Race.mem_trace_of_idle .right (by rintro (_ | _); exacts [.inr rfl, .inl rfl])
        (fun h => by cases h.2) hfin
      have hstored := hfirst _ hreplaced 2 (crossedEntry H b crossedAt) rfl
      exact closing_ne_crossed (Slot.record.inj hstored)
    | right =>
      rw [Race.run, step_poisedRecoverer] at hfin
      rw [step_poisedRecoverer, publish_two] at hfirst
      rw [publish_two] at hfin
      have hreplaced := Race.mem_trace_of_idle .left (by rintro (_ | _); exacts [.inl rfl, .inr rfl])
        (fun h => by cases h.1) hfin
      have hstored := hfirst _ hreplaced 2 (closingEntry H b .safeToRetry) rfl
      exact closing_ne_crossed (Slot.record.inj hstored).symm

theorem open_start (hb : b.validate H = .ok ()) {f : List (CanonicalRead AttemptEntry) → AttemptM AttemptEntry}
    {f' : List (CanonicalRead AttemptEntry) → AttemptM AttemptRecoveryReceipt}
    (hf : markDispatchCrossed H (H.entry (preparedEntry b)) crossedAt = readChain H >>= f)
    (hf' : recoverAttempt H b evidence = readChain H >>= f') :
    Open H b crossedAt f f' (dispatchRace H b crossedAt evidence) where
  state := rfl
  left := .inl ⟨_, overtaken_readChain hb (closingEntry_valid hb .safeToRetry)
    (Attempt.checkEntries_entries (a := .closed b .safeToRetry)), congrArg ExceptT.run hf⟩
  right := .inl ⟨_, overtaken_readChain hb (crossedEntry_valid hb crossedAt)
    (Attempt.checkEntries_entries (a := .dispatched b crossedAt)), congrArg ExceptT.run hf'⟩

/-- A race run to its end keeps the journal's promises exactly when at no step of it both
processes had looked for entry 2 and not yet renamed. -/
theorem dispatch_race_safe_iff (hb : b.validate H = .ok ()) (sched : List Side)
    (hfin : ((dispatchRace H b crossedAt evidence).run disk quiet sched).finished) :
    RaceSafe (dispatchRace H b crossedAt evidence) sched ↔
      (dispatchRace H b crossedAt evidence).Meets disk quiet (fun _ c => ¬ BothPublishing c) sched := by
  obtain ⟨f, hsplit, hf, hfother⟩ := owner_split (H := H) (b := b) crossedAt
  obtain ⟨f', hsplit', hf'⟩ := recoverer_split hb evidence
  have hopen := open_start hb hsplit hsplit'
  have hstep := standing_step hb hf hf' hfother hsplit'
  constructor
  · intro hsafe
    by_contra hmeets
    obtain ⟨pre, who, post, rfl, hpre, hboth⟩ := Race.exists_of_not_meets hmeets
    have hstanding := (Race.run_invariant hstep (.inl hopen) hpre).1
    have hpoised := eq_of_bothPublishing hb hf hf' hstanding (not_not.mp hboth)
    rw [Race.run_append, hpoised] at hfin
    have hkeep := hsafe.2
    rw [Race.trace_append, hpoised] at hkeep
    exact not_pairwise_of_poised hfin (pairwise_append.mp (pairwise_cons.mp hkeep).2).2.1
  · intro hmeets
    obtain ⟨hstanding, hchain⟩ := Race.run_invariant hstep (.inl hopen) hmeets
    refine ⟨?_, isChain_iff_pairwise.mp hchain⟩
    rintro ⟨entry, receipt, hl, hr, hretry⟩
    exact hstanding.not_dispatched_and_retried hb hf hl hr hretry

/-- The owner looks for entry 2 and the recoverer looks before the owner renames: the
attempt is dispatched and reported as safe to retry. -/
theorem dispatched_and_retried : ¬ RaceSafe (dispatchRace sampleHashes sampleBinding 7 none)
      (.replicate 10 .left ++ .replicate 11 .right ++ [.left]) :=
  fun h => h.1 ⟨_, _, rfl, rfl, rfl⟩

theorem dispatched_then_recovered : RaceSafe (dispatchRace sampleHashes sampleBinding 7 none)
      (.replicate 4 .left ++ .replicate 5 .right ++ .replicate 7 .left ++ .replicate 6 .right) :=
  (dispatch_race_safe_iff rfl _ ⟨rfl, rfl⟩).mpr (by decide)

end Main

end Zero.AttemptJournal
