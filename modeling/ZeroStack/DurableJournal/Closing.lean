import ZeroStack.DurableJournal.Tracking

/-! The parts that the calls of the journal share: the records of a transaction, the reads of
its receipts, and the writes that end it. -/

namespace Zero.DurableJournal
open Durable Zero.Store JournalBindingLike

section Records
variable {B : Type} [JournalBindingLike B] {H : Hashes B} {b : B}

theorem digest_of_valid {r : DurableJournalRecord B} (hr : r.validate H = .ok ()) :
    r.digest H = .ok (H.content .journalRecord r) := by
  rw [DurableJournalRecord.digest, hr]
  rfl

theorem Phase.journal_eq_none {p : Phase} (h : p.journal H b = none) : p.journaled = false := by
  cases p <;> first | rfl | cases h

theorem Phase.journaled_of_journal {p : Phase} {j : DurableJournalRecord B}
    (h : p.journal H b = some j) : p.journaled = true := by
  cases p <;> first | rfl | cases h

theorem Phase.journal_cases {p : Phase} {j : DurableJournalRecord B} (h : p.journal H b = some j) :
    (p = .prepared ∨ p = .published) ∧ j = .prepared b ∨ p = .committed ∧ j = committedRecord H b ∨
      ∃ reason, p = .aborted reason ∧ j = abortedRecord H b reason := by
  cases p <;> cases h <;> simp

theorem Phase.root_eq {p : Phase} (h : p.started = true) :
    p.root H b = some (if p.moved then publishedRoot H b else initialRoot (oldRoot b)) := by
  cases p <;> first | rfl | cases h

theorem verifyOld_initial (h : (initialRoot (oldRoot b)).validate = .ok ()) :
    verifyOld (initialRoot (oldRoot b)) b = .ok () := by
  rw [verifyOld, h]
  exact if_pos rfl

theorem verifyNew_published (h : (publishedRoot H b).validate = .ok ()) :
    verifyNew (publishedRoot H b) b (preparedHash H b) = .ok () := by
  rw [verifyNew, h]
  exact if_pos ⟨rfl, rfl, rfl⟩

variable (hv : bindingValidate H.profile b = .ok ())
include hv

theorem bindingDigest_of_valid : bindingDigest H b = .ok (H.binding b) := by
  rw [bindingDigest, hv]
  rfl

theorem validate_of_valid {r : DurableJournalRecord B}
    (hs : r.schemaVersion = recordSchemaVersion B) (hb : r.binding = b) (hr : r.valid = true) :
    r.validate H = .ok () := by
  rw [DurableJournalRecord.validate, if_neg (not_not.mpr hs), hb, hv, hr]
  rfl

theorem validate_prepared : (DurableJournalRecord.prepared b).validate H = .ok () := validate_of_valid hv rfl rfl rfl

theorem validate_committed : (committedRecord H b).validate H = .ok () := validate_of_valid hv rfl rfl rfl

theorem validate_aborted (reason : AbortReason) :
    (abortedRecord H b reason).validate H = .ok () := validate_of_valid hv rfl rfl rfl

theorem Phase.journal_spec {p : Phase}
    {j : DurableJournalRecord B} (hj : p.journal H b = some j) : j.validate H = .ok () ∧
      j.binding = b ∧ preparedDigest j (H.content .journalRecord j) = .ok (preparedHash H b) := by
  rcases Phase.journal_cases hj with ⟨-, rfl⟩ | ⟨-, rfl⟩ | ⟨reason, -, rfl⟩
  · exact ⟨validate_prepared hv, rfl, rfl⟩
  · exact ⟨validate_committed hv, rfl, rfl⟩
  · exact ⟨validate_aborted hv reason, rfl, rfl⟩

theorem validate_publishedRoot (hz : preparedHash H b ≠ .zero) : (publishedRoot H b).validate = .ok () := by
  obtain ⟨-, hnew, htx, -, -⟩ := validated H.profile b hv
  have ht : (publishedRoot H b).isTransactional = true := by
    simp only [RootPublicationReceipt.isTransactional, publishedRoot, RootPublicationReceipt.published]
    simp [htx, hz]
  have hs : (publishedRoot H b).schemaVersion = durableReceiptSchemaVersion := rfl
  rw [RootPublicationReceipt.validate, if_neg (not_not.mpr hs), if_neg]
  rintro (h | h)
  · exact hnew h
  · rw [ht] at h
    cases h

theorem validateAgainst_ok {c : ContinuationCartridgeRecord B} (h : c.validateAgainst H b = .ok ()) :
    c.preparedRecordDigest ≠ .zero := by
  rw [ContinuationCartridgeRecord.validateAgainst, bindingDigest_of_valid hv] at h
  split_ifs at h with hs
  change (if _ then _ else _) = _ at h
  split_ifs at h with hbad
  simp only [not_or, not_not] at hbad
  exact hbad.2.2.2.2.2.2

theorem validateAgainst_cartridgeFor
    (hz : preparedHash H b ≠ .zero) : (cartridgeFor H b).validateAgainst H b = .ok () := by
  have hs : (cartridgeFor H b).schemaVersion = durableReceiptSchemaVersion := rfl
  rw [ContinuationCartridgeRecord.validateAgainst, if_neg (not_not.mpr hs), bindingDigest_of_valid hv]
  exact if_neg (by simpa [cartridgeFor] using hz)

end Records

variable {B : Type} [JournalBindingLike B] {H : Hashes B} {b : B}
variable {R : Transaction H b → Transaction H b → Prop}
variable {C : FileChoice → FileOp Artefact (Content B) → JournalFiles B → Prop}
variable {fault contended : Prop} {α : Type} {x y : Transaction H b}
variable {Q : Except (Failure JournalError) α → Transaction H b → Prop}
variable {P : Transaction H b → Prop}

def Closes (P : Transaction H b → Prop) : Except (Failure JournalError) RecoveryReceipt → Transaction H b → Prop
  | .ok receipt, y => y.receipt = some receipt
  | .error _, y => P y

theorem Closes.mono {r : Except (Failure JournalError) RecoveryReceipt} (h : Closes P r x)
    (hxy : x.Grows y) (hP : P x → P y) : Closes P r y := by
  cases r with
  | ok receipt => exact hxy.receipt receipt h
  | error e => exact hP h

theorem Transaction.isTerminal_of_receipt {r : RecoveryReceipt} (hr : x.receipt = some r)
    (hs : x.phase.started = true) : x.phase.isTerminal = true := by
  by_contra ht
  rw [Transaction.receipt_eq_none_of_started hs (Bool.not_eq_true _ ▸ ht)] at hr
  cases hr

theorem phase_of_exact_root {r : RootPublicationReceipt} (h : exact b (.replace .rootRecord r) x.files = true) :
    x.phase = .prepared ∨ x.phase = .published := by
  have hany : (slot (x.phase.journal H b)).any (·.state = .prepared) = true := h
  cases hp : x.phase with
  | prepared => exact .inl rfl
  | published => exact .inr rfl
  | _ =>
    rw [hp] at hany
    cases hany

theorem phase_of_exact_aborted (hv : bindingValidate H.profile b = .ok ())
    (hs : x.phase.started = true) {reason : AbortReason}
    (h : exact b (.replace .journalRecord (abortedRecord H b reason)) x.files = true) :
    x.phase = .bound ∨ x.phase = .prepared := by
  have hboth : ((slot (x.phase.journal H b)).all (·.state = .prepared) &&
      (slot (x.phase.root H b)).any (·.rootDigest = oldRoot b)) = true := h
  obtain ⟨hall, hany⟩ := Bool.and_eq_true_iff.mp hboth
  cases hp : x.phase with
  | bound => exact .inl rfl
  | prepared => exact .inr rfl
  | published =>
    rw [hp] at hany
    exact absurd (of_decide_eq_true hany).symm (validated H.profile b hv).2.2.2.2
  | committed | aborted reason =>
    rw [hp] at hall
    cases hall
  | _ =>
    rw [hp] at hs
    cases hs

theorem receipt_of_exact {r : RecoveryReceipt}
    (h : exact b (.replace .recoveryReceipt r) x.files = true) : x.receipt = none := by
  have habsent : slot x.receipt = .absent := of_decide_eq_true h
  cases hr : x.receipt with
  | none => rfl
  | some r =>
    rw [hr] at habsent
    cases habsent

variable (A : Around R C fault contended) (hv : bindingValidate H.profile b = .ok ())
include A hv

section Reads
variable (hfault : fault → ∀ e y, Q (.error (.err e)) y)
include hfault

theorem follows_ownerDeathDigest {f : Option Sha256Digest → JournalM B α}
    (h : ∀ y, R x y → ∀ owner, Follows R C Q (f owner) y) : Follows R C Q (ownerDeathDigest H b >>= f) x := by
  unfold ownerDeathDigest
  rw [bind_assoc]
  refine follows_readOptional A hfault (by decide) fun y hy => ?_
  cases hd : y.ownerDeath with
  | none =>
    simp only [Transaction.stored, hd]
    exact h y hy none
  | some d =>
    obtain ⟨hok, hdigest, howner⟩ := y.ownerDeath_fits d hd
    simp only [Transaction.stored, hd, Option.map_some, hok, bindingDigest_of_valid hv,
      Fallible.ofExcept_ok, pure_bind, hdigest, howner]
    rw [if_neg (by simp)]
    exact h y hy _

omit hv in
theorem follows_existingRecovery {expected : Option B}
    (hexpected : ∀ b', expected = some b' → b' = b ∧ bindingValidate H.profile b = .ok ())
    {f : Option RecoveryReceipt → JournalM B α} (h : ∀ y, R x y → Follows R C Q (f y.receipt) y) :
    Follows R C Q (existingRecovery H expected >>= f) x := by
  unfold existingRecovery
  rw [bind_assoc]
  refine follows_readOptional A hfault (by decide) fun y hy => ?_
  have hnext := h y hy
  cases hr : y.receipt with
  | none =>
    rw [hr] at hnext
    simp only [Transaction.stored, hr]
    exact hnext
  | some r =>
    obtain ⟨hok, hdigest, -⟩ := y.receipt_fits r hr
    rw [hr] at hnext
    cases expected with
    | none => simpa only [Transaction.stored, hr, Option.map_some, hok, Fallible.ofExcept_ok, pure_bind] using hnext
    | some b' =>
      obtain ⟨rfl, hv⟩ := hexpected b' rfl
      simp only [Transaction.stored, hr, Option.map_some, hok, bindingDigest_of_valid hv,
        Fallible.ofExcept_ok, pure_bind, hdigest]
      rw [if_neg (by simp)]
      exact hnext

omit hv in
theorem follows_publishTerminal {record : DurableJournalRecord B} {write : JournalWrite} {p : Phase}
    (hrecord : record.validate H = .ok ()) {f : Sha256Digest → JournalM B α}
    (hnew : ∀ y, R x y → (contended → exact b (.replace .journalRecord record) y.files = true) →
      ∃ z : Transaction H b, y.files.publish .journalRecord record = z.files ∧ y.Grows z ∧ z.phase = p)
    (h : ∀ z, x.Grows z → z.phase = p → Follows R C Q (f (H.content .journalRecord record)) z) :
    Follows R C Q (publishTerminal H record write >>= f) x := by
  unfold publishTerminal
  simp only [hrecord, digest_of_valid hrecord, Fallible.ofExcept_ok, pure_bind, bind_assoc]
  refine follows_durableReplace A hfault fun y hy hexact => ?_
  obtain ⟨z, hz, hyz, hp⟩ := hnew y hy hexact
  exact ⟨z, hz, hyz, h z ((A.grows x y hy).trans hyz) hp⟩

theorem follows_publishCommitted (hm : x.phase.moved = true) {f : Sha256Digest → JournalM B α}
    (h : ∀ z, x.Grows z → z.phase = .committed →
      Follows R C Q (f (H.content .journalRecord (committedRecord H b))) z) :
    Follows R C Q (publishTerminal H (committedRecord H b) .commit >>= f) x := by
  refine follows_publishTerminal A hfault (validate_committed hv) (fun y hy _ => ?_) h
  exact Transaction.publish_committed hv ((A.grows x y hy).phase.moved hm)

theorem follows_publishAborted (hs : x.phase.started = true)
    (halone : ¬ contended → x.phase = .bound ∨ x.phase = .prepared) {reason : AbortReason}
    {f : Sha256Digest → JournalM B α} (h : ∀ z, x.Grows z → z.phase = .aborted reason →
      Follows R C Q (f (H.content .journalRecord (abortedRecord H b reason))) z) :
    Follows R C Q (publishTerminal H (abortedRecord H b reason) .abort >>= f) x := by
  refine follows_publishTerminal A hfault (validate_aborted hv reason) (fun y hy hexact => ?_) h
  refine Transaction.publish_aborted hv ?_ reason
  by_cases hcont : contended
  · exact phase_of_exact_aborted hv ((A.grows x y hy).phase.started hs) (hexact hcont)
  · rw [← A.alone hcont x y hy]
    exact halone hcont

end Reads

section Closing
variable [DecidableEq B] (hfault : fault → ∀ e y, Closes P (.error (.err e)) y)
include hfault

theorem follows_closeRecovery {prepared root : Sha256Digest}
    {terminal owner : Option Sha256Digest} {outcome : RecoveryOutcome} (hroot : root ≠ .zero)
    (hfit : ∀ y, R x y → outcome.fits y.phase = true)
    (hP : contended ∨ H.binding b = .zero → ∀ y, x.Grows y → P y) :
    Follows R C (Closes P) (closeRecovery H b prepared terminal root outcome owner) x := by
  unfold closeRecovery makeRecovery
  rw [bindingDigest_of_valid hv]
  refine follows_readOptional A hfault (by decide) fun y hy => ?_
  cases hr : y.receipt with
  | some r =>
    obtain ⟨hok, hdigest, -⟩ := y.receipt_fits r hr
    simp only [Transaction.stored, hr, Option.map_some, hok, hdigest]
    exact hr
  | none =>
    simp only [Transaction.stored, hr]
    refine .ofExcept_bind (fun _ hok => ?_) fun e he => ?_
    · refine follows_writeOnce A hfault (fun z hz hsame => hsame) (fun z hz r hother hne e => ?_) fun z hz hnone => ?_
      · -- another receipt has appeared since the last look, so somebody else is about
        refine hP (.inl ?_) z (A.grows x z (A.trans x y z hy hz))
        by_contra halone
        rw [← A.alone halone y z hz] at hother
        cases hr.symm.trans hother
      · refine follows_durableReplace A hfault fun u hu hexact => ?_
        have hxu := A.trans x z u (A.trans x y z hy hz) hu
        have hnone' : u.receipt = none := by
          by_cases hcont : contended
          · exact receipt_of_exact (hexact hcont)
          · rw [← A.alone hcont z u hu]
            exact hnone
        obtain ⟨t, ht, hg, hreceipt⟩ := Transaction.publish_receipt hnone' ⟨hok, rfl, hfit u hxu⟩
        exact ⟨t, ht, hg, hreceipt⟩
    · refine hP (.inr ?_) y (A.grows x y hy)
      by_contra hzero
      unfold RecoveryReceipt.validate at he
      rw [if_neg (by simp [hroot, hzero])] at he
      cases he

theorem follows_closeTerminal {prepared root : Sha256Digest}
    {terminal owner : Option Sha256Digest} {outcome : RecoveryOutcome} (hroot : root ≠ .zero) {p : Phase}
    (hp : x.phase = p) (ht : p.isTerminal = true) (hfit : outcome.fits p = true)
    (hP : contended ∨ H.binding b = .zero → ∀ y, y.phase = p → P y) :
    Follows R C (Closes P) (closeRecovery H b prepared terminal root outcome owner) x := by
  have hsame : ∀ y, x.Grows y → y.phase = p := fun y hy => (hy.phase.of_terminal (hp ▸ ht)).trans hp
  refine follows_closeRecovery A hv hfault hroot (fun y hy => ?_) fun h y hy => hP h y (hsame y hy)
  rw [hsame y (A.grows x y hy)]
  exact hfit

theorem follows_closeOwned {prepared root : Sha256Digest}
    {terminal : Option Sha256Digest} {outcome : RecoveryOutcome} (hroot : root ≠ .zero) {p : Phase}
    (hp : x.phase = p) (ht : p.isTerminal = true) (hfit : outcome.fits p = true)
    (hended : ∀ y, y.phase.isTerminal = true → P y) :
    Follows R C (Closes P) (ownerDeathDigest H b >>= closeRecovery H b prepared terminal root outcome) x := by
  refine follows_ownerDeathDigest A hv hfault fun y hy owner => ?_
  have hphase : y.phase = p := ((A.grows x y hy).phase.of_terminal (hp ▸ ht)).trans hp
  exact follows_closeTerminal A hv hfault hroot hphase ht hfit fun _ z hz => hended z (hz ▸ ht)

end Closing

end Zero.DurableJournal
