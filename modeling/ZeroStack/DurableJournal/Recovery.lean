import ZeroStack.DurableJournal.History

/-! Recovery after any history of one binding: it completes, it agrees with every receipt that
was ever returned, and a second one only reads. -/

namespace Zero.DurableJournal
open Durable Zero.Store JournalBindingLike

variable {B : Type} [JournalBindingLike B] {H : Hashes B} {b : B} {x y : Transaction H b}

def RecoveryOutcome.root (b : B) : RecoveryOutcome → Sha256Digest
  | .newRootCommitted | .alreadyCommitted => newRoot b
  | .notStartedOldRoot | .oldRootAborted | .alreadyAborted => oldRoot b

def RecoveryOutcome.isCommitted : RecoveryOutcome → Bool
  | .newRootCommitted | .alreadyCommitted => true
  | _ => false

def RootIs (t : JournalFiles B) (root : Sha256Digest) : Prop :=
  ∃ r, t .rootRecord = .record r ∧ r.rootDigest = root

theorem rootIs_of_fits {o : RecoveryOutcome} (h : o.fits x.phase = true) : RootIs x.files (o.root b) := by
  simp only [RootIs, Transaction.files, Transaction.stored]
  generalize x.phase = p at h
  cases o <;> cases p <;> first | (cases h; done) | exact ⟨_, rfl, rfl⟩

variable {r : RecoveryReceipt}

theorem isCommitted_iff_rootIs (hr : x.receipt = some r)
    (hne : oldRoot b ≠ newRoot b) : r.outcome.isCommitted = true ↔ RootIs x.files (newRoot b) := by
  have hroot := rootIs_of_fits (x.receipt_fits r hr).2.2
  constructor
  · intro hc
    cases ho : r.outcome <;> rw [ho] at hc hroot <;> first | (cases hc; done) | exact hroot
  · rintro ⟨root, hrecord, hnew⟩
    obtain ⟨root', hrecord', hout⟩ := hroot
    obtain rfl : root = root' := Slot.record.inj (hrecord.symm.trans hrecord')
    cases ho : r.outcome <;> rw [ho] at hout <;>
      first | rfl | exact absurd (hout.symm.trans hnew) hne

variable [DecidableEq B]

variable {c : Config Unit (JournalFiles B)}

theorem invoke_grows {i : JournalInvocation B} (hi : i.call.Of b) (hc : c.disk = x.files) :
    ∃ y : Transaction H b, ((journalSystem H).invoke disk i c).disk = y.files ∧ x.Grows y ∧
      ∀ out, (journalSystem H).reply disk i c = some out → Reports out y := by
  have hsafe : disk.Safe Machine.Free (fun _ t => ∃ z : Transaction H b, t = z.files ∧ x.Grows z)
      (fun out t => (∃ z : Transaction H b, t = z.files ∧ x.Grows z) ∧
        ∃ z : Transaction H b, t = z.files ∧ x.Grows z ∧ Reports out.2 z)
      ((journalSystem H).prog i.call c.memory) c.disk := by
    rw [hc]
    refine (safe_prog hi c.memory x).mono (fun _ _ _ h => h) ?_ ?_
    · rintro _ t ⟨y, z, -, ht, hg, -⟩
      exact ⟨z, ht, hg⟩
    · rintro out t ⟨z, ht, hg, hr⟩
      exact ⟨⟨z, ht, hg⟩, z, ht, hg, hr⟩
  have hstart : ∃ z : Transaction H b, c.disk = z.files ∧ x.Grows z := ⟨x, hc, .refl x⟩
  obtain ⟨hgrown, hreply⟩ := System.invoke_of_safe (S := journalSystem H) (Q := fun out t =>
    ∃ z : Transaction H b, t = z.files ∧ x.Grows z ∧ Reports out z) (fun _ h => h) hstart hsafe
    (disk.along_free _ _ _)
  cases hr : (journalSystem H).reply disk i c with
  | none =>
    obtain ⟨y, hy, hg⟩ := hgrown
    exact ⟨y, hy, hg, nofun⟩
  | some out =>
    obtain ⟨y, hy, hg, hreports⟩ := hreply out hr
    refine ⟨y, hy, hg, fun out' hout => ?_⟩
    cases hout
    exact hreports

theorem play_grows (is : List (JournalInvocation B)) (hone : ∀ i ∈ is, i.call.Of b) (hc : c.disk = x.files) :
    ∃ y : Transaction H b, ((journalSystem H).play disk is c).disk = y.files ∧ x.Grows y ∧
      ∀ out ∈ (journalSystem H).replies disk is c, Reports out.2 y := by
  induction is generalizing c x with
  | nil => exact ⟨x, hc, .refl x, fun _ h => by cases h⟩
  | cons i is ih =>
    obtain ⟨y, hy, hxy, hreply⟩ := invoke_grows (hone i List.mem_cons_self) hc
    obtain ⟨z, hz, hyz, hrest⟩ := ih (fun j hj => hone j (List.mem_cons_of_mem i hj)) hy
    refine ⟨z, hz, hxy.trans hyz, fun out hout receipt hr => ?_⟩
    rcases List.mem_append.mp hout with hout | hout
    · obtain ⟨reply, hmem, rfl⟩ := List.mem_map.mp hout
      exact hyz.receipt receipt (hreply reply (Option.mem_toList.mp hmem) receipt hr)
    · exact hrest out hout receipt hr

theorem recover_returns (hs : x.phase.started = true) (hprepared : preparedHash H b ≠ .zero)
    (hbinding : H.binding b ≠ .zero) (hc : c.disk = x.files) {env : ℕ → FileChoice} (henv : FaultFree env) :
    ∃ (receipt : RecoveryReceipt) (y : Transaction H b),
      (journalSystem H).reply disk ⟨.recover b, env, none⟩ c = some (.ok (.receipt receipt)) ∧
      ((journalSystem H).invoke disk ⟨.recover b, env, none⟩ c).disk = y.files ∧ x.Grows y ∧
      y.receipt = some receipt := by
  have hfollows : Follows Eq NoFault (Closes fun _ => False) (recoverBoundJournal H b) x := by
    refine follows_recoverBoundJournal (around_alone False fun _ _ _ _ h => h) False.elim
      (Or.rec False.elim hbinding) False.elim ?_
    rintro (h | h)
    · rw [hs] at h
      cases h
    · exact hprepared h
  have hprogram : disk.Safe NoFault (fun _ _ => True) (fun out t => ∃ (receipt : RecoveryReceipt)
      (y : Transaction H b), out.2 = .ok (.receipt receipt) ∧ t = y.files ∧ x.Grows y ∧
        y.receipt = some receipt) ((journalSystem H).prog (.recover b) c.memory) c.disk := by
    rw [hc]
    have hsafe := (hfollows.safe (fun _ => rfl) Transaction.Grows.refl fun _ _ _ => Transaction.Grows.trans).mono
      (fun _ _ _ h => h) (fun _ _ _ => trivial) fun _ _ h => h
    refine Machine.Safe.bind (hsafe.andThen ?_ ?_) fun _ _ h => h
    · rintro receipt _ ⟨z, rfl, hg, hr⟩
      exact ⟨receipt, z, rfl, rfl, hg, hr⟩
    · rintro e t ⟨z, -, -, hfalse⟩
      exact hfalse.elim
  obtain ⟨receipt, y, hout, hy, hg, hr⟩ :=
    hprogram.run (disk.along_of_forall (fun i _ _ => henv i) _ _)
  exact ⟨receipt, y, congrArg some hout, hy, hg, hr⟩

section
variable (hv : bindingValidate H.profile b = .ok ())
include hv

omit [DecidableEq B] in
theorem reads_existingRecovery (hr : x.receipt = some r) : Reads (existingRecovery H (some b)) x.files (.ok (some r))
      (fun e : JournalError => e.code = .ioBeforePublish) := by
  have hslot : x.files .recoveryReceipt = .record r := by
    rw [Transaction.files, Transaction.stored, hr]
    rfl
  obtain ⟨hok, hdigest, -⟩ := x.receipt_fits r hr
  intro C G Q hG hQ hbad
  unfold existingRecovery readOptional
  rw [bind_assoc]
  refine safe_load_bind hG fun c hc => ?_
  have hF : c.load ≠ .none → Faulty C x.files := fun hne => ⟨_, c, hc, hne⟩
  cases hload : c.load with
  | stat why | read why => exact hbad (hF (by rw [hload]; simp)) _ rfl
  | none =>
    rw [hslot]
    simp only [LoadFault.apply, decode, optional, Fallible.ofExcept_ok, pure_bind, hok,
      bindingDigest_of_valid hv, hdigest]
    rw [if_neg (by simp)]
    exact hQ

omit [DecidableEq B] in
theorem reads_recoverBoundJournal (hr : x.receipt = some r) : Reads (recoverBoundJournal H b) x.files (.ok r)
      (fun e : JournalError => e.code = .ioBeforePublish) := by
  unfold recoverBoundJournal
  rw [hv, Fallible.ofExcept_ok, pure_bind]
  exact (reads_existingRecovery hv hr).bind (Reads.ofPure r)

theorem recover_again (hr : x.receipt = some r) (hc : c.disk = x.files) (env : ℕ → FileChoice) :
    (∀ stop, ∀ t ∈ (journalSystem H).visited disk ⟨.recover b, env, stop⟩ c, t = c.disk) ∧
    (FaultFree env → (journalSystem H).reply disk ⟨.recover b, env, none⟩ c = some (.ok (.receipt r))) := by
  have hreads : Reads (journalProgram H (.recover b)) c.disk (.ok (.receipt r))
      (fun e => e.code = .ioBeforePublish) := by
    rw [hc]
    exact (reads_recoverBoundJournal hv hr).bind (Reads.ofPure _)
  constructor
  · intro stop
    refine System.visited_eq_of_states rfl ?_
    change ∀ t ∈ disk.states ((journalProgram H (.recover b)).run >>= fun r => pure ((), r)) env c.disk, t = c.disk
    rw [Machine.states_bind]
    simpa [Machine.states, Program.pure_eq_ret] using hreads.states_eq env
  · intro henv
    change some (disk.run ((journalProgram H (.recover b)).run >>= fun r => pure ((), r)) env c.disk).1.2 = _
    rw [Machine.run_bind, hreads.run_eq henv]
    rfl

end

/-- After every history all receipts returned in it report the root published at its end. If the cartridge was
written, a recovery without faults says committed exactly when the new root is published, and every later recovery,
whatever comes in between, writes nothing and returns that receipt. -/
theorem durable_journal_recovers (H : Hashes B) (b : B) (hprepared : preparedHash H b ≠ .zero)
    (hbinding : H.binding b ≠ .zero) (is : List (JournalInvocation B)) (hone : ∀ i ∈ is, i.call.Of b) :
    let final := (journalSystem H).play disk is emptyJournal
    (∀ out ∈ (journalSystem H).replies disk is emptyJournal, ∀ receipt,
      out.2 = .ok (.receipt receipt) → receipt.bindingDigest = H.binding b ∧
        RootIs final.disk (receipt.outcome.root b)) ∧
    ((∃ v, final.disk .cartridge = .record v) → ∀ env, FaultFree env → ∃ receipt,
      (journalSystem H).reply disk ⟨.recover b, env, none⟩ final = some (.ok (.receipt receipt)) ∧
      let recovered := (journalSystem H).invoke disk ⟨.recover b, env, none⟩ final
      (receipt.outcome.isCommitted = true ↔ RootIs recovered.disk (newRoot b)) ∧
      ∀ js : List (JournalInvocation B), (∀ j ∈ js, j.call.Of b) → ∀ env',
        let later := (journalSystem H).play disk js recovered
        (∀ stop, ∀ t ∈ (journalSystem H).visited disk ⟨.recover b, env', stop⟩ later, t = later.disk) ∧
        (FaultFree env' → (journalSystem H).reply disk ⟨.recover b, env', none⟩ later =
          some (.ok (.receipt receipt)))) := by
  obtain ⟨x, hx, -, hreplies⟩ := play_grows (x := Transaction.start (H := H) (b := b)) is hone
    (c := emptyJournal) Transaction.files_start.symm
  refine ⟨fun out hout receipt hr => ?_, ?_⟩
  · have hstored := hreplies out hout receipt hr
    rw [hx]
    obtain ⟨-, hdigest, hfits⟩ := x.receipt_fits receipt hstored
    exact ⟨hdigest, rootIs_of_fits hfits⟩
  · rintro ⟨v, hv⟩ env henv
    have hs : x.phase.started = true := by
      rw [hx] at hv
      by_contra hnot
      rw [Transaction.files, Transaction.stored, Phase.cartridge, if_neg hnot] at hv
      cases hv
    have hvalid := x.valid hs
    obtain ⟨receipt, y, hreply, hy, hxy, hstored⟩ :=
      recover_returns hs hprepared hbinding hx henv
    refine ⟨receipt, hreply, ?_, fun js hjs env' => ?_⟩
    · rw [hy]
      exact isCommitted_iff_rootIs hstored (validated H.profile b hvalid).2.2.2.2
    · obtain ⟨z, hz, hyz, -⟩ := play_grows js hjs hy
      exact recover_again hvalid (hyz.receipt receipt hstored) hz env'

/-- A commit that dies right after its journal write leaves its recovery to find the
transaction already committed. -/
theorem recovered_alreadyCommitted :
    let final := (journalSystem sampleHashes).play disk
      [quietly (.initializePublishedRoot 6), quietly (.prepare sampleBinding),
        ⟨.commit (cartridgeFor sampleHashes sampleBinding), fun _ => quiet, some 5⟩] emptyJournal
    RootIs final.disk (newRoot sampleBinding) ∧ ∃ receipt,
      (journalSystem sampleHashes).reply disk (quietly (.recover sampleBinding)) final =
        some (.ok (.receipt receipt)) ∧ receipt.outcome ≠ .newRootCommitted :=
  ⟨⟨_, rfl, rfl⟩, _, rfl, by decide⟩

theorem recovered_after_crash :
    let final := (journalSystem sampleHashes).play disk
      [quietly (.initializePublishedRoot 6), quietly (.prepare sampleBinding),
        ⟨.commit (cartridgeFor sampleHashes sampleBinding), fun _ => quiet, some 5⟩] emptyJournal
    ∃ receipt, (journalSystem sampleHashes).reply disk (quietly (.recover sampleBinding)) final =
      some (.ok (.receipt receipt)) ∧ receipt.outcome = .alreadyCommitted := by
  intro final
  have hone : ∀ i ∈ [quietly (.initializePublishedRoot 6), quietly (.prepare sampleBinding),
      ⟨.commit (cartridgeFor sampleHashes sampleBinding), fun _ => quiet, some 5⟩], i.call.Of sampleBinding := by
    simp [quietly, JournalCall.Of, oldRoot, newRoot, sampleBinding, JournalBinding.new]
  obtain ⟨receipt, hreply, -⟩ := (durable_journal_recovers sampleHashes sampleBinding (by decide)
    (by decide) _ hone).2 ⟨_, rfl⟩ (fun _ => quiet) faultFree_quiet
  refine ⟨receipt, hreply, ?_⟩
  have hrun : (journalSystem sampleHashes).reply disk (quietly (.recover sampleBinding)) final =
      some (.ok (.receipt _)) := rfl
  cases hreply.symm.trans hrun
  rfl

end Zero.DurableJournal
