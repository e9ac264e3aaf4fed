import ZeroStack.Program.Session
import ZeroStack.DurableJournal.Calls

/-! Whole histories of one binding: calls in any order, each of which may fail at any read or
write or be stopped after any of its steps. -/

namespace Zero.DurableJournal
open Durable Zero.Store JournalBindingLike

inductive JournalCall (B : Type) where
  | initializePublishedRoot (root : Sha256Digest)
  | prepare (binding : B)
  | commit (cartridge : ContinuationCartridgeRecord B)
  | abort (cartridge : ContinuationCartridgeRecord B)
  | recordOwnerDeath (owner : Sha256Digest) (observedAtUnixNs : ℕ)
  | recover (expected : B)
  deriving DecidableEq

inductive JournalReply (B : Type) where
  | root (r : RootPublicationReceipt)
  | cartridge (c : ContinuationCartridgeRecord B)
  | ownerDeath (d : OwnerDeathReceipt)
  | receipt (r : RecoveryReceipt)
  deriving DecidableEq

variable {B : Type} [DecidableEq B] [JournalBindingLike B]

def journalProgram (H : Hashes B) : JournalCall B → JournalM B (JournalReply B)
  | .initializePublishedRoot root => do return .root (← initializePublishedRoot H root)
  | .prepare binding => do return .cartridge (← prepareBoundJournal H binding)
  | .commit cartridge => do return .receipt (← commitBoundJournal H cartridge)
  | .abort cartridge => do return .receipt (← abortBoundJournal H cartridge)
  | .recordOwnerDeath owner observedAtUnixNs => do
    return .ownerDeath (← recordBoundOwnerDeath H owner observedAtUnixNs)
  | .recover expected => do return .receipt (← recoverBoundJournal H expected)

abbrev JournalResult (B : Type) := Except (Failure JournalError) (JournalReply B)

def journalSystem (H : Hashes B) : System (FileOp Artefact (Content B)) FileOp.Res Unit
    (JournalFiles B) (JournalCall B) (JournalResult B) where
  prog call _ := (journalProgram H call).run >>= fun r => pure ((), r)
  fresh := ()
  reboot := id

abbrev JournalInvocation (B : Type) := Invocation (JournalCall B) FileChoice

def emptyJournal : Config Unit (JournalFiles B) := ⟨(), Files.empty⟩

/-- The call is made for this binding: its root is initialised to one of the two roots, and nothing else is prepared
or recovered. -/
def JournalCall.Of (b : B) : JournalCall B → Prop
  | .initializePublishedRoot root => root = oldRoot b ∨ root = newRoot b
  | .prepare binding => binding = b
  | .recover expected => expected = b
  | .commit _ | .abort _ | .recordOwnerDeath _ _ => True

variable {H : Hashes B} {b : B} {x y : Transaction H b}
variable {C : FileChoice → FileOp Artefact (Content B) → JournalFiles B → Prop}

omit [DecidableEq B] in
theorem around_alone (fault : Prop) (hquiet : ¬ fault → ∀ c o s, C c o s → NoFault c o s) :
    Around (H := H) (b := b) Eq C fault False where
  trans := fun _ _ _ => Eq.trans
  grows := by
    rintro x _ rfl
    exact .refl x
  quiet := hquiet
  alone := fun _ _ _ h => h
  exact := False.elim

def Reports (r : JournalResult B) (y : Transaction H b) : Prop :=
  ∀ receipt, r = .ok (.receipt receipt) → y.receipt = some receipt

omit [DecidableEq B] in
theorem follows_other {α : Type} {p : JournalM B α} {f : α → JournalReply B}
    (hf : ∀ a receipt, f a ≠ .receipt receipt) (h : Follows Eq C (fun _ _ => True) p x) :
    Follows Eq C Reports (p >>= fun a => pure (f a)) x :=
  h.andThen (fun a _ _ receipt hr => absurd (Except.ok.inj hr) (hf a receipt))
    fun _ _ _ _ hr => by cases hr

omit [DecidableEq B] in
theorem follows_receipt {p : JournalM B RecoveryReceipt} {P : Transaction H b → Prop}
    (h : Follows Eq C (Closes P) p x) : Follows Eq C Reports (p >>= fun a => pure (JournalReply.receipt a)) x := by
  refine h.andThen (fun a z hz receipt hr => ?_) fun _ _ _ _ hr => by cases hr
  cases hr
  exact hz

theorem follows_journalProgram {call : JournalCall B} (hcall : call.Of b) :
    Follows Eq Machine.Free Reports (journalProgram H call) x := by
  have A : Around (H := H) (b := b) Eq Machine.Free True False :=
    around_alone True fun h => absurd trivial h
  cases call with
  | initializePublishedRoot root =>
    exact follows_other nofun (follows_initializePublishedRoot A hcall)
  | prepare binding =>
    cases hcall
    exact follows_other nofun (follows_prepareBoundJournal A)
  | commit cartridge =>
    exact follows_receipt (follows_commitBoundJournal A (fun _ _ _ => trivial) (fun _ _ => trivial) cartridge
      fun _ _ => trivial)
  | abort cartridge =>
    exact follows_receipt (follows_abortBoundJournal A cartridge)
  | recordOwnerDeath owner observedAt =>
    exact follows_other (fun _ _ h => by cases h) (follows_recordBoundOwnerDeath A owner observedAt)
  | recover expected =>
    cases hcall
    exact follows_receipt (follows_recoverBoundJournal A (fun _ _ _ => trivial) (fun _ => trivial) False.elim
      fun _ => trivial)

theorem safe_prog {call : JournalCall B} (hcall : call.Of b) (m : Unit) (x : Transaction H b) : disk.Safe Machine.Free
      (fun s t => ∃ y z : Transaction H b, s = y.files ∧ t = z.files ∧ x.Grows z ∧ y.Grows z)
      (fun out t => ∃ z, t = z.files ∧ x.Grows z ∧ Reports out.2 z) ((journalSystem H).prog call m) x.files := by
  have hfollows : Follows Eq Machine.Free Reports (journalProgram H call) x :=
    follows_journalProgram hcall
  exact (hfollows.safe (fun _ => rfl) Transaction.Grows.refl fun _ _ _ => Transaction.Grows.trans).bind fun _ _ h => h

theorem journal_invariant (H : Hashes B) (b : B) :
    System.Invariant (journalSystem H) disk (fun call _ => call.Of b) Machine.Free
      (fun s t => ∃ y z : Transaction H b, s = y.files ∧ t = z.files ∧ y.Grows z)
      (fun c => ∃ x : Transaction H b, c.disk = x.files) (fun s => ∃ x : Transaction H b, s = x.files) where
  call := by
    rintro call m s ⟨x, rfl⟩ hcall
    refine (safe_prog hcall m x).mono (fun _ _ _ h => h) ?_ ?_
    · rintro s t ⟨y, z, hs, ht, -, hg⟩
      exact ⟨y, z, hs, ht, hg⟩
    · rintro out t ⟨z, ht, -⟩
      exact ⟨z, ht⟩
  disk := fun _ _ h => h
  step := by
    rintro s t - ⟨y, z, -, ht, -⟩
    exact ⟨z, ht⟩
  reboot := fun _ h => h

structure Coherent (b : B) (t : JournalFiles B) : Prop where
  root : t .rootRecord = .absent ∨
    ∃ r, t .rootRecord = .record r ∧ (r.rootDigest = oldRoot b ∨ r.rootDigest = newRoot b)
  binding : ∀ j, t .journalRecord = .record j → j.binding = b
  committed : ∀ j, t .journalRecord = .record j → j.state = .committed →
    ∃ r, t .rootRecord = .record r ∧ r.rootDigest = newRoot b
  aborted : ∀ j, t .journalRecord = .record j → j.state = .aborted →
    ∃ r, t .rootRecord = .record r ∧ r.rootDigest = oldRoot b

omit [DecidableEq B] in
theorem Transaction.coherent (x : Transaction H b) : Coherent b x.files where
  root := by
    simp only [files, stored]
    cases x.phase with
    | blank => exact .inl rfl
    | elsewhere | published | committed => exact .inr ⟨_, rfl, .inr rfl⟩
    | _ => exact .inr ⟨_, rfl, .inl rfl⟩
  binding := by
    simp only [files, stored]
    intro j hj
    cases hp : x.phase <;> rw [hp] at hj <;> first | (cases hj; done) | (cases hj; rfl)
  committed := by
    simp only [files, stored]
    intro j hj hstate
    cases hp : x.phase with
    | committed => exact ⟨_, rfl, rfl⟩
    | _ =>
      rw [hp] at hj
      cases hj <;> cases hstate
  aborted := by
    simp only [files, stored]
    intro j hj hstate
    cases hp : x.phase with
    | aborted reason => exact ⟨_, rfl, rfl⟩
    | _ =>
      rw [hp] at hj
      cases hj <;> cases hstate

def EndsKept (s t : JournalFiles B) : Prop :=
  ∀ j, s .journalRecord = .record j → j.state ≠ .prepared → t .journalRecord = .record j

instance : Trans (EndsKept (B := B)) EndsKept EndsKept where
  trans h h' := fun j hj hstate => h' j (h j hj hstate) hstate

omit [DecidableEq B] in
theorem Transaction.Grows.endsKept (h : x.Grows y) : EndsKept x.files y.files := by
  intro j hj hstate
  have hterminal : x.phase.isTerminal = true := by
    simp only [files, stored] at hj
    cases hp : x.phase <;> rw [hp] at hj <;>
      first | rfl | (cases hj; done) | (cases hj; exact absurd rfl hstate)
  simp only [files, stored] at hj ⊢
  rw [h.phase.of_terminal hterminal]
  exact hj

/-- Over every history of one binding, each state on the way is coherent, and committed and
aborted records never occur in the same history. -/
theorem durable_journal_coherent (H : Hashes B) (b : B) (is : List (JournalInvocation B))
    (hone : ∀ i ∈ is, i.call.Of b) :
    (∀ t ∈ Files.empty :: (journalSystem H).history disk is emptyJournal, Coherent b t) ∧
    ∀ t ∈ (journalSystem H).history disk is emptyJournal, ∀ t' ∈ (journalSystem H).history disk is emptyJournal,
        ∀ j j', t .journalRecord = .record j → t' .journalRecord = .record j' →
          ¬ (j.state = .committed ∧ j'.state = .aborted) := by
  have hstart : ∃ x : Transaction H b, (emptyJournal (B := B)).disk = x.files :=
    ⟨.start, Transaction.files_start.symm⟩
  obtain ⟨hchain, hstates⟩ := (journal_invariant H b).history
    (fun s ⟨x, hx⟩ => ⟨x, x, hx, hx, .refl x⟩) is hstart (System.meets_of_forall hone)
  refine ⟨fun t ht => ?_, ?_⟩
  · obtain ⟨x, rfl⟩ := hstates t ht
    exact x.coherent
  · have hkept : ((journalSystem H).history disk is emptyJournal).Pairwise EndsKept := by
      refine (List.pairwise_cons.mp (List.isChain_iff_pairwise.mp (hchain.imp ?_))).2
      rintro s t ⟨y, z, rfl, rfl, hg⟩
      exact hg.endsKept
    rintro t ht t' ht' j j' hj hj' ⟨hc, ha⟩
    -- whichever comes first, the later one still holds its record
    have hboth : EndsKept t t' ∨ EndsKept t' t :=
      List.Pairwise.forall_of_forall_of_flip (R := fun s u => EndsKept s u ∨ EndsKept u s)
        (fun _ _ => .inl fun _ h _ => h) (hkept.imp Or.inl) (hkept.imp Or.inr) ht ht'
    have hsame : j = j' := by
      rcases hboth with h | h
      · exact Slot.record.inj ((h j hj (by rw [hc]; decide)).symm.trans hj')
      · exact Slot.record.inj (hj.symm.trans (h j' hj' (by rw [ha]; decide)))
    rw [hsame, ha] at hc
    cases hc

def sampleHashes : Hashes JournalBinding where
  profile := fun _ => 1
  binding := fun _ => 2
  content
    | .journalRecord, r => BitVec.ofNat 256 (r.sequence + 10)
    | _, _ => 3

def sampleBinding : JournalBinding :=
  .new sampleHashes.profile 4 5 .portableStrict 6 7 8

def quietly (call : JournalCall JournalBinding) : JournalInvocation JournalBinding :=
  ⟨call, fun _ => quiet, none⟩

def sampleCommit : List (JournalInvocation JournalBinding) :=
  [quietly (.initializePublishedRoot 6), quietly (.prepare sampleBinding),
    quietly (.commit (cartridgeFor sampleHashes sampleBinding)), quietly (.recover sampleBinding)]

theorem sampleCommit_coherent :
    (∃ j, ((journalSystem sampleHashes).play disk sampleCommit emptyJournal).disk .journalRecord =
      .record j ∧ j.state = .committed) ∧ ∀ t ∈ (journalSystem sampleHashes).history disk sampleCommit emptyJournal,
      Coherent sampleBinding t := by
  have hone : ∀ i ∈ sampleCommit, i.call.Of sampleBinding := by
    simp [sampleCommit, quietly, JournalCall.Of, oldRoot, newRoot, sampleBinding, JournalBinding.new]
  exact ⟨⟨_, rfl, rfl⟩, fun t ht =>
    (durable_journal_coherent sampleHashes sampleBinding sampleCommit hone).1 t
      (List.mem_cons_of_mem _ ht)⟩

end Zero.DurableJournal
