import ZeroStack.DurableJournal.Recovery

/-! One process commits a transaction while another one aborts or recovers it. Each file read
and each replacement is one step, and nothing but the files is shared. -/

namespace Zero.DurableJournal
open Durable Zero.Store JournalBindingLike

inductive Rival where
  | abort
  | recover
  deriving DecidableEq

variable {B : Type} [DecidableEq B] [JournalBindingLike B]

def rivalProgram (H : Hashes B) (b : B) : Rival → JournalM B RecoveryReceipt
  | .abort => abortBoundJournal H (cartridgeFor H b)
  | .recover => recoverBoundJournal H b

abbrev JournalRace (B : Type) := Race (FileOp Artefact (Content B)) FileOp.Res (JournalFiles B)
  (Except (Failure JournalError) RecoveryReceipt) (Except (Failure JournalError) RecoveryReceipt)

def commitRace (H : Hashes B) (b : B) (rival : Rival) (s : JournalFiles B) : JournalRace B :=
  ⟨(commitBoundJournal H (cartridgeFor H b)).run, (rivalProgram H b rival).run, s⟩

structure RaceSafe (b : B) (c : JournalRace B) : Prop where
  corresponds : ∃ j r, c.state .journalRecord = .record j ∧ c.state .rootRecord = .record r ∧
    (j.state = .committed ∧ r.rootDigest = newRoot b ∨ j.state = .aborted ∧ r.rootDigest = oldRoot b)
  agree : ∀ r r', c.left.result? = some (.ok r) → c.right.result? = some (.ok r') → r.outcome = r'.outcome

def ExactStep (b : B) (who : Side) (c : JournalRace B) : Prop :=
  ∀ o ∈ c.next? who, exact b o c.state = true

instance (b : B) (who : Side) (c : JournalRace B) : Decidable (ExactStep b who c) :=
  inferInstanceAs (Decidable (∀ o ∈ c.next? who, exact b o c.state = true))

variable {H : Hashes B} {b : B} {x y : Transaction H b}

omit [DecidableEq B] in
theorem around_race : Around (H := H) (b := b) Transaction.Grows
    (fun c o s => NoFault c o s ∧ exact b o s = true) False True where
  trans := fun _ _ _ => .trans
  grows := fun _ _ h => h
  quiet := fun _ _ _ _ h => h.1
  alone := fun h => absurd trivial h
  exact := fun _ _ _ _ h => h.2

theorem follows_commit_race (hprepared : preparedHash H b ≠ .zero) (hx : x.phase.journaled = true) :
    Follows Transaction.Grows (fun c o s => NoFault c o s ∧ exact b o s = true)
      (Closes fun y => y.phase.isTerminal = true) (commitBoundJournal H (cartridgeFor H b)) x := by
  refine follows_commitBoundJournal around_race False.elim (fun _ h => h) _ fun h => ?_
  have hv := x.valid (Phase.started_of_journaled hx)
  exact absurd ⟨hx, validateAgainst_cartridgeFor hv hprepared, rfl⟩ h

theorem follows_rival_race (hx : x.phase.journaled = true) (rival : Rival) :
    Follows Transaction.Grows (fun c o s => NoFault c o s ∧ exact b o s = true)
      (Closes fun _ => True) (rivalProgram H b rival) x := by
  cases rival with
  | abort => exact follows_abortBoundJournal around_race _
  | recover =>
    exact follows_recoverBoundJournal around_race (fun _ _ _ => trivial) (fun _ => trivial)
      (fun _ => Phase.started_of_journaled hx) fun _ => trivial

omit [DecidableEq B] in
theorem Transaction.corresponds (h : x.phase.isTerminal = true) :
    ∃ j r, x.files .journalRecord = .record j ∧ x.files .rootRecord = .record r ∧
      (j.state = .committed ∧ r.rootDigest = newRoot b ∨ j.state = .aborted ∧ r.rootDigest = oldRoot b) := by
  simp only [files, stored]
  cases hp : x.phase with
  | committed => exact ⟨_, _, rfl, rfl, .inl ⟨rfl, rfl⟩⟩
  | aborted reason => exact ⟨_, _, rfl, rfl, .inr ⟨rfl, rfl⟩⟩
  | _ =>
    rw [hp] at h
    cases h

/-- From every state that a history leaves with a journal record, a race in which every replacement is exact ends with
a journal that corresponds to its root and at most one outcome reported. -/
theorem commit_race_safe (H : Hashes B) (b : B) (hprepared : preparedHash H b ≠ .zero)
    (is : List (JournalInvocation B)) (hone : ∀ i ∈ is, i.call.Of b)
    (hjournal : ∃ j, ((journalSystem H).play disk is emptyJournal).disk .journalRecord = .record j)
    (rival : Rival) (sched : List Side)
    (hfin : ((commitRace H b rival ((journalSystem H).play disk is emptyJournal).disk).run disk quiet sched).finished)
    (hexact : (commitRace H b rival ((journalSystem H).play disk is emptyJournal).disk).Meets disk
      quiet (ExactStep b) sched) :
    RaceSafe b ((commitRace H b rival ((journalSystem H).play disk is emptyJournal).disk).run disk quiet sched) := by
  obtain ⟨x, hx, -, -⟩ := play_grows (x := Transaction.start (H := H) (b := b)) is hone
    (c := emptyJournal) Transaction.files_start.symm
  have hj : x.phase.journaled = true := by
    obtain ⟨j, hj⟩ := hjournal
    rw [hx] at hj
    simp only [Transaction.files, Transaction.stored] at hj
    cases hp : x.phase <;> rw [hp] at hj <;> first | rfl | cases hj
  have hquiet : ∀ o s, NoFault (K := Artefact) (V := Content B) quiet o s := fun _ _ => ⟨rfl, rfl⟩
  have hstable : ∀ (a : Except (Failure JournalError) RecoveryReceipt) (u v : Transaction H b),
      Closes (fun y => y.phase.isTerminal = true) a u → u.Grows v →
        Closes (fun y => y.phase.isTerminal = true) a v := by
    intro a u v h huv
    refine h.mono huv fun ht => ?_
    rw [huv.phase.of_terminal ht]
    exact ht
  obtain ⟨y, hy, hxy, hleft, hright⟩ := Race.run_tracks (M := disk) (e := quiet)
    (C := fun c o s => NoFault c o s ∧ exact b o s = true) (P := Closes fun _ => True)
    Transaction.Grows.refl (fun _ _ _ => .trans) hstable
    (fun a u v h huv => h.mono huv fun _ => trivial) hx
    (follows_commit_race hprepared hj) (follows_rival_race hj rival)
    (hexact.imp fun who c h o ho => ⟨hquiet o c.state, h o ho⟩)
  obtain ⟨a, ha⟩ := Option.isSome_iff_exists.mp hfin.1
  have hcommit := Race.tracks_result hleft ha
  refine ⟨?_, fun r r' hr hr' => ?_⟩
  · rw [hy]
    refine Transaction.corresponds ?_
    cases a with
    | ok r =>
      exact Transaction.isTerminal_of_receipt hcommit (Phase.started_of_journaled (hxy.phase.journaled hj))
    | error e => exact hcommit
  · have hl := Race.tracks_result hleft hr
    have hright := Race.tracks_result hright hr'
    rw [Option.some.inj (hl.symm.trans hright)]

def samplePrepare : List (JournalInvocation JournalBinding) :=
  [quietly (.initializePublishedRoot 6), quietly (.prepare sampleBinding)]

def preparedFiles : JournalFiles JournalBinding :=
  ((journalSystem sampleHashes).play disk samplePrepare emptyJournal).disk

/-- The abort verifies the old root, the whole commit runs, and the abort then replaces the
committed record: the journal is aborted and the root is the new one. -/
theorem aborted_beside_new_root : ((commitRace sampleHashes sampleBinding .abort preparedFiles).run disk quiet
      (.replicate 3 .right ++ .replicate 9 .left ++ .replicate 3 .right)).finished ∧
    ¬ RaceSafe sampleBinding ((commitRace sampleHashes sampleBinding .abort preparedFiles).run disk
      quiet (.replicate 3 .right ++ .replicate 9 .left ++ .replicate 3 .right)) := by
  refine ⟨⟨rfl, rfl⟩, fun h => ?_⟩
  obtain ⟨j, r, hj, hr, h⟩ := h.corresponds
  cases hj
  cases hr
  rcases h with ⟨h, -⟩ | ⟨-, h⟩
  · cases h
  · exact absurd h (by decide)

theorem committed_then_aborted :
    RaceSafe sampleBinding ((commitRace sampleHashes sampleBinding .abort preparedFiles).run disk
      quiet (.replicate 4 .left ++ .replicate 2 .right ++ .replicate 5 .left ++ [.right])) := by
  have hone : ∀ i ∈ samplePrepare, i.call.Of sampleBinding := by
    simp [samplePrepare, quietly, JournalCall.Of, oldRoot, newRoot, sampleBinding, JournalBinding.new]
  exact commit_race_safe sampleHashes sampleBinding (by decide) samplePrepare hone ⟨_, rfl⟩ .abort _
    ⟨rfl, rfl⟩ (by decide)

end Zero.DurableJournal
