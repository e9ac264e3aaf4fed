import ZeroStack.Kernel.Transaction
import ZeroStack.Store.Lock
import ZeroStack.Wire.Decimal
import ZeroStack.Wire.Reader

/-! `TransactionCoordinator::allocate_cell_sequence` for one session: the calls of any number of processes
on one sequence file. -/

open Durable Wire Zero.Locking Function

namespace Zero.Kernel

inductive SequenceFile where
  | absent
  | text (chars : List Char)
  | unreadable (error : String)
  deriving DecidableEq

/-- A call may find the deadline of the lock passed, fail to write the file, before or after the rename, or die before
or after the write. -/
inductive SequenceChoice where
  | proceed
  | deadline
  | writeFails (error : String) (published : Bool)
  | die (published : Bool)
  deriving DecidableEq

structure AllocateCall (P : Type) where
  process : P
  minimum : ℕ

def SequenceFile.stored : SequenceFile → Except TransactionError ℕ
  | .absent => .ok 0
  | .text chars => (readDecimal (2 ^ 64) (trim chars)).mapError fun e =>
      .store s!"invalid durable cell sequence: {e.display}"
  | .unreadable error => .error (.store s!"read durable cell sequence: {error}")

def nextSequence (minimum : ℕ) (file : SequenceFile) : Except TransactionError ℕ := do
  let stored ← file.stored
  if 2 ^ 64 ≤ max stored minimum + 1 then .error (.store "cell sequence overflow")
  else .ok (max stored minimum + 1)

def publishSequence (minimum : ℕ) (choice : SequenceChoice) (seen current : SequenceFile) :
    Option (Except TransactionError ℕ) × SequenceFile :=
  match nextSequence minimum seen, choice with
  | .error _, .die _ => (none, current)
  | .error e, _ => (some (.error e), current)
  | .ok next, .writeFails error published =>
    (some (.error (.store s!"publish durable cell sequence: {error}")),
      if published then .text (decimal next) else current)
  | .ok next, .die published => (none, if published then .text (decimal next) else current)
  | .ok next, _ => (some (.ok next), .text (decimal next))

section Allocation
variable {ι P : Type} (calls : ι → AllocateCall P)

/-- `CELL_SEQUENCE_MUTEX` is one to a process, and the lock of the session is taken with `StoreLock::publish`. -/
def sequenceLocks : Discipline ι SequenceChoice P where
  admitted _ := true
  process i := some (calls i).process
  mode := .shared
  expired e := e = .deadline

def allocateCellSequence : Sections ι SequenceChoice SequenceFile (Option (Except TransactionError ℕ)) where
  finish i e seen current := publishSequence (calls i).minimum e seen current

abbrev SequenceWorld (ι P : Type) := Locking.World ι P SequenceFile (Option (Except TransactionError ℕ))

def SequenceWorld.Allocated (w : SequenceWorld ι P) (i : ι) (n : ℕ) : Prop := w.result i = some (some (.ok n))

instance (w : SequenceWorld ι P) (i : ι) (n : ℕ) : Decidable (w.Allocated i n) :=
  inferInstanceAs (Decidable (_ = _))

variable [DecidableEq ι] [DecidableEq P]

def runAllocations (schedule : List (ι × SequenceChoice)) (file : SequenceFile) : SequenceWorld ι P :=
  Locking.run (sequenceLocks calls) (allocateCellSequence calls) schedule (Locking.World.initial file)

def SequenceReadsApart (schedule : List (ι × SequenceChoice)) (file : SequenceFile) : Prop :=
  Apart (sequenceLocks calls) (allocateCellSequence calls) schedule (Locking.World.initial file : SequenceWorld ι P)

theorem sequenceReadsApart_of_process {p : P} (h : ∀ i, (calls i).process = p)
    (schedule : List (ι × SequenceChoice)) (file : SequenceFile) : SequenceReadsApart calls schedule file :=
  apart_of_process (fun i => congrArg some (h i)) file schedule

end Allocation

theorem nextSequence_eq_ok {minimum n : ℕ} {file : SequenceFile} (h : nextSequence minimum file = .ok n) :
    ∃ s, file.stored = .ok s ∧ s < n ∧ n < 2 ^ 64 := by
  obtain ⟨s, hs, h⟩ := bind_eq_ok.mp h
  obtain ⟨hfits, hn⟩ := guard_eq_ok.mp h
  cases hn
  exact ⟨s, hs, by omega, by omega⟩

theorem stored_decimal {n : ℕ} (h : n < 2 ^ 64) : (SequenceFile.text (decimal n)).stored = .ok n := by
  rw [SequenceFile.stored, readDecimal_trim_decimal h]
  rfl

def SequenceStep (file : SequenceFile) (out : Option (Except TransactionError ℕ) × SequenceFile) : Prop :=
  (out.2 = file ∧ ∀ n, out.1 ≠ some (.ok n)) ∨
    ∃ s n, file.stored = .ok s ∧ s < n ∧ out.2.stored = .ok n ∧ ∀ m, out.1 = some (.ok m) → m = n

theorem publishSequence_step (minimum : ℕ) (e : SequenceChoice) (file : SequenceFile) :
    SequenceStep file (publishSequence minimum e file file) := by
  cases hnext : nextSequence minimum file with
  | error error =>
    left
    cases e <;> simp [publishSequence, hnext]
  | ok n =>
    obtain ⟨s, hs, hlt, hbound⟩ := nextSequence_eq_ok hnext
    have hdone : ∀ {out}, (∀ m, out = some (.ok m) → m = n) → SequenceStep file (out, .text (decimal n)) :=
      fun hout => .inr ⟨s, n, hs, hlt, stored_decimal hbound, hout⟩
    cases e with
    | proceed | deadline =>
      simp only [publishSequence, hnext]
      exact hdone (by simp)
    | writeFails error published | die published =>
      simp only [publishSequence, hnext]
      cases published with
      | false => exact .inl ⟨rfl, nofun⟩
      | true => exact hdone nofun

section Uniqueness
variable {ι P : Type} {calls : ι → AllocateCall P} {file : SequenceFile}

abbrev SequenceAnswers (ι : Type) := ι → Option (Option (Except TransactionError ℕ))

def SequenceFile.Reaches (file : SequenceFile) (m : ℕ) : Prop := ∃ s, file.stored = .ok s ∧ m ≤ s

structure Numbered (file : SequenceFile) (answers : SequenceAnswers ι) : Prop where
  reached : ∀ i n, answers i = some (some (.ok n)) → file.Reaches n
  distinct : ∀ i j n, answers i = some (some (.ok n)) → answers j = some (some (.ok n)) → i = j

structure Beyond (i : ι) (m : ℕ) (file : SequenceFile) (answers : SequenceAnswers ι) : Prop where
  reached : file.Reaches m
  larger : ∀ n, answers i = some (some (.ok n)) → m < n

theorem SequenceFile.Reaches.lt {s m : ℕ} (h : file.Reaches m) (hs : file.stored = .ok s) : m ≤ s := by
  obtain ⟨t, ht, hle⟩ := h
  rw [hs] at ht
  cases ht
  exact hle

variable [DecidableEq ι] {answers : SequenceAnswers ι}

theorem answered_cases {i j : ι} {n : ℕ} {out : Option (Except TransactionError ℕ)}
    (h : update answers i (some out) j = some (some (.ok n))) :
    (j = i ∧ out = some (.ok n)) ∨ answers j = some (some (.ok n)) := by
  by_cases hji : j = i
  · subst hji
    rw [update_self] at h
    exact .inl ⟨rfl, Option.some.inj h⟩
  · rw [update_of_ne hji] at h
    exact .inr h

variable {out : Option (Except TransactionError ℕ) × SequenceFile} (hstep : SequenceStep file out)
include hstep

theorem Numbered.allocate (i : ι) (h : Numbered file answers) : Numbered out.2 (update answers i (some out.1)) := by
  rcases hstep with ⟨hfile, hout⟩ | ⟨s, n, hs, hlt, hstored, hout⟩
  · have hold : ∀ j m, update answers i (some out.1) j = some (some (.ok m)) → answers j = some (some (.ok m)) := by
      intro j m hj
      rcases answered_cases hj with ⟨_, hm⟩ | hj
      · exact absurd hm (hout m)
      · exact hj
    rw [hfile]
    exact ⟨fun j m hj => h.reached j m (hold j m hj), fun j k m hj hk => h.distinct j k m (hold j m hj) (hold k m hk)⟩
  · have hbelow : ∀ j m, answers j = some (some (.ok m)) → m < n := by
      intro j m hj
      have hle := (h.reached j m hj).lt hs
      omega
    constructor
    · intro j m hj
      rcases answered_cases hj with ⟨_, hm⟩ | hj
      · exact ⟨n, hstored, (hout m hm).le⟩
      · exact ⟨n, hstored, (hbelow j m hj).le⟩
    · intro j k m hj hk
      rcases answered_cases hj with ⟨hji, hm⟩ | hj'
      · rcases answered_cases hk with ⟨hki, _⟩ | hk'
        · rw [hji, hki]
        · exact absurd (hout m hm) (hbelow k m hk').ne
      · rcases answered_cases hk with ⟨_, hm⟩ | hk'
        · exact absurd (hout m hm) (hbelow j m hj').ne
        · exact h.distinct j k m hj' hk'

theorem Beyond.allocate {i : ι} {m : ℕ} (j : ι) (h : Beyond i m file answers) :
    Beyond i m out.2 (update answers j (some out.1)) := by
  rcases hstep with ⟨hfile, hout⟩ | ⟨s, n, hs, hlt, hstored, hout⟩
  · rw [hfile]
    refine ⟨h.reached, fun n hn => ?_⟩
    rcases answered_cases hn with ⟨_, hn⟩ | hn
    · exact absurd hn (hout n)
    · exact h.larger n hn
  · have hle : m < n := (h.reached.lt hs).trans_lt hlt
    refine ⟨⟨n, hstored, hle.le⟩, fun k hk => ?_⟩
    rcases answered_cases hk with ⟨_, hk⟩ | hk
    · rw [hout k hk]
      exact hle
    · exact h.larger k hk

omit hstep
variable [DecidableEq P]

/-- Where the reads are apart, the numbers of a session are unique and grow from each call to the calls that
start after it. -/
theorem allocated_unique (calls : ι → AllocateCall P) (file : SequenceFile) (earlier later : List (ι × SequenceChoice))
    (hapart : SequenceReadsApart calls (earlier ++ later) file) :
    (∀ i j n, (runAllocations calls (earlier ++ later) file).Allocated i n →
      (runAllocations calls (earlier ++ later) file).Allocated j n → i = j) ∧
    ∀ i j m n, (runAllocations calls earlier file).Allocated j m →
      (runAllocations calls earlier file).phase i = .start →
      (runAllocations calls (earlier ++ later) file).Allocated i n → m < n := by
  have hnone : Numbered file (Locking.World.initial file : SequenceWorld ι P).result :=
    ⟨fun _ _ h => (nomatch h), fun _ _ _ h => (nomatch h)⟩
  have hkeep : ∀ i e v answers, answers i = none → Numbered v answers →
      Numbered (((allocateCellSequence calls).finish i e v v).2)
        (update answers i (some ((allocateCellSequence calls).finish i e v v).1)) :=
    fun i e v answers _ h => h.allocate (publishSequence_step (calls i).minimum e v) i
  obtain ⟨hfirst, hsecond⟩ := apart_append.mp hapart
  constructor
  · exact (run_invariant hkeep (current_initial file) hnone hapart).2.distinct
  · intro i j m n hj hstart hi
    have hhalf := run_invariant hkeep (current_initial file) hnone hfirst
    -- From here the file holds at least `m`, and the call `i` has yet to read it.
    have hbeyond : Beyond i m (runAllocations calls earlier file).value (runAllocations calls earlier file).result := by
      refine ⟨hhalf.2.reached j m hj, fun k hk => ?_⟩
      simp [Locking.World.result, hstart] at hk
    have hend := run_invariant
      (fun i' e v answers _ h => h.allocate (publishSequence_step (calls i').minimum e v) i') hhalf.1 hbeyond hsecond
    rw [runAllocations, run_append] at hi
    exact hend.2.larger n hi

def rivalCalls : Bool → AllocateCall Bool := fun b => ⟨b, 0⟩

def inTurn : List (Bool × SequenceChoice) := List.replicate 4 (false, .proceed) ++ List.replicate 4 (true, .proceed)

theorem rivals_in_turn : (∀ i j n, (runAllocations rivalCalls inTurn .absent).Allocated i n →
      (runAllocations rivalCalls inTurn .absent).Allocated j n → i = j) ∧
    ∀ i j m n, (runAllocations rivalCalls (List.replicate 4 (false, .proceed)) .absent).Allocated j m →
      (runAllocations rivalCalls (List.replicate 4 (false, .proceed)) .absent).phase i = .start →
      (runAllocations rivalCalls inTurn .absent).Allocated i n → m < n :=
  allocated_unique rivalCalls .absent (List.replicate 4 (false, .proceed)) (List.replicate 4 (true, .proceed))
    (by unfold SequenceReadsApart; decide +kernel)

/-- Two processes hold the lock in shared mode, both read the file before either writes it, and both return 1. -/
theorem rivals_share_number : ∃ schedule : List (Bool × SequenceChoice),
    (runAllocations rivalCalls schedule .absent).Allocated false 1 ∧
      (runAllocations rivalCalls schedule .absent).Allocated true 1 :=
  ⟨[(false, .proceed), (true, .proceed), (false, .proceed), (true, .proceed), (false, .proceed), (true, .proceed),
    (false, .proceed), (true, .proceed)], by decide +kernel, by decide +kernel⟩

end Uniqueness
end Zero.Kernel
