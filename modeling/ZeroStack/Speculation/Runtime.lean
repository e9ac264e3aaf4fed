import Std.Data.TreeMap.Lemmas
import ZeroStack.Kernel.Engine
import ZeroStack.Program.Parties
import ZeroStack.Speculation.Ledger

/-! `SpeculationRuntime`: admissions, claims and ends of a turn, from any number of threads, and the workers they
start. What a thread does under one lock, or in one atomic operation, is one step. -/

open Durable Zero.Kernel

namespace Zero.Speculation

/-- How far the thread of a job is: it has been spawned, it runs the work, it has stored the result, or it has left the
count of the jobs in flight. -/
inductive Worker where
  | spawned
  | working
  | stored
  | ended
  deriving DecidableEq

/-- An `Entry` with its state. `counted` is the outcomes that the ledger has been told of it. -/
structure Entry (V : Type) where
  permit : SpeculationPermit V
  state : SpeculationState := .pending
  result : Option (Except EngineError V) := none
  cancelled : Bool := false
  worker : Worker := .spawned
  counted : List OutcomeClass := []

inductive Work (V : Type) where
  | returned (result : Except EngineError V)
  | panicked

def Work.result {V : Type} : Work V → Except EngineError V
  | .returned result => result
  | .panicked => .error ⟨.internal, "speculative work panicked", false⟩

structure Clock where
  timedOut : Bool
  expired : Bool
  deriving DecidableEq

namespace Entry
variable {V : Type}

def tell (outcome : Option OutcomeClass) (e : Entry V) : Entry V :=
  { e with counted := e.counted ++ outcome.toList }

def store (work : Work V) (e : Entry V) : Entry V × Option OutcomeClass :=
  if e.cancelled then ({ e with state := .cancelled, result := none, worker := .stored }, some .cancelled)
  else match work.result with
    | .ok value => ({ e with state := .ready, result := some (.ok value), worker := .stored }, none)
    | .error error => ({ e with state := .failed, result := some (.error error), worker := .stored }, some .failed)

inductive Claim (V : Type) where
  | wait
  | refused (entry : Entry V) (error : EngineError)
  | handed (entry : Entry V) (counted : Option OutcomeClass) (result : Except EngineError V)

def expire (e : Entry V) : Claim V :=
  .refused { e with cancelled := true } ⟨.deadline, "speculative claim exceeded its bounded wait", false⟩

def claim (woken : Bool) (clock : Clock) (e : Entry V) : Claim V :=
  match e.state with
  | .pending | .running =>
    if woken && clock.timedOut then e.expire
    else if e.cancelled then .refused e ⟨.cancelled, "speculative call was cancelled", false⟩
    else if clock.expired then e.expire
    else .wait
  | .claimed => .refused e ⟨.internal, "speculative claim already consumed", false⟩
  | .ready => match e.result with
    | some (.ok value) => .handed { e with state := .claimed, result := none } (some .hit) (.ok value)
    | _ => .refused { e with result := none } ⟨.internal, "ready speculation has no value", false⟩
  | .failed => match e.result with
    | some (.error error) => .handed { e with state := .claimed, result := none } none (.error error)
    | _ => .refused { e with result := none } ⟨.internal, "failed speculation has no typed error", false⟩
  | .cancelled => .refused e ⟨.cancelled, "speculative call was cancelled", false⟩

def endTurn (e : Entry V) : Entry V × Option OutcomeClass :=
  match e.state with
  | .pending | .running => ({ e with cancelled := true }, none)
  | .ready => ({ e with cancelled := true, state := .cancelled, result := none }, some .wasted)
  | .claimed | .cancelled | .failed => (e, none)

end Entry

/-- `RuntimeInner`, with every entry there has been. A held lock names the call that holds it over several steps.
`handed` lists the claims that have been given a result. -/
structure Runtime (ι V : Type) where
  limit : ℕ
  entries : Std.TreeMap String ℕ := ∅
  jobs : List (Entry V) := []
  workers : List ℕ := []
  ledger : SpeculationLedger := {}
  inflight : ℕ := 0
  entriesLock : Option ι := none
  workersLock : Option ι := none
  handed : List (ι × ℕ) := []

structure PreparedCell where
  binding : SpeculationBinding
  digest : String
  deriving DecidableEq

inductive Call (V : Type) where
  | admitInner (permit : SpeculationPermit V) (prepared : Option PreparedCell)
  | claim (permit : SpeculationPermit V)
  | endTurn

inductive Phase (V : Type) where
  | start
  | checked (key : String)
  | refusing
  | reserved (key : String)
  | launched (job : ℕ)
  | missing
  | found (job : ℕ)
  | waiting (job : ℕ)
  | cancelling (rest : List ℕ)
  | joining
  | joined
  | cleared
  | admitted (answer : Except String SpeculationAdmission)
  | claimed (answer : Except EngineError V)
  | turnEnded (answer : Except String SpeculationLedger)
  deriving DecidableEq

section Model
variable {ι V : Type} (digest : SpeculationPermit V → String)

def admissionKey (permit : SpeculationPermit V) (prepared : Option PreparedCell) : Except String String := do
  permit.validate
  match prepared with
  | some cell =>
    if permit.binding ≠ cell.binding then
      throw "speculation permit binding does not match prepared identity"
    if permit.proof.finalizedSourceRoot ≠ cell.digest then
      throw "speculation permit finalized source does not match prepared identity"
  | none => pure ()
  permit.claimKey digest

def Runtime.put (job : ℕ) (change : Entry V × Option OutcomeClass) (s : Runtime ι V) : Runtime ι V :=
  { s with
    jobs := s.jobs.set job (change.1.tell change.2)
    ledger := match change.2 with
      | none => s.ledger
      | some outcome => s.ledger.record (outcome.delta change.1.permit) }

/-- `admit_inner`: it holds the lock of the entries from its check for a duplicate until the worker is registered. -/
def admitInner (i : ι) (permit : SpeculationPermit V) (prepared : Option PreparedCell) (phase : Phase V)
    (s : Runtime ι V) :
    Phase V × Runtime ι V :=
  match phase with
  | .start => match admissionKey digest permit prepared with
    | .error detail => (.admitted (.error detail), s)
    | .ok key =>
      if s.entriesLock.isSome then (.start, s)
      else if s.entries.contains key then (.admitted (.error "duplicate speculative claim key"), s)
      else (.checked key, { s with entriesLock := some i })
  | .checked key =>
    if s.inflight < s.limit then (.reserved key, { s with inflight := s.inflight + 1 }) else (.refusing, s)
  | .refusing =>
    (.admitted (.ok .ordinary), { s with ledger := s.ledger.record { ordinaryAdmissions := 1 }, entriesLock := none })
  | .reserved key =>
    (.launched s.jobs.length, { s with
        entries := s.entries.insert key s.jobs.length
        jobs := s.jobs ++ [{ permit }]
        ledger := s.ledger.record (dispatchDelta permit) })
  | .launched job =>
    if s.workersLock.isSome then (.launched job, s)
    else (.admitted (.ok .speculated), { s with workers := s.workers ++ [job], entriesLock := none })
  | phase => (phase, s)

def claimEntry (i : ι) (job : ℕ) (woken : Bool) (clock : Clock) (phase : Phase V) (s : Runtime ι V) :
    Phase V × Runtime ι V :=
  match s.jobs[job]? with
  | none => (phase, s)
  | some e => match e.claim woken clock with
    | .wait => (.waiting job, s)
    | .refused entry error => (.claimed (.error error), s.put job (entry, none))
    | .handed entry counted result =>
      (.claimed result, { s.put job (entry, counted) with handed := s.handed ++ [(i, job)] })

def claim (i : ι) (permit : SpeculationPermit V) (clock : Clock) (phase : Phase V) (s : Runtime ι V) :
    Phase V × Runtime ι V :=
  match phase with
  | .start => match permit.claimKey digest with
    | .error detail => (.claimed (.error ⟨.invalidInput, detail, false⟩), s)
    | .ok key =>
      if s.entriesLock.isSome then (.start, s)
      else match s.entries[key]? with
        | none => (.missing, s)
        | some job => (.found job, s)
  | .missing =>
    (.claimed (.error ⟨.internal, "admitted speculative call has no exact claim", false⟩),
      { s with ledger := s.ledger.record { claimInvariantFailures := 1 } })
  | .found job => claimEntry i job false clock phase s
  | .waiting job => claimEntry i job true clock phase s
  | phase => (phase, s)

/-- `end_turn`: it cancels the entries it has seen, joins the workers, clears the entries and reads the ledger. -/
def endTurn (i : ι) (phase : Phase V) (s : Runtime ι V) : Phase V × Runtime ι V :=
  match phase with
  | .start => if s.entriesLock.isSome then (.start, s) else (.cancelling (s.entries.toList.map (·.2)), s)
  | .cancelling (job :: rest) => match s.jobs[job]? with
    | none => (.cancelling rest, s)
    | some e => (.cancelling rest, s.put job e.endTurn)
  | .cancelling [] =>
    if s.workersLock.isSome then (.cancelling [], s) else (.joining, { s with workersLock := some i })
  | .joining => match s.workers with
    | [] => (.joined, { s with workersLock := none })
    | job :: rest =>
      -- `join` returns once the thread is over.
      if s.jobs[job]?.any (·.worker = .ended) then (.joining, { s with workers := rest }) else (.joining, s)
  | .joined => if s.entriesLock.isSome then (.joined, s) else (.cleared, { s with entries := ∅ })
  | .cleared => (.turnEnded (s.ledger.validate.map fun _ => s.ledger), s)
  | phase => (phase, s)

def workerStep (job : ℕ) (work : Work V) (s : Runtime ι V) : Runtime ι V :=
  match s.jobs[job]? with
  | none => s
  | some e => match e.worker with
    | .spawned => s.put job ({ e with state := .running, worker := .working }, none)
    | .working => s.put job (e.store work)
    | .stored => { s.put job ({ e with worker := .ended }, none) with inflight := s.inflight - 1 }
    | .ended => s

def runtime (calls : ι → Call V) : Parties ι (Phase V) (Runtime ι V) Clock (ℕ × Work V) where
  act i clock phase s := match calls i with
    | .admitInner permit prepared => admitInner digest i permit prepared phase s
    | .claim permit => claim digest i permit clock phase s
    | .endTurn => endTurn i phase s
  background d s := workerStep d.1 d.2 s

def new (limit : ℕ) : Except String (Configuration ι (Phase V) (Runtime ι V)) :=
  if limit = 0 then .error "speculation inflight limit must be positive" else .ok ⟨{ limit }, fun _ => .start⟩

end Model
end Zero.Speculation
