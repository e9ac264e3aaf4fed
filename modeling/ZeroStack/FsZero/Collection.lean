import Mathlib.Algebra.GroupWithZero.Nat
import ZeroStack.Store.Lock

/-! A publication into the shared store beside a collection by the file engine. Each holds a lock of its own, so that
neither keeps the other out. -/

open Zero Function

namespace FsZero.Collection

abbrev Bytes := List UInt8

structure ObjectFile where
  bytes : Bytes
  mtime : ℕ

structure Disk where
  clock : ℕ
  object : Option ObjectFile
  coordinator : List LockMode
  gcLock : List LockMode

inductive Publisher where
  | waiting | locked | found | verified | missing
  | written (mtime : ℕ)
  | contended | converging | placed | unsynced
  | returned (ok : Bool)

inductive Collector where
  | waiting | locked
  | scanning (now : ℕ)
  | listed (now : ℕ)
  | old (now : ℕ)
  | doomed (now : ℕ)
  | returned

section Operations
variable {D : Type} [DecidableEq D] (digest : Bytes → D) (bytes : Bytes)

def readVerified (d : Disk) : Bool :=
  match d.object with
  | some file => digest file.bytes = digest bytes
  | none => false

def touchPath (d : Disk) : Disk := { d with object := d.object.map ({ · with mtime := d.clock }) }

def Disk.publisherReturns (d : Disk) (ok : Bool) : Publisher × Disk :=
  (.returned ok, { d with coordinator := d.coordinator.erase .shared })

/-- The next operation of the publisher, which may fail; a lock that is still held at the deadline is a failure too. -/
def putOutcome (fails : Bool) : Publisher → Disk → Publisher × Disk
  | .waiting, d =>
    if LockMode.admits d.coordinator .shared then (.locked, { d with coordinator := .shared :: d.coordinator })
    else if fails then (.returned false, d) else (.waiting, d)
  | .locked, d =>
    if fails then d.publisherReturns false else (if d.object.isSome then .found else .missing, d)
  | .found, d => if fails || !readVerified digest bytes d then d.publisherReturns false else (.verified, d)
  -- whether the time could be set is not looked at
  | .verified, d => (if fails then d else touchPath d).publisherReturns true
  | .missing, d => if fails then d.publisherReturns false else (.written d.clock, d)
  | .written mtime, d => if fails then (.contended, d) else (.placed, { d with object := some ⟨bytes, mtime⟩ })
  | .contended, d => if d.object.isSome then (.converging, d) else d.publisherReturns false
  | .converging, d => d.publisherReturns (!fails && readVerified digest bytes d)
  | .placed, d => if fails then (.unsynced, d) else d.publisherReturns true
  | .unsynced, d => d.publisherReturns (!fails && readVerified digest bytes d)
  | .returned ok, d => (.returned ok, d)

def Disk.collectorReturns (d : Disk) : Collector × Disk :=
  (.returned, { d with gcLock := d.gcLock.erase .exclusive })

/-- The next operation of the collector. It goes on, or something keeps it from the object, which may be listed again
as long as the directory is read. -/
def gcWithDemand (grace : ℕ) (goesOn : Bool) : Collector → Disk → Collector × Disk
  | .waiting, d =>
    if LockMode.admits d.gcLock .exclusive then (.locked, { d with gcLock := .exclusive :: d.gcLock })
    else (.returned, d)
  | .locked, d => if goesOn then (.scanning d.clock, d) else d.collectorReturns
  | .scanning now, d =>
    if goesOn then (if d.object.isSome then .listed now else .scanning now, d) else d.collectorReturns
  | .listed now, d =>
    match d.object with
    | some file => (if file.mtime + grace ≤ now then .old now else .scanning now, d)
    | none => (.scanning now, d)
  | .old now, d => (if goesOn then .doomed now else .scanning now, d)
  | .doomed now, d => (.scanning now, if goesOn then { d with object := none } else d)
  | .returned, d => (.returned, d)

inductive Turn where
  | publisher (fails : Bool)
  | collector (goesOn : Bool)
  | time (passes : ℕ)

structure Config where
  disk : Disk
  publisher : Publisher
  collector : Collector

def step (grace : ℕ) (c : Config) : Turn → Config
  | .publisher fails =>
    let (publisher, disk) := putOutcome digest bytes fails c.publisher c.disk
    { c with disk, publisher }
  | .collector goesOn =>
    let (collector, disk) := gcWithDemand grace goesOn c.collector c.disk
    { c with disk, collector }
  | .time passes => { c with disk := { c.disk with clock := c.disk.clock + passes } }

def start (clock : ℕ) (object : Option ObjectFile) : Config := ⟨⟨clock, object, [], []⟩, .waiting, .waiting⟩

end Operations

def Turn.passes : Turn → ℕ
  | .time passes => passes
  | _ => 0

def elapsed (turns : List Turn) : ℕ := (turns.map Turn.passes).sum

def Publisher.sound (bytes : Bytes) (grace limit : ℕ) (d : Disk) : Publisher → Prop
  | .written mtime => limit < mtime + grace
  | .verified | .placed | .unsynced | .returned true => ∃ file, d.object = some file ∧ file.bytes = bytes
  | _ => True

def Collector.harmless (limit : ℕ) : Collector → Prop
  | .scanning now | .listed now => now ≤ limit
  | .old _ | .doomed _ => False
  | _ => True

def Genuine {D : Type} (digest : Bytes → D) (bytes : Bytes) (object : Option ObjectFile) : Prop :=
  ∀ file, object = some file → digest file.bytes = digest bytes → file.bytes = bytes

structure Young {D : Type} (digest : Bytes → D) (bytes : Bytes) (grace limit : ℕ) (c : Config) : Prop where
  clock : limit < c.disk.clock + grace
  object : ∀ file, c.disk.object = some file → limit < file.mtime + grace
  genuine : Genuine digest bytes c.disk.object
  publisher : c.publisher.sound bytes grace limit c.disk
  collector : c.collector.harmless limit

section Schedules
variable {D : Type} [DecidableEq D] {digest : Bytes → D} {bytes : Bytes} {grace limit : ℕ} {c : Config}

theorem exists_of_readVerified {d : Disk} (hgenuine : Genuine digest bytes d.object)
    (h : readVerified digest bytes d = true) : ∃ file, d.object = some file ∧ file.bytes = bytes := by
  unfold readVerified at h
  split at h
  · next file hfile => exact ⟨file, hfile, hgenuine file hfile (of_decide_eq_true h)⟩
  · cases h

omit [DecidableEq D] in
theorem Young.moves (h : Young digest bytes grace limit c) {publisher : Publisher} {coordinator : List LockMode}
    (hsound : publisher.sound bytes grace limit c.disk) :
    Young digest bytes grace limit { c with disk := { c.disk with coordinator }, publisher } :=
  ⟨h.clock, h.object, h.genuine, hsound, h.collector⟩

theorem Young.put (h : Young digest bytes grace limit c) (fails : Bool) :
    Young digest bytes grace limit (step digest bytes grace c (.publisher fails)) := by
  have hverified := exists_of_readVerified h.genuine
  have hreturns ok (hok : ok = true → ∃ file, c.disk.object = some file ∧ file.bytes = bytes) :
      Young digest bytes grace limit
        { c with disk := (c.disk.publisherReturns ok).2, publisher := (c.disk.publisherReturns ok).1 } := by
    cases ok with
    | true => exact h.moves (hok rfl)
    | false => exact h.moves trivial
  obtain ⟨disk, publisher, collector⟩ := c
  unfold step
  cases publisher with
  | waiting =>
    simp only [putOutcome]
    split_ifs
    · exact h.moves trivial
    · exact h.moves trivial
    · exact h
  | locked =>
    simp only [putOutcome]
    split_ifs
    · exact hreturns false nofun
    · exact h.moves trivial
    · exact h.moves trivial
  | found =>
    simp only [putOutcome]
    split_ifs with hfound
    · exact hreturns false nofun
    · rw [Bool.not_eq_true, Bool.or_eq_false_iff, Bool.not_eq_false'] at hfound
      exact h.moves (hverified hfound.2)
  | verified =>
    obtain ⟨file, hfile, hbytes⟩ : ∃ file, disk.object = some file ∧ file.bytes = bytes := h.publisher
    have htouched : (touchPath disk).object = some ⟨file.bytes, disk.clock⟩ := by
      rw [touchPath, hfile]
      rfl
    cases fails with
    | true => exact hreturns true fun _ => ⟨file, hfile, hbytes⟩
    | false =>
      refine ⟨h.clock, fun file' hfile' => ?_, fun file' hfile' _ => ?_, ⟨_, htouched, hbytes⟩, h.collector⟩
      · cases htouched.symm.trans hfile'
        exact h.clock
      · cases htouched.symm.trans hfile'
        exact hbytes
  | missing =>
    simp only [putOutcome]
    split_ifs
    · exact hreturns false nofun
    · exact h.moves h.clock
  | written mtime =>
    cases fails with
    | true => exact h.moves trivial
    | false =>
      refine ⟨h.clock, fun file hfile => ?_, fun file hfile _ => ?_, ⟨_, rfl, rfl⟩, h.collector⟩
      · cases hfile
        exact h.publisher
      · cases hfile
        rfl
  | contended =>
    simp only [putOutcome]
    split_ifs
    · exact h.moves trivial
    · exact hreturns false nofun
  | placed =>
    cases fails with
    | true => exact h.moves h.publisher
    | false => exact hreturns true fun _ => h.publisher
  | converging | unsynced => exact hreturns _ fun hok => hverified (Bool.and_eq_true_iff.mp hok).2
  | returned ok => exact h

theorem Young.collect (h : Young digest bytes grace limit c) (hlimit : c.disk.clock ≤ limit) (goesOn : Bool) :
    Young digest bytes grace limit (step digest bytes grace c (.collector goesOn)) := by
  have hmoves {collector : Collector} {gcLock : List LockMode} hharmless :
      Young digest bytes grace limit { c with disk := { c.disk with gcLock }, collector } :=
    ⟨h.clock, h.object, h.genuine, h.publisher, hharmless⟩
  obtain ⟨disk, publisher, collector⟩ := c
  unfold step
  cases collector with
  | waiting =>
    simp only [gcWithDemand]
    split_ifs
    · exact hmoves trivial
    · exact hmoves trivial
  | locked =>
    simp only [gcWithDemand]
    split_ifs
    · exact hmoves hlimit
    · exact hmoves trivial
  | scanning now =>
    simp only [gcWithDemand]
    split_ifs
    · exact hmoves h.collector
    · exact hmoves h.collector
    · exact hmoves trivial
  | listed now =>
    have hnow : now ≤ limit := h.collector
    simp only [gcWithDemand]
    split
    · next file hfile =>
      have hyoung := h.object file hfile
      rw [if_neg (by omega)]
      exact hmoves hnow
    · exact hmoves hnow
  | old now | doomed now => exact h.collector.elim
  | returned => exact h

theorem clock_putOutcome (fails : Bool) (publisher : Publisher) (d : Disk) :
    (putOutcome digest bytes fails publisher d).2.clock = d.clock := by
  cases publisher with
  | verified => cases fails <;> rfl
  | waiting | locked | found | missing | written mtime | contended | placed =>
    simp only [putOutcome]
    split_ifs <;> rfl
  | converging | unsynced | returned ok => rfl

theorem clock_gcWithDemand (goesOn : Bool) (collector : Collector) (d : Disk) :
    (gcWithDemand grace goesOn collector d).2.clock = d.clock := by
  cases collector with
  | listed now =>
    simp only [gcWithDemand]
    split <;> rfl
  | doomed now => cases goesOn <;> rfl
  | waiting | locked | scanning now =>
    simp only [gcWithDemand]
    split_ifs <;> rfl
  | old now | returned => rfl

theorem clock_step (c : Config) (turn : Turn) :
    (step digest bytes grace c turn).disk.clock = c.disk.clock + turn.passes := by
  cases turn with
  | publisher fails => exact clock_putOutcome fails c.publisher c.disk
  | collector goesOn => exact clock_gcWithDemand goesOn c.collector c.disk
  | time passes => rfl

theorem Young.step (h : Young digest bytes grace limit c) (turn : Turn)
    (hlimit : c.disk.clock ≤ limit) : Young digest bytes grace limit (step digest bytes grace c turn) := by
  cases turn with
  | publisher fails => exact h.put fails
  | collector goesOn => exact h.collect hlimit goesOn
  | time passes =>
    have hclock : limit < c.disk.clock + passes + grace := by
      have := h.clock
      omega
    exact ⟨hclock, h.object, h.genuine, h.publisher, h.collector⟩

theorem Young.turns {turns : List Turn} (h : Young digest bytes grace limit c)
    (hlimit : c.disk.clock + elapsed turns ≤ limit) :
    Young digest bytes grace limit (turns.foldl (Collection.step digest bytes grace) c) := by
  induction turns generalizing c with
  | nil => exact h
  | cons turn turns ih =>
    have helapsed : elapsed (turn :: turns) = turn.passes + elapsed turns := List.sum_cons
    refine ih (h.step turn (by omega)) ?_
    rw [clock_step]
    omega

/-- A schedule shorter than the grace window, in which the object is not old enough to be collected and has no other
bytes with the digest of the published ones: when the publication has returned, the object is there. -/
theorem publication_survives (clock : ℕ) (object : Option ObjectFile) (hgenuine : Genuine digest bytes object)
    (turns : List Turn) (hshort : elapsed turns < grace)
    (hyoung : ∀ file, object = some file → clock + elapsed turns < file.mtime + grace)
    (hok : (turns.foldl (Collection.step digest bytes grace) (start clock object)).publisher = .returned true) :
    ∃ file, (turns.foldl (Collection.step digest bytes grace) (start clock object)).disk.object = some file ∧
      file.bytes = bytes := by
  have hstart : Young digest bytes grace (clock + elapsed turns) (start clock object) :=
    ⟨Nat.add_lt_add_left hshort clock, hyoung, hgenuine, trivial, trivial⟩
  have hend := (hstart.turns le_rfl).publisher
  rwa [hok] at hend

end Schedules

section Samples

def checkedThenPublished : List Turn :=
  List.replicate 4 (.collector true) ++ List.replicate 6 (.publisher false) ++
    [.collector true, .collector true, .collector false]

theorem fresh_publication_survives :
    ∃ file, (checkedThenPublished.foldl (step id [7] 10) (start 100 none)).disk.object = some file ∧ file.bytes = [7] :=
  publication_survives 100 none nofun checkedThenPublished (by decide) nofun rfl

/-- An object that is old when the collector looks at it is found by the publisher, and deleted after it
has returned. -/
theorem deduplicated_object_deleted :
    let c := checkedThenPublished.foldl (step id [7] 10) (start 100 (some ⟨[7], 0⟩))
    elapsed checkedThenPublished < 10 ∧ c.publisher = .returned true ∧ c.collector = .returned ∧ c.disk.object = none :=
  ⟨by decide, rfl, rfl, rfl⟩

end Samples
end FsZero.Collection
