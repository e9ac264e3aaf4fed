import ZeroStack.DeltaLog.Segment
import ZeroStack.Program.Numbered

/-! The writer of the delta log. Entries are buffered until `commit` writes the open segment as a whole. An operation
is given with the directories it leaves after each of its file writes, so that a crash can fall between them. -/

open Durable Wire

namespace GraphZero.DeltaLog

abbrev WalDir := Numbered (List UInt8)

structure OpenSegment where
  id : ℕ
  entryBytes : List UInt8
  entryCount : ℕ
  prevCrc : UInt32
  deriving DecidableEq

structure Writer where
  current : Option OpenSegment
  lastCrc : UInt32
  deriving DecidableEq

structure Effect where
  result : Except DeltaError Unit
  log : Writer
  writes : List WalDir

def Effect.dir (eff : Effect) (dir : WalDir) : WalDir := eff.writes.getLastD dir

variable (dir : WalDir)

def readDir : Except DeltaError (List ValidatedSegment) := readSegmentChain [] dir.entries

def openDir : Except DeltaError Writer := do
  let segments ← readDir dir
  .ok ⟨none, ((segments.getLast?).map ValidatedSegment.crc).getD 0⟩

def readAllSegments : Except DeltaError (List (ℕ × List DeltaEntry)) := do
  let segments ← readDir dir
  .ok (segments.map fun segment => (segment.id, segment.entries))

def nextSegmentId : Except DeltaError ℕ :=
  match dir.ids.getLast? with
  | none => .ok 0
  | some id => if id + 1 < 2 ^ 64 then .ok (id + 1) else .error .idsExhausted

def OpenSegment.bytes (seg : OpenSegment) : List UInt8 :=
  SegmentHeader.encode ⟨seg.id, seg.prevCrc, seg.entryCount, crc32 seg.entryBytes⟩ ++ seg.entryBytes

variable (log : Writer)

def commit (dir : WalDir) : Effect :=
  match log.current with
  | none => ⟨.ok (), log, []⟩
  | some seg =>
    if seg.entryCount = 0 then
      -- an empty file that was rolled to and never written is taken away
      if dir.get seg.id = some [] then ⟨.ok (), { log with current := none }, [dir.remove seg.id]⟩
      else ⟨.ok (), log, []⟩
    else ⟨.ok (), { log with lastCrc := crc32 seg.entryBytes }, [dir.put seg.id seg.bytes]⟩

def dropCurrent (dir : WalDir) : Effect :=
  match log.current with
  | none => ⟨.ok (), log, []⟩
  | some seg =>
    ⟨.ok (), { log with current := none },
      if seg.entryCount = 0 ∧ dir.get seg.id = some [] then [dir.remove seg.id] else []⟩

def createSegment (dir : WalDir) : Effect :=
  match nextSegmentId dir with
  | .error e => ⟨.error e, log, []⟩
  | .ok id => ⟨.ok (), { log with current := some ⟨id, [], 0, log.lastCrc⟩ }, [dir.put id []]⟩

def Effect.andThen (first : Effect) (dir : WalDir) (next : Writer → WalDir → Effect) : Effect :=
  let second := next first.log (first.dir dir)
  ⟨second.result, second.log, first.writes ++ second.writes⟩

def rollSegment (dir : WalDir) : Effect :=
  ((commit log dir).andThen dir dropCurrent).andThen dir createSegment

def needRoll (entry : DeltaEntry) : Bool :=
  match log.current with
  | none => true
  | some seg => segmentMaxSize < segmentHeaderLen + seg.entryBytes.length + entry.encodedLen

def OpenSegment.push (seg : OpenSegment) (entry : DeltaEntry) : OpenSegment :=
  { seg with entryBytes := seg.entryBytes ++ entry.encode, entryCount := seg.entryCount + 1 }

def append (entry : DeltaEntry) (log : Writer) (dir : WalDir) : Effect :=
  let rolled : Effect := if needRoll log entry then rollSegment log dir else ⟨.ok (), log, []⟩
  match rolled.result with
  | .error e => { rolled with result := .error e }
  | .ok () => { rolled with log := { rolled.log with current := rolled.log.current.map (·.push entry) } }

inductive Command where
  | reopen
  | append (entry : DeltaEntry) (stop : Option ℕ)
  | commit (stop : Option ℕ)
  | roll (stop : Option ℕ)
  deriving DecidableEq

/-- The directory and the process that has it open, if there is one. What has been committed, and what was appended
since, is recorded beside them. -/
structure State where
  dir : WalDir
  log : Option Writer
  committed : List DeltaEntry
  batch : List DeltaEntry

def State.fresh : State := ⟨Numbered.empty, none, [], []⟩

def Effect.stopped (eff : Effect) (dir : WalDir) (n : ℕ) : WalDir := (eff.writes.take n).getLastD dir

def State.sealing (s : State) (eff : Effect) (batch : List DeltaEntry) : Option ℕ → State
  | none => ⟨eff.dir s.dir, some eff.log, s.committed ++ s.batch, batch⟩
  | some n => ⟨eff.stopped s.dir n, none, if n = 0 then s.committed else s.committed ++ s.batch, []⟩

def State.step (s : State) : Command → State
  | .reopen =>
    match openDir s.dir with
    | .error _ => ⟨s.dir, none, s.committed, []⟩
    | .ok log => ⟨s.dir, some log, s.committed, []⟩
  | .commit stop =>
    match s.log with
    | none => s
    | some log => s.sealing (DeltaLog.commit log s.dir) [] stop
  | .roll stop =>
    match s.log with
    | none => s
    | some log => s.sealing (rollSegment log s.dir) [] stop
  | .append entry stop =>
    match s.log with
    | none => s
    | some log =>
      let eff := DeltaLog.append entry log s.dir
      let batch := match eff.result with
        | .ok () => [entry]
        | .error _ => []
      if needRoll log entry then s.sealing eff batch stop
      else match stop with
        | none => ⟨s.dir, some eff.log, s.committed, s.batch ++ batch⟩
        | some _ => ⟨s.dir, none, s.committed, []⟩

def State.run (s : State) (commands : List Command) : State := commands.foldl State.step s

end GraphZero.DeltaLog
