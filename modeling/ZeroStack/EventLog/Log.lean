import ZeroStack.Wire.Lines
import ZeroStack.Wire.Reader

/-! The event log of a session: a file of lines, each of which names an event object of the store. -/

open Wire

namespace Zero.EventLog

def eventLogByteLimit : ℕ := 64 * 1024 * 1024
def eventRecordByteLimit : ℕ := 16 * 1024
def zeroCasObjectByteLimit : ℕ := 256 * 1024 * 1024
def zeroHandlePrefix : String := "z://blob/"

inductive ZeroCasError where
  | policy (reason : String)
  | notFound
  | corrupt (expected actual : String)
  deriving DecidableEq

inductive EventLogError where
  | invalid (reason : String)
  | usageInvalid (reason : String)
  | usageConflict (reason : String)
  | cas (error : ZeroCasError)
  | io (reason : String)
  deriving DecidableEq

abbrev ZeroHandle := String

structure EventLogRecord where
  event : ZeroHandle
  modelVisibleDigest : String
  cellId : String
  deriving DecidableEq

structure EventPublication where
  event : ZeroHandle
  modelVisibleDigest : String
  deriving DecidableEq

/-- What the log relies on: the digest, the fields of an event that it looks at, and the JSON forms of events and
records. -/
structure LogFormat (Event : Type) where
  digestHex : List UInt8 → String
  validate : Event → Except String Unit
  cellId : Event → String
  modelVisibleDigest : Event → String
  eventJson : Event → List UInt8
  parseEvent : List UInt8 → Except String Event
  recordJson : EventLogRecord → List UInt8
  parseRecord : List UInt8 → Except EventLogError EventLogRecord
  parseEvent_eventJson : ∀ e, validate e = .ok () → parseEvent (eventJson e) = .ok e
  parseRecord_recordJson : ∀ r, parseRecord (recordJson r) = .ok r
  newline_notMem : ∀ r, newline ∉ recordJson r
  recordJson_ne_nil : ∀ r, recordJson r ≠ []
  getLast_recordJson : ∀ r, (recordJson r).getLast? ≠ some carriageReturn
  parseRecord_torn : ∀ r p, p <+: recordJson r → p ≠ recordJson r → ∃ e, parseRecord p = .error e
  parseRecord_joined : ∀ r r', ∃ e, parseRecord (recordJson r ++ recordJson r') = .error e
  length_recordJson_le : ∀ e, validate e = .ok () → (recordJson ⟨zeroHandlePrefix ++ digestHex (eventJson e),
    modelVisibleDigest e, cellId e⟩).length ≤ (eventJson e).length

variable {Event : Type} (fmt : LogFormat Event)

structure LogState where
  objects : ZeroHandle → Option (List UInt8)
  log : Option (List UInt8)

namespace LogFormat

def handleOf (bytes : List UInt8) : ZeroHandle := zeroHandlePrefix ++ fmt.digestHex bytes

variable (objects : ZeroHandle → Option (List UInt8))

def get (handle : ZeroHandle) : Except ZeroCasError (List UInt8) :=
  match objects handle with
  | none => .error .notFound
  | some bytes =>
    if zeroCasObjectByteLimit < bytes.length then
      .error (.policy s!"object is {bytes.length} bytes, limit is {zeroCasObjectByteLimit}")
    else if fmt.handleOf bytes ≠ handle then
      .error (.corrupt (String.ofList (handle.toList.drop zeroHandlePrefix.length)) (fmt.digestHex bytes))
    else .ok bytes

def put (bytes : List UInt8) : Except ZeroCasError (ZeroHandle × (ZeroHandle → Option (List UInt8))) :=
  if zeroCasObjectByteLimit < bytes.length then
    .error (.policy s!"{bytes.length} bytes exceeds {zeroCasObjectByteLimit}")
  else
    let handle := fmt.handleOf bytes
    match objects handle with
    | some _ => do
      let _ ← fmt.get objects handle
      .ok (handle, objects)
    | none => .ok (handle, Function.update objects handle (some bytes))

def readRecord (line : List UInt8) : Except EventLogError EventLogRecord :=
  if eventRecordByteLimit < line.length then .error (.invalid "event log record exceeds policy")
  else do
    let record ← fmt.parseRecord line
    let bytes ← (fmt.get objects record.event).mapError .cas
    let event ← (fmt.parseEvent bytes).mapError .invalid
    (fmt.validate event).mapError .invalid
    if fmt.cellId event ≠ record.cellId ∨ fmt.modelVisibleDigest event ≠ record.modelVisibleDigest then
      .error (.invalid "event log record does not match its event object")
    else .ok record

def readRecords (objects : ZeroHandle → Option (List UInt8)) : List (List UInt8) →
    Except EventLogError (List EventLogRecord)
  | [] => .ok []
  | line :: lines => do
    let record ← fmt.readRecord objects line
    let records ← readRecords objects lines
    .ok (record :: records)

def records (st : LogState) : Except EventLogError (List EventLogRecord) :=
  match st.log with
  | none => .ok []
  | some bytes =>
    if eventLogByteLimit < bytes.length then .error (.invalid "session event log exceeds policy")
    else fmt.readRecords st.objects (lines bytes)

/-- A publication. A `stop` of `some n` ends it after `n` bytes of the line, by a crash or by an error of the
write or of the sync. -/
structure Publish (Event : Type) where
  event : Event
  visible : List UInt8
  stop : Option ℕ

def recordOf (event : Event) : EventLogRecord :=
  ⟨fmt.handleOf (fmt.eventJson event), fmt.modelVisibleDigest event, fmt.cellId event⟩

def line (event : Event) : List UInt8 := fmt.recordJson (fmt.recordOf event) ++ [newline]

variable (call : Publish Event)

/-- `EventLog::publish` up to the stored event object. -/
def prepare (st : LogState) : Except EventLogError LogState := do
  (fmt.validate call.event).mapError .invalid
  let digest := fmt.modelVisibleDigest call.event
  let visible := fmt.digestHex call.visible
  let size := (fmt.eventJson call.event).length
  if digest ≠ visible then
    .error (.invalid s!"model-visible digest mismatch: event {digest}, bytes {visible}")
  else if eventRecordByteLimit < size then
    .error (.invalid s!"event is {size} bytes, limit is {eventRecordByteLimit}")
  else do
    let stored ← (fmt.put st.objects (fmt.eventJson call.event)).mapError .cas
    .ok { st with objects := stored.2 }

def fits (st : LogState) : Bool :=
  min ((st.log.getD []).length + (fmt.line call.event).length) (2 ^ 64 - 1) ≤ eventLogByteLimit

def publish (st : LogState) : Option (Except EventLogError EventPublication) × LogState :=
  match fmt.prepare call st with
  | .error e => (some (.error e), st)
  | .ok st =>
    if !fmt.fits call st then
      (some (.error (.invalid s!"session event log would exceed {eventLogByteLimit} bytes")), st)
    else match call.stop with
      | none =>
        (some (.ok ⟨fmt.handleOf (fmt.eventJson call.event), fmt.modelVisibleDigest call.event⟩),
          { st with log := some (st.log.getD [] ++ fmt.line call.event) })
      | some n => (none, { st with log := some (st.log.getD [] ++ (fmt.line call.event).take n) })

def run : List (Publish Event) → LogState → LogState
  | [], st => st
  | call :: calls, st => run calls (fmt.publish call st).2

end LogFormat
end Zero.EventLog
