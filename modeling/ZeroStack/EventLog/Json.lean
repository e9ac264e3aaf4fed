import ZeroStack.EventLog.Log
import ZeroStack.Wire.Json

/-! The JSON form of the records of the log, and a format of events that have only what the log looks at. -/

open Wire

namespace Zero.EventLog

def utf8 (s : String) : List UInt8 := s.toByteArray.data.toList

variable (bytes : List UInt8)

def ofUtf8 : Option String := String.fromUTF8? ⟨⟨bytes⟩⟩

theorem ofUtf8_utf8 (s : String) : ofUtf8 (utf8 s) = some s := dif_pos s.isValidUTF8

def recordKeys : Keys where
  first := utf8 "event"
  second := utf8 "model_visible_digest"
  third := utf8 "cell_id"
  plain := by decide

def recordJson (r : EventLogRecord) : List UInt8 :=
  recordKeys.write (utf8 r.event, utf8 r.modelVisibleDigest, utf8 r.cellId)

def parseRecord : Option EventLogRecord := do
  let (event, digest, cell) ← recordKeys.read bytes
  let event ← ofUtf8 event
  let digest ← ofUtf8 digest
  let cell ← ofUtf8 cell
  some ⟨event, digest, cell⟩

theorem parseRecord_recordJson (r : EventLogRecord) : parseRecord (recordJson r) = some r := by
  have hread := recordKeys.read_eq_some.mpr (rfl : recordJson r = _)
  simp [parseRecord, hread, ofUtf8_utf8]

structure PlainEvent where
  modelVisibleDigest : String
  cellId : String
  deriving DecidableEq

def zeroDigest : String := "00000000"

def eventKeys : Keys where
  first := utf8 "policy_digest"
  second := utf8 "model_visible_digest"
  third := utf8 "cell_id"
  plain := by decide

variable (e : PlainEvent)

def PlainEvent.json : List UInt8 :=
  eventKeys.write (utf8 (zeroHandlePrefix ++ zeroDigest), utf8 e.modelVisibleDigest, utf8 e.cellId)

def PlainEvent.parse : Option PlainEvent := do
  let (_, digest, cell) ← eventKeys.read bytes
  let digest ← ofUtf8 digest
  let cell ← ofUtf8 cell
  some ⟨digest, cell⟩

theorem PlainEvent.parse_json : PlainEvent.parse e.json = some e := by
  have hread := eventKeys.read_eq_some.mpr (rfl : e.json = _)
  simp [PlainEvent.parse, hread, ofUtf8_utf8]

theorem length_recordJson_le_json :
    (recordJson ⟨zeroHandlePrefix ++ zeroDigest, e.modelVisibleDigest, e.cellId⟩).length ≤ e.json.length := by
  have hkeys : (utf8 "event").length ≤ (utf8 "policy_digest").length := by decide
  simp only [recordJson, PlainEvent.json, Keys.write, Keys.lead, recordKeys, eventKeys, List.length_append]
  omega

def plainFormat : LogFormat PlainEvent where
  digestHex _ := zeroDigest
  validate _ := .ok ()
  cellId := PlainEvent.cellId
  modelVisibleDigest := PlainEvent.modelVisibleDigest
  eventJson := PlainEvent.json
  parseEvent bytes := (PlainEvent.parse bytes).elim (.error "malformed event") .ok
  recordJson := recordJson
  parseRecord bytes := (parseRecord bytes).elim (.error (.invalid "malformed record")) .ok
  parseEvent_eventJson e _ := by rw [PlainEvent.parse_json]; rfl
  parseRecord_recordJson r := by rw [parseRecord_recordJson]; rfl
  newline_notMem r := recordKeys.newline_notMem_write _
  recordJson_ne_nil r := recordKeys.write_ne_nil _
  getLast_recordJson r := by
    rw [recordJson, recordKeys.getLast_write]
    decide
  parseRecord_torn r p hbegin hne := by
    rw [parseRecord, recordKeys.read_of_begin _ hbegin hne]
    exact ⟨_, rfl⟩
  parseRecord_joined r r' := by
    rw [parseRecord, recordJson, recordJson, recordKeys.read_append _ (recordKeys.write_ne_nil _)]
    exact ⟨_, rfl⟩
  length_recordJson_le e _ := length_recordJson_le_json e

end Zero.EventLog
