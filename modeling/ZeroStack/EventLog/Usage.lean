import ZeroStack.EventLog.Atomicity
import ZeroStack.Store.Lock
import ZeroStack.Wire.Utf8

/-! `EventLog::publish_provider_usage`: the calls of any number of threads and processes on the usage log of one
session. -/

open Durable Wire Zero.Locking Function List

namespace Zero.EventLog

structure ProviderUsageLogRecord where
  kernelEvent : ZeroHandle
  requestId : String
  observation : ZeroHandle
  deriving DecidableEq

def ProviderUsageLogRecord.pair (r : ProviderUsageLogRecord) : ZeroHandle × String := (r.kernelEvent, r.requestId)

structure ProviderUsagePublication where
  kernelEvent : ZeroHandle
  requestId : String
  observation : ZeroHandle
  observationDigest : String
  deriving DecidableEq

/-- What the usage log relies on, beside the event log: the fields of an observation that it looks at, and the JSON
forms of observations and records. -/
structure UsageFormat (Event Observation : Type) extends LogFormat Event where
  sessionId : Event → String
  validateUsage : Observation → Except String Unit
  requestId : Observation → String
  observationJson : Observation → List UInt8
  usageJson : ProviderUsageLogRecord → List UInt8
  parseUsage : List UInt8 → Except EventLogError ProviderUsageLogRecord
  observationJson_injective : Injective observationJson
  parseUsage_usageJson : ∀ r, parseUsage (usageJson r) = .ok r
  newline_notMem_usageJson : ∀ r, newline ∉ usageJson r
  usageJson_ne_nil : ∀ r, usageJson r ≠ []
  getLast_usageJson : ∀ r, (usageJson r).getLast? ≠ some carriageReturn
  parseUsage_torn : ∀ r p, p <+: usageJson r → p ≠ usageJson r → ∃ e, parseUsage p = .error e
  parseUsage_joined : ∀ r r' p, p <+: usageJson r' → p ≠ [] → ∃ e, parseUsage (usageJson r ++ p) = .error e

structure UsageCall (Observation : Type) where
  kernelEvent : ZeroHandle
  observation : Observation
  objects : ZeroHandle → Option (List UInt8)
  found : LogState

/-- A call may find the deadline of the lock passed, fail before it writes, stop in the write after some bytes, with
an error or with the process, or die at once. -/
inductive UsageChoice where
  | proceed
  | deadline
  | fail (error : String)
  | stop (bytes : ℕ) (error : Option String)
  | die
  deriving DecidableEq

namespace UsageFormat
variable {Event Observation : Type} (fmt : UsageFormat Event Observation)

def observationHandle (observation : Observation) : ZeroHandle := fmt.handleOf (fmt.observationJson observation)

variable (call : UsageCall Observation)

def usageRecord : ProviderUsageLogRecord :=
  ⟨call.kernelEvent, fmt.requestId call.observation, fmt.observationHandle call.observation⟩

def usageLine (r : ProviderUsageLogRecord) : List UInt8 := fmt.usageJson r ++ [newline]

/-- `publish_provider_usage` up to the lock. -/
def prepareUsage (session : String) (call : UsageCall Observation) : Except EventLogError Unit := do
  (fmt.validateUsage call.observation).mapError .usageInvalid
  let bytes ← (fmt.get call.objects call.kernelEvent).mapError .cas
  let event ← (fmt.parseEvent bytes).mapError .usageInvalid
  (fmt.validate event).mapError .usageInvalid
  let found := fmt.sessionId event
  let size := (fmt.observationJson call.observation).length
  if found ≠ session then
    .error (.usageInvalid s!"kernel event session {found} does not match session {session}")
  else if eventRecordByteLimit < size then
    .error (.usageInvalid s!"observation is {size} bytes, limit is {eventRecordByteLimit}")
  else do
    let _ ← (fmt.put call.objects (fmt.observationJson call.observation)).mapError .cas
    .ok ()

def readUsage : List (List UInt8) → Except EventLogError (List ProviderUsageLogRecord)
  | [] => .ok []
  | line :: lines =>
    if eventRecordByteLimit < line.length then .error (.usageInvalid "usage log record exceeds policy")
    else do
      let record ← fmt.parseUsage line
      let records ← readUsage lines
      .ok (record :: records)

def existingUsageRecords : Option (List UInt8) → Except EventLogError (List ProviderUsageLogRecord)
  | none => .ok []
  | some bytes =>
    if eventLogByteLimit < bytes.length then .error (.usageInvalid "session usage log exceeds policy")
    else fmt.readUsage (lines bytes)

def alreadyRecorded (log : Option (List UInt8)) : Except EventLogError Bool := do
  let events ← fmt.records call.found
  if !events.any (·.event = call.kernelEvent) then
    .error (.usageInvalid s!"kernel event {call.kernelEvent} is absent from the durable session log")
  else do
    let existing ← fmt.existingUsageRecords log
    match existing.find? (·.pair = (fmt.usageRecord call).pair) with
    | none => .ok false
    | some r =>
      if r.observation = fmt.observationHandle call.observation then .ok true
      else
        let id := fmt.requestId call.observation
        .error (.usageConflict
          s!"kernel event {call.kernelEvent} already recorded for request {id} with a different observation")

def publication : ProviderUsagePublication :=
  ⟨call.kernelEvent, fmt.requestId call.observation, fmt.observationHandle call.observation,
    fmt.digestHex (fmt.observationJson call.observation)⟩

/-- A call that has read the log `seen`, where it is now `log`: its answer, if it lives to give one, and the log it
leaves. -/
def publishUsage (choice : UsageChoice) (seen log : Option (List UInt8)) :
    Option (Except EventLogError ProviderUsagePublication) × Option (List UInt8) :=
  let line := fmt.usageLine (fmt.usageRecord call)
  match choice, fmt.alreadyRecorded call seen with
  | .die, _ => (none, log)
  | _, .error e => (some (.error e), log)
  | _, .ok true => (some (.ok (fmt.publication call)), log)
  | choice, .ok false =>
    if eventLogByteLimit < min ((log.getD []).length + line.length) (2 ^ 64 - 1) then
      (some (.error (.usageInvalid s!"session usage log would exceed {eventLogByteLimit} bytes")), log)
    else match choice with
      | .fail error => (some (.error (.io error)), log)
      | .stop n error => (error.map fun e => .error (.io e), some (log.getD [] ++ line.take n))
      | _ => (some (.ok (fmt.publication call)), some (log.getD [] ++ line))

def usageRecords (log : Option (List UInt8)) : List ProviderUsageLogRecord :=
  (lines (log.getD [])).filterMap fun line => (fmt.parseUsage line).toOption

section Calls
variable {ι : Type} (session : String) (calls : ι → UsageCall Observation)

def usageLocks : Discipline ι UsageChoice Empty where
  admitted i := (fmt.prepareUsage session (calls i)).isOk
  process _ := none
  mode := .shared
  expired e := e = .deadline

abbrev UsageOut := Option (Except EventLogError ProviderUsagePublication)

def publishProviderUsage : Sections ι UsageChoice (Option (List UInt8)) UsageOut where
  finish i := fmt.publishUsage (calls i)

variable [DecidableEq ι]

def runUsage (schedule : List (ι × UsageChoice)) (log : Option (List UInt8)) :
    Locking.World ι Empty (Option (List UInt8)) UsageOut :=
  Locking.run (fmt.usageLocks session calls) (fmt.publishProviderUsage calls) schedule (World.initial log)

def UsageReadsApart (schedule : List (ι × UsageChoice)) (log : Option (List UInt8)) : Prop :=
  Apart (fmt.usageLocks session calls) (fmt.publishProviderUsage calls) schedule
    (World.initial log : Locking.World ι Empty (Option (List UInt8)) UsageOut)

end Calls
end UsageFormat

def Published {ι : Type} (answers : ι → Option UsageFormat.UsageOut) (i : ι) : Prop :=
  ∃ publication, answers i = some (some (.ok publication))

variable {Event Observation : Type} {fmt : UsageFormat Event Observation} {log : Option (List UInt8)}

section Log

theorem lines_usageLine (r : ProviderUsageLogRecord) : lines (fmt.usageLine r) = [fmt.usageJson r] :=
  lines_line (fmt.newline_notMem_usageJson r) (fmt.getLast_usageJson r)

def UsageFormat.written (fmt : UsageFormat Event Observation) (records : List ProviderUsageLogRecord) : List UInt8 :=
  (records.map fmt.usageLine).flatten

theorem lines_written (records : List ProviderUsageLogRecord) (rest : List UInt8) :
    lines (fmt.written records ++ rest) = records.map fmt.usageJson ++ lines rest := by
  induction records with
  | nil => rfl
  | cons r records ih =>
    have hsplit : fmt.written (r :: records) ++ rest = fmt.usageLine r ++ (fmt.written records ++ rest) := by
      rw [UsageFormat.written, map_cons, flatten_cons, append_assoc]
      rfl
    have hclosed : Closed (fmt.usageLine r) := closed_append_line [] (fmt.usageJson r)
    rw [hsplit, lines_append hclosed, lines_usageLine, ih]
    rfl

variable {records : List ProviderUsageLogRecord}

theorem map_parse_of_readUsage {ls : List (List UInt8)} (h : fmt.readUsage ls = .ok records) :
    ls.map fmt.parseUsage = records.map .ok := by
  induction ls generalizing records with
  | nil =>
    cases h
    rfl
  | cons line ls ih =>
    obtain ⟨-, h⟩ := guard_eq_ok.mp h
    obtain ⟨r, hr, h⟩ := bind_eq_ok.mp h
    obtain ⟨later, hlater, h⟩ := bind_eq_ok.mp h
    cases h
    rw [map_cons, map_cons, hr, ih hlater]

theorem filterMap_parse {ls : List (List UInt8)} (h : ls.map fmt.parseUsage = records.map .ok) :
    ls.filterMap (fun line => (fmt.parseUsage line).toOption) = records := by
  have hparsed := congrArg (List.filterMap Except.toOption) h
  simpa [filterMap_map, Function.comp_def, Except.toOption] using hparsed

theorem filterMap_usageJson (records : List ProviderUsageLogRecord) :
    (records.map fmt.usageJson).filterMap (fun line => (fmt.parseUsage line).toOption) = records :=
  filterMap_parse (by simp [fmt.parseUsage_usageJson])

theorem usageRecords_of_existing (h : fmt.existingUsageRecords log = .ok records) : fmt.usageRecords log = records := by
  cases log with
  | none =>
    cases h
    rfl
  | some bytes =>
    obtain ⟨-, h⟩ := guard_eq_ok.mp h
    exact filterMap_parse (map_parse_of_readUsage h)

def Written (fmt : UsageFormat Event Observation) (log : Option (List UInt8))
    (records : List ProviderUsageLogRecord) : Prop :=
  ∃ (closed : List ProviderUsageLogRecord) (last : Option ProviderUsageLogRecord),
    log.getD [] = fmt.written closed ++ last.elim [] fmt.usageJson ∧ records = closed ++ last.toList

section Append
variable {closed : List ProviderUsageLogRecord} {rest : List UInt8}

theorem usageRecords_written : fmt.usageRecords (some (fmt.written closed ++ rest)) =
      closed ++ (lines rest).filterMap fun line => (fmt.parseUsage line).toOption := by
  rw [UsageFormat.usageRecords, Option.getD_some, lines_written, filterMap_append, filterMap_usageJson]

structure Appended (fmt : UsageFormat Event Observation) (l : List ProviderUsageLogRecord) (r : ProviderUsageLogRecord)
    (whole : Prop) (log : Option (List UInt8)) : Prop where
  sublist : (fmt.usageRecords log).Sublist (l ++ [r])
  existing : ∀ l', fmt.existingUsageRecords log = .ok l' →
    Written fmt log l' ∧ (l' = l ∨ l' = l ++ [r]) ∧ (whole → l' = l ++ [r])

variable {l : List ProviderUsageLogRecord} {r : ProviderUsageLogRecord} {whole : Prop}

theorem Appended.spoilt {line : List UInt8} (hclosed : closed.Sublist l) (hlines : lines rest = [line])
    (hline : ∃ e, fmt.parseUsage line = .error e) : Appended fmt l r whole (some (fmt.written closed ++ rest)) := by
  obtain ⟨e, hline⟩ := hline
  constructor
  · rw [usageRecords_written, hlines, filterMap_cons, hline]
    show (closed ++ []).Sublist (l ++ [r])
    rw [append_nil]
    exact hclosed.trans (sublist_append_left l [r])
  · intro l' hl'
    obtain ⟨-, hread⟩ := guard_eq_ok.mp hl'
    rw [lines_written, hlines] at hread
    have herror : .error e ∈ l'.map Except.ok := by
      rw [← map_parse_of_readUsage hread]
      simp [hline]
    simp at herror

theorem Appended.read (hwritten : Written fmt (some rest) records)
    (hrecords : fmt.usageRecords (some rest) = records) (hcases : records = l ∨ records = l ++ [r])
    (hwhole : whole → records = l ++ [r]) : Appended fmt l r whole (some rest) := by
  constructor
  · rw [hrecords]
    rcases hcases with rfl | rfl
    · exact sublist_append_left _ _
    · exact List.Sublist.refl _
  · intro l' hl'
    rw [← usageRecords_of_existing hl', hrecords]
    exact ⟨hwritten, hcases, hwhole⟩

theorem usageRecords_of_written (h : Written fmt log records) : fmt.usageRecords log = records := by
  obtain ⟨closed, last, hlog, rfl⟩ := h
  have hsome : fmt.usageRecords log = fmt.usageRecords (some (log.getD [])) := rfl
  rw [hsome, hlog, usageRecords_written]
  cases last with
  | none => rfl
  | some r =>
    rw [Option.elim_some, lines_open (fmt.newline_notMem_usageJson r) (fmt.usageJson_ne_nil r), filterMap_cons,
      fmt.parseUsage_usageJson]
    rfl

theorem take_usageLine (fmt : UsageFormat Event Observation) (r : ProviderUsageLogRecord) (n : ℕ) :
    (fmt.usageLine r).take n = fmt.usageLine r ∨
      (fmt.usageLine r).take n <+: fmt.usageJson r ∧ n < (fmt.usageLine r).length := by
  rcases Nat.lt_or_ge n (fmt.usageLine r).length with hn | hn
  · right
    have hlength : (fmt.usageLine r).length = (fmt.usageJson r).length + 1 := by
      rw [UsageFormat.usageLine, length_append, length_singleton]
    rw [UsageFormat.usageLine, take_append_of_le_length (by omega)]
    exact ⟨List.take_prefix _ _, by rw [← UsageFormat.usageLine]; exact hn⟩
  · exact .inl (take_of_length_le hn)

theorem append_open {r₀ : ProviderUsageLogRecord} {n : ℕ} (hl : l = closed ++ [r₀])
    (hempty : (fmt.usageLine r).take n ≠ []) :
    Appended fmt l r whole (some (fmt.written closed ++ (fmt.usageJson r₀ ++ (fmt.usageLine r).take n))) := by
  have hclosed : closed.Sublist l := by
    rw [hl]
    exact sublist_append_left _ _
  have hplain : newline ∉ fmt.usageJson r₀ := fmt.newline_notMem_usageJson r₀
  rcases take_usageLine fmt r n with htake | ⟨htake, -⟩
  · rw [htake]
    apply Appended.spoilt hclosed _ (fmt.parseUsage_joined r₀ r _ (prefix_refl _) (fmt.usageJson_ne_nil r))
    exact lines_joined hplain (fmt.newline_notMem_usageJson r) (fmt.usageJson_ne_nil r) (fmt.getLast_usageJson r)
  · apply Appended.spoilt hclosed _ (fmt.parseUsage_joined r₀ r _ htake hempty)
    apply lines_open
    · rw [mem_append, not_or]
      exact ⟨hplain, fun hmem => fmt.newline_notMem_usageJson r (htake.subset hmem)⟩
    · exact append_ne_nil_of_right_ne_nil _ hempty

theorem append_closed {n : ℕ} :
    Appended fmt l r ((fmt.usageLine r).length ≤ n) (some (fmt.written l ++ (fmt.usageLine r).take n)) := by
  have hadded : fmt.written l ++ fmt.usageLine r = fmt.written (l ++ [r]) := by
    simp [UsageFormat.written]
  rcases take_usageLine fmt r n with htake | ⟨htake, hn⟩
  · have hwritten : Written fmt (some (fmt.written (l ++ [r]))) (l ++ [r]) := ⟨l ++ [r], none, by simp, by simp⟩
    rw [htake, hadded]
    exact .read hwritten (usageRecords_of_written hwritten) (.inr rfl) fun _ => rfl
  · by_cases hempty : (fmt.usageLine r).take n = []
    · have hwritten : Written fmt (some (fmt.written l ++ [])) l := ⟨l, none, by simp, by simp⟩
      rw [hempty]
      exact .read hwritten (usageRecords_of_written hwritten) (.inl rfl) fun hwhole => absurd hwhole (Nat.not_le.mpr hn)
    · by_cases hall : (fmt.usageLine r).take n = fmt.usageJson r
      · have hwritten : Written fmt (some (fmt.written l ++ fmt.usageJson r)) (l ++ [r]) :=
          ⟨l, some r, by simp, by simp⟩
        rw [hall]
        exact .read hwritten (usageRecords_of_written hwritten) (.inr rfl) fun _ => rfl
      · have hplain : newline ∉ (fmt.usageLine r).take n :=
          fun hmem => fmt.newline_notMem_usageJson r (htake.subset hmem)
        exact .spoilt (List.Sublist.refl l) (lines_open hplain hempty) (fmt.parseUsage_torn r _ htake hall)

theorem Written.append {n : ℕ} (h : Written fmt log l) :
    Appended fmt l r ((fmt.usageLine r).length ≤ n) (some (log.getD [] ++ (fmt.usageLine r).take n)) := by
  have hread := usageRecords_of_written h
  obtain ⟨closed, last, hlog, hl⟩ := h
  cases last with
  | none =>
    rw [Option.toList_none, append_nil] at hl
    rw [hlog, Option.elim_none, append_nil, hl]
    exact append_closed
  | some r₀ =>
    by_cases hempty : (fmt.usageLine r).take n = []
    · have hwritten : Written fmt (some (log.getD [])) l := ⟨closed, some r₀, hlog, hl⟩
      have hshort : ¬ (fmt.usageLine r).length ≤ n := by
        intro hn
        rw [take_of_length_le hn, UsageFormat.usageLine] at hempty
        simp at hempty
      rw [hempty, append_nil]
      exact .read hwritten hread (.inl rfl) fun hwhole => absurd hwhole hshort
    · rw [hlog, append_assoc]
      exact append_open hl hempty

end Append
end Log

section Step
variable {call : UsageCall Observation}

theorem alreadyRecorded_eq_ok {found : Bool} (h : fmt.alreadyRecorded call log = .ok found) :
    ∃ l, fmt.existingUsageRecords log = .ok l ∧
      if found then fmt.usageRecord call ∈ l else ∀ r ∈ l, r.pair ≠ (fmt.usageRecord call).pair := by
  obtain ⟨events, -, h⟩ := bind_eq_ok.mp h
  obtain ⟨-, h⟩ := guard_eq_ok.mp h
  obtain ⟨l, hl, h⟩ := bind_eq_ok.mp h
  refine ⟨l, hl, ?_⟩
  cases hfind : l.find? (·.pair = (fmt.usageRecord call).pair) with
  | none =>
    rw [hfind] at h
    cases h
    intro r hr
    simpa using List.find?_eq_none.mp hfind r hr
  | some r =>
    rw [hfind] at h
    dsimp only at h
    split_ifs at h with hobservation
    cases h
    have hmem : r ∈ l := mem_of_find?_eq_some hfind
    have hpair : r.pair = (fmt.usageRecord call).pair := by simpa using List.find?_some hfind
    have hevent : r.kernelEvent = call.kernelEvent := congrArg Prod.fst hpair
    have hrequest : r.requestId = fmt.requestId call.observation := congrArg Prod.snd hpair
    have hsame : r = fmt.usageRecord call := by
      cases r
      simp_all [UsageFormat.usageRecord]
    rw [← hsame]
    exact hmem

theorem publishUsage_cases (fmt : UsageFormat Event Observation) (call : UsageCall Observation) (choice : UsageChoice)
    (log : Option (List UInt8)) : ((fmt.publishUsage call choice log log).2 = log ∧
      ∀ publication, (fmt.publishUsage call choice log log).1 = some (.ok publication) →
        ∃ l, fmt.existingUsageRecords log = .ok l ∧ fmt.usageRecord call ∈ l) ∨
    ∃ l n, fmt.existingUsageRecords log = .ok l ∧ (∀ r ∈ l, r.pair ≠ (fmt.usageRecord call).pair) ∧
      (fmt.publishUsage call choice log log).2 = some (log.getD [] ++ (fmt.usageLine (fmt.usageRecord call)).take n) ∧
      ∀ publication, (fmt.publishUsage call choice log log).1 = some (.ok publication) →
        (fmt.usageLine (fmt.usageRecord call)).length ≤ n := by
  unfold UsageFormat.publishUsage
  by_cases hdie : choice = .die
  · subst hdie
    exact .inl ⟨rfl, fun _ h => (nomatch h)⟩
  · cases hrecorded : fmt.alreadyRecorded call log with
    | error e =>
      left
      cases choice <;> first | exact absurd rfl hdie | exact ⟨rfl, fun _ h => (nomatch h)⟩
    | ok found =>
      obtain ⟨l, hl, hfound⟩ := alreadyRecorded_eq_ok hrecorded
      cases found with
      | true =>
        left
        cases choice <;> first | exact absurd rfl hdie | exact ⟨rfl, fun _ _ => ⟨l, hl, hfound⟩⟩
      | false =>
        dsimp only
        have hnew : ∀ r ∈ l, r.pair ≠ (fmt.usageRecord call).pair := by simpa using hfound
        split_ifs with hfull
        · left
          cases choice <;> first | exact absurd rfl hdie | exact ⟨rfl, fun _ h => (nomatch h)⟩
        · have hwhole : ∀ line : List UInt8, line = line.take line.length := fun line => take_length.symm
          cases choice with
          | proceed | deadline => exact .inr ⟨l, _, hl, hnew, by simp [← hwhole], fun _ _ => le_rfl⟩
          | fail error => exact .inl ⟨rfl, fun _ h => (nomatch h)⟩
          | stop n error =>
            refine .inr ⟨l, n, hl, hnew, rfl, fun publication h => ?_⟩
            cases error <;> cases h
          | die => exact absurd rfl hdie

end Step

section Run
variable {ι : Type} {calls : ι → UsageCall Observation} {answers : ι → Option UsageFormat.UsageOut}

structure RecordedOnce (fmt : UsageFormat Event Observation) (calls : ι → UsageCall Observation)
    (log : Option (List UInt8)) (answers : ι → Option UsageFormat.UsageOut) : Prop where
  pairs : ((fmt.usageRecords log).map ProviderUsageLogRecord.pair).Nodup
  written : ∀ l, fmt.existingUsageRecords log = .ok l → Written fmt log l
  recorded : ∀ l, fmt.existingUsageRecords log = .ok l → ∀ i, Published answers i → fmt.usageRecord (calls i) ∈ l
  agree : ∀ i j, Published answers i → Published answers j →
    (fmt.usageRecord (calls i)).pair = (fmt.usageRecord (calls j)).pair →
    fmt.usageRecord (calls i) = fmt.usageRecord (calls j)

variable [DecidableEq ι]

variable {out : UsageFormat.UsageOut}

theorem published_update {i j : ι} (h : Published (update answers i (some out)) j) :
    (j = i ∧ ∃ publication, out = some (.ok publication)) ∨ Published answers j := by
  obtain ⟨publication, h⟩ := h
  by_cases hji : j = i
  · subst hji
    rw [update_self] at h
    exact .inl ⟨rfl, publication, Option.some.inj h⟩
  · rw [update_of_ne hji] at h
    exact .inr ⟨publication, h⟩

theorem RecordedOnce.unchanged {i : ι} (h : RecordedOnce fmt calls log answers)
    (hout : ∀ publication, out = some (.ok publication) →
      ∃ l, fmt.existingUsageRecords log = .ok l ∧ fmt.usageRecord (calls i) ∈ l) :
    RecordedOnce fmt calls log (update answers i (some out)) := by
  have hmem : ∀ l, fmt.existingUsageRecords log = .ok l → ∀ j,
      Published (update answers i (some out)) j → fmt.usageRecord (calls j) ∈ l := by
    intro l hl j hj
    rcases published_update hj with ⟨rfl, publication, hpublication⟩ | hj
    · obtain ⟨l', hl', hmem⟩ := hout publication hpublication
      rw [hl] at hl'
      cases hl'
      exact hmem
    · exact h.recorded l hl j hj
  refine ⟨h.pairs, h.written, hmem, fun j k hj hk hpair => ?_⟩
  have hsame : ∀ l, fmt.existingUsageRecords log = .ok l → fmt.usageRecord (calls j) = fmt.usageRecord (calls k) := by
    intro l hl
    have hnodup := h.pairs
    rw [usageRecords_of_existing hl] at hnodup
    exact inj_on_of_nodup_map hnodup (hmem l hl j hj) (hmem l hl k hk) hpair
  rcases published_update hj with ⟨-, publication, hpublication⟩ | hj'
  · obtain ⟨l, hl, -⟩ := hout publication hpublication
    exact hsame l hl
  · rcases published_update hk with ⟨-, publication, hpublication⟩ | hk'
    · obtain ⟨l, hl, -⟩ := hout publication hpublication
      exact hsame l hl
    · exact h.agree j k hj' hk' hpair

theorem RecordedOnce.appended {i : ι} {l : List ProviderUsageLogRecord} {whole : Prop}
    {log' : Option (List UInt8)} (h : RecordedOnce fmt calls log answers) (hl : fmt.existingUsageRecords log = .ok l)
    (hnew : ∀ r ∈ l, r.pair ≠ (fmt.usageRecord (calls i)).pair)
    (happended : Appended fmt l (fmt.usageRecord (calls i)) whole log')
    (hout : ∀ publication, out = some (.ok publication) → whole) :
    RecordedOnce fmt calls log' (update answers i (some out)) := by
  have hnodup : ((l ++ [fmt.usageRecord (calls i)]).map ProviderUsageLogRecord.pair).Nodup := by
    have hpairs := h.pairs
    rw [usageRecords_of_existing hl] at hpairs
    rw [map_append, nodup_append]
    refine ⟨hpairs, nodup_singleton _, fun a ha b hb => ?_⟩
    obtain ⟨r, hr, rfl⟩ := mem_map.mp ha
    rw [mem_singleton.mp hb]
    exact hnew r hr
  have hother : ∀ j, Published answers j → (fmt.usageRecord (calls j)).pair ≠ (fmt.usageRecord (calls i)).pair :=
    fun j hj => hnew _ (h.recorded l hl j hj)
  refine ⟨(happended.sublist.map _).nodup hnodup, fun l' hl' => (happended.existing l' hl').1, fun l' hl' j hj => ?_,
    fun j k hj hk hpair => ?_⟩
  · obtain ⟨-, hcases, hwhole⟩ := happended.existing l' hl'
    rcases published_update hj with ⟨rfl, publication, hpublication⟩ | hj
    · rw [hwhole (hout publication hpublication)]
      exact mem_append_right _ (mem_singleton_self _)
    · have hmem := h.recorded l hl j hj
      rcases hcases with rfl | rfl
      · exact hmem
      · exact mem_append_left _ hmem
  · rcases published_update hj with ⟨hji, -⟩ | hj'
    · rcases published_update hk with ⟨hki, -⟩ | hk'
      · rw [hji, hki]
      · rw [hji] at hpair
        exact absurd hpair.symm (hother k hk')
    · rcases published_update hk with ⟨hki, -⟩ | hk'
      · rw [hki] at hpair
        exact absurd hpair (hother j hj')
      · exact h.agree j k hj' hk' hpair

theorem RecordedOnce.publish (i : ι) (choice : UsageChoice) (h : RecordedOnce fmt calls log answers) :
    RecordedOnce fmt calls (fmt.publishUsage (calls i) choice log log).2
      (update answers i (some (fmt.publishUsage (calls i) choice log log).1)) := by
  rcases publishUsage_cases fmt (calls i) choice log with ⟨hlog, hout⟩ | ⟨l, n, hl, hnew, hlog, hout⟩
  · rw [hlog]
    exact h.unchanged hout
  · rw [hlog]
    exact h.appended hl hnew (h.written l hl).append hout

/-- Where the reads are apart, no pair is recorded twice, and the calls that return for one pair carry one
observation, unless two observations have one digest. -/
theorem usage_recorded_once (fmt : UsageFormat Event Observation) (session : String) (calls : ι → UsageCall Observation)
    (log : Option (List UInt8)) (records : List ProviderUsageLogRecord) (hwritten : Written fmt log records)
    (hpairs : (records.map ProviderUsageLogRecord.pair).Nodup) (schedule : List (ι × UsageChoice))
    (hapart : fmt.UsageReadsApart session calls schedule log) :
    ((fmt.usageRecords (fmt.runUsage session calls schedule log).value).map ProviderUsageLogRecord.pair).Nodup ∧
    ∀ i j, Published (fmt.runUsage session calls schedule log).result i →
      Published (fmt.runUsage session calls schedule log).result j →
      (fmt.usageRecord (calls i)).pair = (fmt.usageRecord (calls j)).pair →
      (calls i).observation = (calls j).observation ∨
        (fmt.observationJson (calls i).observation ≠ fmt.observationJson (calls j).observation ∧
          fmt.observationHandle (calls i).observation = fmt.observationHandle (calls j).observation) := by
  have hread := usageRecords_of_written hwritten
  have hstart : RecordedOnce fmt calls log
      (World.initial log : Locking.World ι Empty _ UsageFormat.UsageOut).result := by
    refine ⟨by rw [hread]; exact hpairs, fun l hl => ?_, fun l hl i hi => ?_, fun i j hi => ?_⟩
    · rw [← usageRecords_of_existing hl, hread]
      exact hwritten
    · obtain ⟨_, hi⟩ := hi
      cases hi
    · obtain ⟨_, hi⟩ := hi
      cases hi
  have hend := (run_invariant (J := RecordedOnce fmt calls) (fun i e log answers _ h => h.publish i e)
    (current_initial log) hstart hapart).2
  refine ⟨hend.pairs, fun i j hi hj hpair => ?_⟩
  have hsame := congrArg ProviderUsageLogRecord.observation (hend.agree i j hi hj hpair)
  by_cases hjson : fmt.observationJson (calls i).observation = fmt.observationJson (calls j).observation
  · exact .inl (fmt.observationJson_injective hjson)
  · exact .inr ⟨hjson, hsame⟩

end Run

structure PlainUsage where
  requestId : String
  model : String
  deriving DecidableEq

def usageKeys : Keys where
  first := utf8 "kernel_event"
  second := utf8 "request_id"
  third := utf8 "observation"
  plain := by decide

def usageJson (r : ProviderUsageLogRecord) : List UInt8 :=
  usageKeys.write (utf8 r.kernelEvent, utf8 r.requestId, utf8 r.observation)

def parseUsage (bytes : List UInt8) : Option ProviderUsageLogRecord := do
  let (event, request, observation) ← usageKeys.read bytes
  let event ← ofUtf8 event
  let request ← ofUtf8 request
  let observation ← ofUtf8 observation
  some ⟨event, request, observation⟩

theorem parseUsage_usageJson (r : ProviderUsageLogRecord) : parseUsage (usageJson r) = some r := by
  have hread := usageKeys.read_eq_some.mpr (rfl : usageJson r = _)
  simp [parseUsage, hread, ofUtf8_utf8]

def PlainUsage.json (o : PlainUsage) : List UInt8 := usageKeys.write ([], utf8 o.requestId, utf8 o.model)

theorem PlainUsage.json_injective : Injective PlainUsage.json := by
  intro a b h
  have hvalues : ([], utf8 a.requestId, utf8 a.model) = ([], utf8 b.requestId, utf8 b.model) :=
    (usageKeys.write_append_inj (congrArg (· ++ []) h)).1
  cases a
  cases b
  simp only [Prod.mk.injEq, true_and] at hvalues
  rw [utf8Bytes_inj hvalues.1, utf8Bytes_inj hvalues.2]

def parityDigest (bytes : List UInt8) : String := if bytes.length % 2 = 0 then zeroDigest else "00000001"

theorem length_recordJson_parity (e : PlainEvent) (bytes : List UInt8) :
    (recordJson ⟨zeroHandlePrefix ++ parityDigest bytes, e.modelVisibleDigest, e.cellId⟩).length ≤ e.json.length := by
  have hdigest : (escape (utf8 (zeroHandlePrefix ++ parityDigest bytes))).length =
      (escape (utf8 (zeroHandlePrefix ++ zeroDigest))).length := by
    rw [parityDigest]
    split_ifs
    · rfl
    · decide
  have hkeys : (utf8 "event").length ≤ (utf8 "policy_digest").length := by decide
  simp only [recordJson, PlainEvent.json, Keys.write, Keys.lead, recordKeys, eventKeys, length_append]
  omega

def plainUsageFormat : UsageFormat PlainEvent PlainUsage where
  toLogFormat := { plainFormat with
    digestHex := parityDigest
    length_recordJson_le := fun e _ => length_recordJson_parity e _ }
  sessionId _ := "session-1"
  validateUsage _ := .ok ()
  requestId := PlainUsage.requestId
  observationJson := PlainUsage.json
  usageJson := usageJson
  parseUsage bytes := (parseUsage bytes).elim (.error (.usageInvalid "malformed record")) .ok
  observationJson_injective := PlainUsage.json_injective
  parseUsage_usageJson r := by rw [parseUsage_usageJson]; rfl
  newline_notMem_usageJson r := usageKeys.newline_notMem_write _
  usageJson_ne_nil r := usageKeys.write_ne_nil _
  getLast_usageJson r := by
    rw [usageJson, usageKeys.getLast_write]
    decide
  parseUsage_torn r p hbegin hne := by
    rw [parseUsage, usageKeys.read_of_begin _ hbegin hne]
    exact ⟨_, rfl⟩
  parseUsage_joined r r' p _ hne := by
    rw [parseUsage, usageJson, usageKeys.read_append _ hne]
    exact ⟨_, rfl⟩

def observedEvent : PlainEvent := ⟨zeroDigest, "cell-1"⟩

def observedLog : LogState :=
  (plainUsageFormat.publish ⟨observedEvent, [], none⟩ ⟨fun _ => none, none⟩).2

def rivalUsage (b : Bool) : UsageCall PlainUsage where
  kernelEvent := plainUsageFormat.handleOf observedEvent.json
  observation := ⟨"request-1", if b then "a" else ""⟩
  objects := observedLog.objects
  found := observedLog

def usageInTurn : List (Bool × UsageChoice) := List.replicate 4 (false, .proceed) ++ List.replicate 4 (true, .proceed)

theorem rival_usage_in_turn :
    ((plainUsageFormat.usageRecords (plainUsageFormat.runUsage "session-1" rivalUsage usageInTurn none).value).map
      ProviderUsageLogRecord.pair).Nodup := by
  refine (usage_recorded_once plainUsageFormat "session-1" rivalUsage none [] ⟨[], none, rfl, rfl⟩ nodup_nil
    usageInTurn ?_).1
  unfold UsageFormat.UsageReadsApart
  decide +kernel

/-- Both calls hold the lock in shared mode and read the log before either appends to it: both return, with
different observations, and the pair is recorded twice. -/
theorem rival_usage_recorded_twice : ∃ schedule : List (Bool × UsageChoice),
    (plainUsageFormat.runUsage "session-1" rivalUsage schedule none).result false =
        some (some (.ok (plainUsageFormat.publication (rivalUsage false)))) ∧
      (plainUsageFormat.runUsage "session-1" rivalUsage schedule none).result true =
        some (some (.ok (plainUsageFormat.publication (rivalUsage true)))) ∧
      plainUsageFormat.observationHandle (rivalUsage false).observation ≠
        plainUsageFormat.observationHandle (rivalUsage true).observation ∧
      plainUsageFormat.existingUsageRecords (plainUsageFormat.runUsage "session-1" rivalUsage schedule none).value =
        .ok [plainUsageFormat.usageRecord (rivalUsage false), plainUsageFormat.usageRecord (rivalUsage true)] ∧
      (plainUsageFormat.usageRecord (rivalUsage false)).pair = (plainUsageFormat.usageRecord (rivalUsage true)).pair :=
  ⟨[(false, .proceed), (true, .proceed), (false, .proceed), (true, .proceed), (false, .proceed), (true, .proceed),
    (false, .proceed), (true, .proceed)], by decide +kernel, by decide +kernel, by decide +kernel, by decide +kernel,
    by decide +kernel⟩

end Zero.EventLog
