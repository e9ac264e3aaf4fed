import ZeroStack.EventLog.Json

/-! When an interrupted append to the event log leaves a readable log. -/

open Wire List

namespace Zero.EventLog
variable {Event : Type} {fmt : LogFormat Event}

def Extends (objects objects' : ZeroHandle → Option (List UInt8)) : Prop :=
  ∀ handle bytes, objects handle = some bytes → objects' handle = some bytes

section Objects
variable {objects objects' : ZeroHandle → Option (List UInt8)}

theorem get_mono (h : Extends objects objects') {handle : ZeroHandle} {bytes : List UInt8}
    (hget : fmt.get objects handle = .ok bytes) : fmt.get objects' handle = .ok bytes := by
  unfold LogFormat.get at hget ⊢
  cases hobject : objects handle with
  | none =>
    rw [hobject] at hget
    cases hget
  | some found =>
    rw [hobject] at hget
    rw [h handle found hobject]
    exact hget

theorem mapError_eq_ok {ε ε' α : Type} {f : ε → ε'} {x : Except ε α} {a : α} : x.mapError f = .ok a ↔ x = .ok a := by
  cases x <;> simp [Except.mapError]

theorem readRecord_mono (h : Extends objects objects') {line : List UInt8} {record : EventLogRecord}
    (hread : fmt.readRecord objects line = .ok record) : fmt.readRecord objects' line = .ok record := by
  obtain ⟨hlen, hread⟩ := guard_eq_ok.mp hread
  obtain ⟨parsed, hparsed, hread⟩ := bind_eq_ok.mp hread
  obtain ⟨bytes, hbytes, hread⟩ := bind_eq_ok.mp hread
  refine guard_eq_ok.mpr ⟨hlen, bind_eq_ok.mpr ⟨parsed, hparsed, bind_eq_ok.mpr ⟨bytes, ?_, hread⟩⟩⟩
  exact mapError_eq_ok.mpr (get_mono h (mapError_eq_ok.mp hbytes))

theorem readRecords_mono (h : Extends objects objects') {lines : List (List UInt8)} {records : List EventLogRecord}
    (hread : fmt.readRecords objects lines = .ok records) : fmt.readRecords objects' lines = .ok records := by
  induction lines generalizing records with
  | nil => exact hread
  | cons line lines ih =>
    obtain ⟨record, hrecord, hread⟩ := bind_eq_ok.mp hread
    obtain ⟨later, hlater, hread⟩ := bind_eq_ok.mp hread
    exact bind_eq_ok.mpr ⟨record, readRecord_mono h hrecord, bind_eq_ok.mpr ⟨later, ih hlater, hread⟩⟩

theorem readRecords_append {a b : List (List UInt8)} {records : List EventLogRecord}
    (ha : fmt.readRecords objects a = .ok records) :
    fmt.readRecords objects (a ++ b) = (fmt.readRecords objects b).map (records ++ ·) := by
  induction a generalizing records with
  | nil =>
    cases ha
    cases hb : fmt.readRecords objects b <;> simp [hb, Except.map]
  | cons line a ih =>
    obtain ⟨record, hrecord, ha⟩ := bind_eq_ok.mp ha
    obtain ⟨later, hlater, ha⟩ := bind_eq_ok.mp ha
    cases ha
    rw [cons_append, LogFormat.readRecords, hrecord, ih hlater]
    cases fmt.readRecords objects b <;> rfl

end Objects

section Put
variable {objects : ZeroHandle → Option (List UInt8)} {bytes : List UInt8}

def NoClash (fmt : LogFormat Event) (objects : ZeroHandle → Option (List UInt8)) (bytes : List UInt8) : Prop :=
  ∀ found, objects (fmt.handleOf bytes) = some found → found = bytes

theorem put_eq_ok {handle : ZeroHandle} {objects' : ZeroHandle → Option (List UInt8)}
    (h : fmt.put objects bytes = .ok (handle, objects')) :
    Extends objects objects' ∧ (NoClash fmt objects bytes → fmt.get objects' (fmt.handleOf bytes) = .ok bytes) := by
  obtain ⟨hlen, h⟩ := guard_eq_ok.mp h
  dsimp only at h
  cases hobject : objects (fmt.handleOf bytes) with
  | none =>
    rw [hobject] at h
    cases h
    constructor
    · intro other found hother
      have hne : other ≠ fmt.handleOf bytes := by
        rintro rfl
        rw [hobject] at hother
        cases hother
      rw [Function.update_of_ne hne, hother]
    · intro _
      simp only [LogFormat.get, Function.update_self]
      rw [if_neg hlen, if_neg (not_not.mpr rfl)]
  | some found =>
    rw [hobject] at h
    obtain ⟨stored, hstored, h⟩ := bind_eq_ok.mp h
    cases h
    refine ⟨fun _ _ hkeep => hkeep, fun hclash => ?_⟩
    have hfound : found = bytes := hclash found hobject
    subst hfound
    rw [LogFormat.get, hobject] at hstored ⊢
    obtain ⟨-, hcheck⟩ := guard_eq_ok.mp hstored
    obtain ⟨hdigest, -⟩ := guard_eq_ok.mp hcheck
    exact guard_eq_ok.mpr ⟨hlen, guard_eq_ok.mpr ⟨hdigest, rfl⟩⟩

end Put

theorem lines_recordLine (event : Event) : lines (fmt.line event) = [fmt.recordJson (fmt.recordOf event)] :=
  lines_line (fmt.newline_notMem _) (fmt.getLast_recordJson _)

theorem readRecord_line {objects : ZeroHandle → Option (List UInt8)} {event : Event}
    (hvalid : fmt.validate event = .ok ()) (hsize : (fmt.eventJson event).length ≤ eventRecordByteLimit)
    (hget : fmt.get objects (fmt.handleOf (fmt.eventJson event)) = .ok (fmt.eventJson event)) :
    fmt.readRecord objects (fmt.recordJson (fmt.recordOf event)) = .ok (fmt.recordOf event) := by
  have hlen := fmt.length_recordJson_le event hvalid
  have hshort : ¬eventRecordByteLimit < (fmt.recordJson (fmt.recordOf event)).length :=
    Nat.not_lt.mpr (hlen.trans hsize)
  refine guard_eq_ok.mpr ⟨hshort, bind_ok (fmt.parseRecord_recordJson _) ?_⟩
  refine bind_ok (mapError_eq_ok.mpr hget) ?_
  refine bind_ok (mapError_eq_ok.mpr (fmt.parseEvent_eventJson event hvalid)) ?_
  refine bind_ok (mapError_eq_ok.mpr hvalid) ?_
  exact guard_eq_ok.mpr ⟨by simp [LogFormat.recordOf], rfl⟩

section Step
variable {st st' : LogState} {call : LogFormat.Publish Event} {records : List EventLogRecord}

structure Prepared (fmt : LogFormat Event) (call : LogFormat.Publish Event) (st st' : LogState) : Prop where
  valid : fmt.validate call.event = .ok ()
  size : (fmt.eventJson call.event).length ≤ eventRecordByteLimit
  log : st'.log = st.log
  objects : Extends st.objects st'.objects
  stored : NoClash fmt st.objects (fmt.eventJson call.event) →
    fmt.get st'.objects (fmt.handleOf (fmt.eventJson call.event)) = .ok (fmt.eventJson call.event)

theorem prepare_eq_ok (h : fmt.prepare call st = .ok st') : Prepared fmt call st st' := by
  obtain ⟨⟨⟩, hvalid, h⟩ := bind_eq_ok.mp h
  obtain ⟨-, h⟩ := guard_eq_ok.mp h
  obtain ⟨hsize, h⟩ := guard_eq_ok.mp h
  obtain ⟨⟨handle, objects⟩, hput, h⟩ := bind_eq_ok.mp h
  cases h
  obtain ⟨hextends, hstored⟩ := put_eq_ok (mapError_eq_ok.mp hput)
  exact ⟨mapError_eq_ok.mp hvalid, Nat.not_lt.mp hsize, rfl, hextends, hstored⟩

structure Reads (fmt : LogFormat Event) (st : LogState) (records : List EventLogRecord) : Prop where
  closed : Closed (st.log.getD [])
  bounded : (st.log.getD []).length ≤ eventLogByteLimit
  read : fmt.readRecords st.objects (lines (st.log.getD [])) = .ok records

theorem reads_iff : Reads fmt st records ↔ Closed (st.log.getD []) ∧ fmt.records st = .ok records := by
  unfold LogFormat.records
  constructor
  · rintro ⟨hclosed, hbounded, hread⟩
    refine ⟨hclosed, ?_⟩
    cases hlog : st.log with
    | none =>
      rw [hlog] at hread
      exact hread
    | some bytes =>
      rw [hlog] at hread hbounded
      exact guard_eq_ok.mpr ⟨Nat.not_lt.mpr hbounded, hread⟩
  · rintro ⟨hclosed, h⟩
    cases hlog : st.log with
    | none =>
      rw [hlog] at h
      exact ⟨hclosed, by simp [hlog], by rw [hlog]; exact h⟩
    | some bytes =>
      rw [hlog] at h
      obtain ⟨hbounded, h⟩ := guard_eq_ok.mp h
      exact ⟨hclosed, by simpa [hlog] using hbounded, by rw [hlog]; exact h⟩

theorem Reads.prepared (h : Reads fmt st records) (hp : Prepared fmt call st st') : Reads fmt st' records := by
  refine ⟨?_, ?_, ?_⟩
  · rw [hp.log]
    exact h.closed
  · rw [hp.log]
    exact h.bounded
  · rw [hp.log]
    exact readRecords_mono hp.objects h.read

def LogFormat.accepts (fmt : LogFormat Event) (call : LogFormat.Publish Event) (st : LogState) : Bool :=
  match fmt.prepare call st with
  | .error _ => false
  | .ok st => fmt.fits call st

def LogFormat.landed (fmt : LogFormat Event) (call : LogFormat.Publish Event) (st : LogState) : Bool :=
  fmt.accepts call st && call.stop.all fun n => (fmt.line call.event).length ≤ n

theorem publish_of_accepts (h : fmt.accepts call st = true) :
    ∃ st', Prepared fmt call st st' ∧ (st'.log.getD []).length + (fmt.line call.event).length ≤ eventLogByteLimit ∧
      (fmt.publish call st).2 = { st' with log := some (st'.log.getD [] ++
        (fmt.line call.event).take (call.stop.getD (fmt.line call.event).length)) } ∧
      ∀ publication, (fmt.publish call st).1 = some (.ok publication) → call.stop = none := by
  unfold LogFormat.accepts at h
  cases hprepare : fmt.prepare call st with
  | error e =>
    rw [hprepare] at h
    cases h
  | ok st' =>
    rw [hprepare] at h
    dsimp only at h
    have hroom : (st'.log.getD []).length + (fmt.line call.event).length ≤ eventLogByteLimit := by
      have hlimit : eventLogByteLimit = 67108864 := rfl
      have hfits := of_decide_eq_true h
      omega
    refine ⟨st', prepare_eq_ok hprepare, hroom, ?_⟩
    unfold LogFormat.publish
    rw [hprepare]
    dsimp only
    rw [h]
    cases call.stop with
    | none | some n => simp

theorem publish_of_not_accepts (h : fmt.accepts call st = false) : (∃ e, (fmt.publish call st).1 = some (.error e)) ∧
      ((fmt.publish call st).2 = st ∨ Prepared fmt call st (fmt.publish call st).2) := by
  unfold LogFormat.accepts at h
  unfold LogFormat.publish
  cases hprepare : fmt.prepare call st with
  | error e => exact ⟨⟨e, rfl⟩, .inl rfl⟩
  | ok st' =>
    rw [hprepare] at h
    dsimp only at h ⊢
    rw [h]
    exact ⟨⟨_, rfl⟩, .inr (prepare_eq_ok hprepare)⟩

theorem Reads.append (h : Reads fmt st records) {text : List UInt8} {later : List EventLogRecord}
    (hroom : (st.log.getD []).length + text.length ≤ eventLogByteLimit) (hclosed : Closed (st.log.getD [] ++ text))
    (hlater : fmt.readRecords st.objects (lines text) = .ok later) :
    Reads fmt { st with log := some (st.log.getD [] ++ text) } (records ++ later) := by
  refine ⟨hclosed, ?_, ?_⟩
  · rw [Option.getD_some, length_append]
    exact hroom
  · rw [Option.getD_some, lines_append h.closed, readRecords_append h.read, hlater]
    rfl

theorem take_stop {line : List UInt8} {stop : Option ℕ} (h : (stop.all fun n => decide (line.length ≤ n)) = true) :
    line.take (stop.getD line.length) = line := by
  apply take_of_length_le
  cases stop with
  | none => exact le_rfl
  | some n => simpa using h

/-- The write stops before its first byte or after its last, and the digest of the event names the event. -/
def Clean (fmt : LogFormat Event) (call : LogFormat.Publish Event) (st : LogState) : Prop :=
  NoClash fmt st.objects (fmt.eventJson call.event) ∧ ∀ n ∈ call.stop, n = 0 ∨ (fmt.line call.event).length ≤ n

theorem publish_reads (h : Reads fmt st records) (hclean : Clean fmt call st) : Reads fmt (fmt.publish call st).2
      (records ++ if fmt.landed call st then [fmt.recordOf call.event] else []) := by
  unfold LogFormat.landed
  cases haccepts : fmt.accepts call st with
  | false =>
    rw [Bool.false_and, if_neg Bool.false_ne_true, append_nil]
    rcases (publish_of_not_accepts haccepts).2 with hsame | hprepared
    · rwa [hsame]
    · exact h.prepared hprepared
  | true =>
    obtain ⟨st', hprepared, hroom, hstate, -⟩ := publish_of_accepts haccepts
    have hread := h.prepared hprepared
    rw [hstate]
    cases hwhole : call.stop.all fun n => decide ((fmt.line call.event).length ≤ n) with
    | true =>
      have hrecord := readRecord_line hprepared.valid hprepared.size (hprepared.stored hclean.1)
      have hlater : fmt.readRecords st'.objects (lines (fmt.line call.event)) = .ok [fmt.recordOf call.event] := by
        rw [lines_recordLine]
        exact bind_ok hrecord rfl
      rw [take_stop hwhole]
      exact hread.append hroom (closed_append_line ..) hlater
    | false =>
      have hzero : call.stop.getD (fmt.line call.event).length = 0 := by
        cases hstop : call.stop with
        | none => simp [hstop] at hwhole
        | some n =>
          have hshort : (fmt.line call.event).length > n := by simpa [hstop] using hwhole
          rcases hclean.2 n hstop with hn | hn
          · exact hn
          · omega
      rw [hzero, take_zero]
      refine hread.append (by simp; exact hread.bounded) ?_ rfl
      rw [append_nil]
      exact hread.closed

end Step

section Run
variable {st : LogState} {records : List EventLogRecord}

def CleanRun (fmt : LogFormat Event) : List (LogFormat.Publish Event) → LogState → Prop
  | [], _ => True
  | call :: calls, st => Clean fmt call st ∧ CleanRun fmt calls (fmt.publish call st).2

def LogFormat.landedRecords (fmt : LogFormat Event) : List (LogFormat.Publish Event) → LogState → List EventLogRecord
  | [], _ => []
  | call :: calls, st => (if fmt.landed call st then [fmt.recordOf call.event] else []) ++
      fmt.landedRecords calls (fmt.publish call st).2

theorem run_reads {calls : List (LogFormat.Publish Event)} (h : Reads fmt st records) (hclean : CleanRun fmt calls st) :
    Reads fmt (fmt.run calls st) (records ++ fmt.landedRecords calls st) := by
  induction calls generalizing st records with
  | nil => rwa [LogFormat.run, LogFormat.landedRecords, append_nil]
  | cons call calls ih =>
    rw [LogFormat.landedRecords, ← append_assoc]
    exact ih (publish_reads h hclean.1) hclean.2

theorem landed_of_ok {call : LogFormat.Publish Event} {publication : EventPublication}
    (h : (fmt.publish call st).1 = some (.ok publication)) : fmt.landed call st = true := by
  cases haccepts : fmt.accepts call st with
  | false =>
    obtain ⟨⟨e, he⟩, -⟩ := publish_of_not_accepts haccepts
    rw [he] at h
    cases h
  | true =>
    obtain ⟨-, -, -, -, hreturned⟩ := publish_of_accepts haccepts
    simp [LogFormat.landed, haccepts, hreturned publication h]

end Run

section Torn
variable {st : LogState} {records : List EventLogRecord} {call : LogFormat.Publish Event}

theorem records_error_of_line {bytes line : List UInt8} {objects : ZeroHandle → Option (List UInt8)} {log : List UInt8}
    (hread : fmt.readRecords objects (lines log) = .ok records) (hclosed : Closed log)
    (hlines : lines bytes = [line]) {e : EventLogError} (hparse : fmt.parseRecord line = .error e) :
    ∃ e, fmt.records ⟨objects, some (log ++ bytes)⟩ = .error e := by
  have hline : ∃ e, fmt.readRecord objects line = .error e := by
    unfold LogFormat.readRecord
    split_ifs
    · exact ⟨_, rfl⟩
    · rw [hparse]
      exact ⟨e, rfl⟩
  obtain ⟨e', hline⟩ := hline
  unfold LogFormat.records
  dsimp only
  split_ifs
  · exact ⟨_, rfl⟩
  · rw [lines_append hclosed, readRecords_append hread, hlines, LogFormat.readRecords, hline]
    exact ⟨e', rfl⟩

theorem torn_publish {n : ℕ} (h : Reads fmt st records) (haccepts : fmt.accepts call st = true)
    (hstop : call.stop = some n) (hpos : 0 < n) (hn : n < (fmt.line call.event).length) :
    (∃ e, fmt.records (fmt.publish call st).2 = .error e) ∨
      ∀ next publication, (fmt.publish next (fmt.publish call st).2).1 = some (.ok publication) →
        ∃ e, fmt.records (fmt.publish next (fmt.publish call st).2).2 = .error e := by
  obtain ⟨st', hprepared, -, hstate, -⟩ := publish_of_accepts haccepts
  have hread := h.prepared hprepared
  have hlength : (fmt.line call.event).length = (fmt.recordJson (fmt.recordOf call.event)).length + 1 := by
    rw [LogFormat.line, length_append, length_singleton]
  have htake : (fmt.line call.event).take n = (fmt.recordJson (fmt.recordOf call.event)).take n := by
    rw [LogFormat.line, take_append_of_le_length (by omega)]
  rw [hstate, hstop, Option.getD_some, htake]
  rcases Nat.lt_or_ge n (fmt.recordJson (fmt.recordOf call.event)).length with hshort | hall
  · left
    have hplain : newline ∉ (fmt.recordJson (fmt.recordOf call.event)).take n :=
      fun hmem => fmt.newline_notMem _ (mem_of_mem_take hmem)
    have hne : (fmt.recordJson (fmt.recordOf call.event)).take n ≠ fmt.recordJson (fmt.recordOf call.event) := by
      intro heq
      have hlen := congrArg List.length heq
      rw [length_take] at hlen
      omega
    have hnonempty : (fmt.recordJson (fmt.recordOf call.event)).take n ≠ [] := by
      intro heq
      have hlen := congrArg List.length heq
      rw [length_take, length_nil] at hlen
      omega
    obtain ⟨e, he⟩ := fmt.parseRecord_torn _ _ (List.take_prefix n _) hne
    exact records_error_of_line hread.read hread.closed (lines_open hplain hnonempty) he
  · right
    rw [take_of_length_le hall]
    intro next publication hok
    have hlanded := landed_of_ok hok
    unfold LogFormat.landed at hlanded
    rw [Bool.and_eq_true] at hlanded
    obtain ⟨st'', hnext, -, hstate', -⟩ := publish_of_accepts hlanded.1
    rw [hstate', take_stop hlanded.2, hnext.log, Option.getD_some, append_assoc]
    obtain ⟨e, he⟩ := fmt.parseRecord_joined (fmt.recordOf call.event) (fmt.recordOf next.event)
    have hlines := lines_joined (fmt.newline_notMem (fmt.recordOf call.event)) (fmt.newline_notMem _)
      (fmt.recordJson_ne_nil _) (fmt.getLast_recordJson (fmt.recordOf next.event))
    exact records_error_of_line (readRecords_mono hnext.objects hread.read) hread.closed hlines he

end Torn

/-- A readable log that ends in a newline stays readable, with exactly the records whose line was written, if writes
stop before their first byte or after their last. A write that stops anywhere else breaks it. -/
theorem publish_failure_atomic {st : LogState} {records : List EventLogRecord} (hclosed : Closed (st.log.getD []))
    (h : fmt.records st = .ok records) :
    (∀ calls, CleanRun fmt calls st → fmt.records (fmt.run calls st) = .ok (records ++ fmt.landedRecords calls st)) ∧
    (∀ call st publication, (fmt.publish call st).1 = some (.ok publication) → fmt.landed call st = true) ∧
    ∀ call n, fmt.accepts call st = true → call.stop = some n → 0 < n → n < (fmt.line call.event).length →
      (∃ e, fmt.records (fmt.publish call st).2 = .error e) ∨
        ∀ next publication, (fmt.publish next (fmt.publish call st).2).1 = some (.ok publication) →
          ∃ e, fmt.records (fmt.publish next (fmt.publish call st).2).2 = .error e := by
  have hreads : Reads fmt st records := reads_iff.mpr ⟨hclosed, h⟩
  refine ⟨fun calls hclean => ?_, fun call st publication hok => landed_of_ok hok, fun call n haccepts hstop => ?_⟩
  · exact (reads_iff.mp (run_reads hreads hclean)).2
  · exact torn_publish hreads haccepts hstop

def plainCall (stop : Option ℕ) : LogFormat.Publish PlainEvent := ⟨⟨zeroDigest, "cell-1"⟩, [], stop⟩

def emptyLog : LogState := ⟨fun _ => none, none⟩

theorem retried_publish_reads : plainFormat.records (plainFormat.run [plainCall (some 0), plainCall none] emptyLog) =
      .ok [plainFormat.recordOf (plainCall none).event] := by
  refine ((publish_failure_atomic (.inl rfl) rfl).1 [plainCall (some 0), plainCall none] ?_).trans ?_
  · refine ⟨⟨fun found hfound => ?_, fun n hn => ?_⟩, ⟨fun found hfound => ?_, fun n hn => ?_⟩, trivial⟩
    · cases hfound
    · cases hn
      exact .inl rfl
    · exact (Option.some.inj hfound).symm
    · cases hn
  · decide +kernel

/-- One byte of the line is enough to make the log unreadable; all but the newline reads, until the next
publication. -/
theorem torn_line_refused : plainFormat.records (plainFormat.publish (plainCall (some 1)) emptyLog).2 =
        .error (.invalid "malformed record") ∧
      plainFormat.records (plainFormat.publish (plainCall (some 82)) emptyLog).2 =
        .ok [plainFormat.recordOf (plainCall none).event] ∧
      plainFormat.records (plainFormat.run [plainCall (some 82), plainCall none] emptyLog) =
        .error (.invalid "malformed record") := by
  decide +kernel

end Zero.EventLog
