import ZeroStack.DeltaLog.Log
import ZeroStack.Guarded.Runs

/-! What the delta log keeps: wherever the process dies, the directory holds readable segments with the entries that
were committed, as long as no segment outgrows the reader's limits. -/

open Durable Wire Linked List

namespace GraphZero.DeltaLog

variable (segments : List Segment)

def entriesOf : List DeltaEntry := segments.flatMap Segment.entries

@[simp] theorem entriesOf_append (as bs : List Segment) : entriesOf (as ++ bs) = entriesOf as ++ entriesOf bs :=
  flatMap_append

@[simp] theorem entriesOf_singleton (s : Segment) : entriesOf [s] = s.entries := by simp [entriesOf]

theorem entriesOf_live : entriesOf (live segments) = entriesOf segments := by
  induction segments with
  | nil => rfl
  | cons s segments ih =>
    have hrest : entriesOf (s :: segments) = s.entries ++ entriesOf segments := rfl
    by_cases hempty : s.entries = []
    · have hlive : live (s :: segments) = live segments := by simp [live, hempty]
      rw [hlive, ih, hrest, hempty, nil_append]
    · have hlive : live (s :: segments) = s :: live segments := by simp [live, hempty]
      rw [hlive, hrest, ← ih]
      rfl

def tip : UInt32 := head Segment.crc 0 (live segments)

theorem tip_concat_nil {segments : List Segment} {s : Segment} (h : s.entries = []) : tip
    (segments ++ [s]) = tip segments := by
  simp [tip, live, h]

theorem tip_concat {segments : List Segment} {s : Segment} (h : s.entries ≠ []) : tip (segments ++ [s]) = s.crc := by
  have hlive : live (segments ++ [s]) = live segments ++ [s] := by simp [live, h]
  rw [tip, hlive, head_concat]

namespace Stored
variable {files : List (ℕ × List UInt8)} {segments front : List Segment} {s : Segment}

theorem nil : Stored [] [] := ⟨rfl, fun _ h => (not_mem_nil h).elim, 0, trivial⟩

theorem split_last (h : Stored files (front ++ [s])) : ∃ file, files = front.map Segment.file ++ [(s.id, file)] ∧
    Stored (front.map Segment.file) front := by
  obtain ⟨start, hchained⟩ := h.chained
  rw [live_append] at hchained
  refine ⟨s.file.2, ?_, rfl, fun t ht => h.readable t (mem_append_left _ ht), start, chained_of_append hchained⟩
  rw [h.files_eq, map_append]
  rfl

theorem concat (h : Stored files segments) (hs : s.Readable) (hprev : s.prevCrc = tip segments) :
    Stored (files ++ [s.file]) (segments ++ [s]) := by
  refine ⟨by rw [h.files_eq, map_append, map_singleton],
    forall_mem_append.mpr ⟨h.readable, forall_mem_singleton.mpr hs⟩, ?_⟩
  by_cases hempty : s.entries = []
  · have hlive : live (segments ++ [s]) = live segments := by simp [live, hempty]
    rw [hlive]
    exact h.chained
  · have hlive : live (segments ++ [s]) = live segments ++ [s] := by simp [live, hempty]
    rw [hlive]
    exact exists_chained_concat 0 h.chained hprev

theorem openDir_eq {dir : WalDir} (h : Stored dir.entries segments) : openDir dir = .ok ⟨none, tip segments⟩ := by
  rw [openDir, readDir, h.readSegmentChain]
  show Except.ok (⟨none, _⟩ : Writer) = _
  rw [List.getLast?_map, Option.map_map]
  rfl

theorem readAllSegments_eq {dir : WalDir} (h : Stored dir.entries segments) :
    readAllSegments dir = .ok ((live segments).map fun s => (s.id, s.entries)) := by
  rw [readAllSegments, readDir, h.readSegmentChain]
  show Except.ok (List.map _ _) = _
  rw [map_map]
  rfl

end Stored

structure Holds (seg : OpenSegment) (front : List Segment) (done batch : List DeltaEntry) : Prop where
  bytes_eq : seg.entryBytes = encodeEntries (done ++ batch)
  count_eq : seg.entryCount = (done ++ batch).length
  prev_eq : seg.prevCrc = tip front
  readable : Segment.Readable ⟨seg.id, seg.prevCrc, done ++ batch⟩

structure Follows (log : Writer) (kept own : List Segment) (batch : List DeltaEntry) : Prop where
  lastCrc_eq : log.lastCrc = tip (kept ++ own)
  closed : log.current = none → batch = []
  opened : ∀ seg, log.current = some seg →
    ∃ front done, own = front ++ [⟨seg.id, seg.prevCrc, done⟩] ∧ Holds seg (kept ++ front) done batch

structure Effect.Leaves (eff : Effect) (dir : WalDir) (kept : List Segment)
    (entries batch : List DeltaEntry) : Prop where
  writes : ∀ d ∈ eff.writes, ∃ own, Stored d.entries (kept ++ own) ∧ entriesOf own = entries
  final : ∃ own, Stored (eff.dir dir).entries (kept ++ own) ∧ entriesOf own = entries ∧ Follows eff.log kept own batch

variable {seg : OpenSegment}

section Operations
variable {log : Writer} {dir : WalDir} {kept own : List Segment} {entries batch : List DeltaEntry}

theorem Follows.of_closed (h : log.lastCrc = tip (kept ++ own)) (hclosed : log.current = none) :
    Follows log kept own [] := by
  refine ⟨h, fun _ => rfl, fun seg hseg => ?_⟩
  rw [hclosed] at hseg
  cases hseg

variable {result : Except DeltaError Unit}

theorem Effect.leaves_nil (hstored : Stored dir.entries (kept ++ own))
    (hlog : Follows log kept own batch) : Effect.Leaves ⟨result, log, []⟩ dir kept (entriesOf own) batch :=
  ⟨fun _ h => (not_mem_nil h).elim, own, hstored, rfl, hlog⟩

theorem Effect.leaves_singleton {d : WalDir} (hstored : Stored d.entries (kept ++ own))
    (hlog : Follows log kept own batch) : Effect.Leaves ⟨result, log, [d]⟩ dir kept (entriesOf own) batch := by
  refine ⟨?_, own, hstored, rfl, hlog⟩
  intro d' hd
  rw [mem_singleton.mp hd]
  exact ⟨own, hstored, rfl⟩

theorem Effect.Leaves.andThen {first : Effect} (hfirst : first.Leaves dir kept entries [])
    {next : Writer → WalDir → Effect}
    (hnext : ∀ {log dir own}, Stored dir.entries (kept ++ own) → Follows log kept own [] →
      (next log dir).Leaves dir kept (entriesOf own) []) : (first.andThen dir next).Leaves dir kept entries [] := by
  obtain ⟨own, hstored, hentries, hlog⟩ := hfirst.final
  have hsecond := hnext hstored hlog
  rw [hentries] at hsecond
  refine ⟨forall_mem_append.mpr ⟨hfirst.writes, hsecond.writes⟩, ?_⟩
  have hdir : (first.andThen dir next).dir dir = (next first.log (first.dir dir)).dir (first.dir dir) := by
    show (first.writes ++ _).getLastD dir = _
    rw [getLastD_eq_getLast?, List.getLast?_append]
    show _ = (next first.log (first.dir dir)).writes.getLastD (first.writes.getLastD dir)
    rw [getLastD_eq_getLast?, getLastD_eq_getLast?]
    cases (next first.log (first.dir dir)).writes.getLast? <;> rfl
  rw [hdir]
  exact hsecond.final

theorem Stored.remove_last {front : List Segment} {s : Segment} (h : Stored dir.entries (front ++ [s])) :
    Stored (dir.remove s.id).entries front := by
  obtain ⟨file, hfiles, hfront⟩ := h.split_last
  rw [Numbered.entries_remove_last hfiles]
  exact hfront

theorem Follows.drop (h : Follows log kept own batch) : Follows { log with current := Option.none } kept own [] :=
  .of_closed h.lastCrc_eq rfl

theorem Effect.leaves_remove {front : List Segment} {s : Segment} (hempty : s.entries = [])
    (hstored : Stored dir.entries (kept ++ (front ++ [s]))) (hlog : Follows log kept (front ++ [s]) batch) :
    Effect.Leaves ⟨result, { log with current := Option.none }, [dir.remove s.id]⟩ dir kept
      (entriesOf (front ++ [s])) [] := by
  rw [← append_assoc] at hstored
  have htip : log.lastCrc = tip (kept ++ front) := by
    rw [hlog.lastCrc_eq, ← append_assoc, tip_concat_nil hempty]
  have hentries : entriesOf (front ++ [s]) = entriesOf front := by simp [hempty]
  rw [hentries]
  exact Effect.leaves_singleton hstored.remove_last (.of_closed htip rfl)

theorem Holds.written {front : List Segment} {done : List DeltaEntry} (hholds : Holds seg (kept ++ front) done batch)
    (hstored : Stored dir.entries (kept ++ (front ++ [⟨seg.id, seg.prevCrc, done⟩])))
    (hcurrent : log.current = some seg) (hcount : seg.entryCount ≠ 0) :
    Stored (dir.put seg.id seg.bytes).entries (kept ++ (front ++ [⟨seg.id, seg.prevCrc, done ++ batch⟩])) ∧
      Follows { log with lastCrc := crc32 seg.entryBytes } kept
        (front ++ [⟨seg.id, seg.prevCrc, done ++ batch⟩]) [] := by
  have hsome : done ++ batch ≠ [] := by
    intro hnil
    rw [hholds.count_eq, hnil] at hcount
    exact hcount rfl
  rw [← append_assoc] at hstored ⊢
  obtain ⟨file, hfiles, hfront⟩ := hstored.split_last
  constructor
  · have hbytes : Segment.file ⟨seg.id, seg.prevCrc, done ++ batch⟩ = (seg.id, seg.bytes) := by
      rw [Segment.file, if_neg hsome, OpenSegment.bytes, hholds.bytes_eq, hholds.count_eq]
      rfl
    rw [Numbered.entries_put_last hfiles, ← hbytes]
    exact hfront.concat hholds.readable hholds.prev_eq
  · refine ⟨?_, fun _ => rfl, ?_⟩
    · rw [← append_assoc, tip_concat hsome, Segment.crc, hholds.bytes_eq]
    · intro seg' hseg'
      obtain rfl : seg = seg' := Option.some.inj (hcurrent.symm.trans hseg')
      have hnothing : (done ++ batch) ++ [] = done ++ batch := append_nil _
      refine ⟨front, done ++ batch, rfl, ?_⟩
      exact ⟨by rw [hnothing, hholds.bytes_eq], by rw [hnothing, hholds.count_eq], hholds.prev_eq,
        by rw [hnothing]; exact hholds.readable⟩

section
variable (hstored : Stored dir.entries (kept ++ own))
include hstored

theorem commit_leaves (hlog : Follows log kept own batch) :
    (commit log dir).Leaves dir kept (entriesOf own ++ batch) [] := by
  cases hcurrent : log.current with
  | none =>
    have hcommit : commit log dir = ⟨.ok (), log, []⟩ := by simp only [commit, hcurrent]
    have hbatch : batch = [] := hlog.closed hcurrent
    subst hbatch
    rw [append_nil, hcommit]
    exact Effect.leaves_nil hstored hlog
  | some seg =>
    obtain ⟨front, done, rfl, hholds⟩ := hlog.opened seg hcurrent
    by_cases hcount : seg.entryCount = 0
    · have hnone : done ++ batch = [] := by
        rw [hholds.count_eq] at hcount
        exact length_eq_zero_iff.mp hcount
      obtain ⟨rfl, rfl⟩ := append_eq_nil_iff.mp hnone
      simp only [commit, hcurrent, append_nil]
      split_ifs with hempty
      · exact Effect.leaves_remove rfl hstored hlog
      · exact Effect.leaves_nil hstored hlog
    · have hcommit : commit log dir =
          ⟨.ok (), { log with lastCrc := crc32 seg.entryBytes }, [dir.put seg.id seg.bytes]⟩ := by
        simp only [commit, hcurrent, if_neg hcount]
      obtain ⟨hput, hfollows⟩ := hholds.written hstored hcurrent hcount
      have hentries : entriesOf (front ++ [⟨seg.id, seg.prevCrc, done⟩]) ++ batch =
          entriesOf (front ++ [⟨seg.id, seg.prevCrc, done ++ batch⟩]) := by simp
      rw [hcommit, hentries]
      exact Effect.leaves_singleton hput hfollows

theorem dropCurrent_leaves (hlog : Follows log kept own []) :
    (dropCurrent log dir).Leaves dir kept (entriesOf own) [] := by
  unfold dropCurrent
  cases hcurrent : log.current with
  | none => exact Effect.leaves_nil hstored hlog
  | some seg =>
    obtain ⟨front, done, rfl, hholds⟩ := hlog.opened seg hcurrent
    dsimp only
    split_ifs with hempty
    · have hdone : done = [] := by
        have hcount := hholds.count_eq
        rw [hempty.1, append_nil] at hcount
        exact length_eq_zero_iff.mp hcount.symm
      exact Effect.leaves_remove hdone hstored hlog
    · exact Effect.leaves_nil hstored hlog.drop

omit hstored in
theorem nextSegmentId_eq_ok {id : ℕ} (h : nextSegmentId dir = .ok id) : id < 2 ^ 64 ∧ ∀ e ∈ dir.entries, e.1 < id := by
  unfold nextSegmentId at h
  cases hlast : dir.ids.getLast? with
  | none =>
    rw [hlast] at h
    cases h
    have hnil : dir.entries = [] := map_eq_nil_iff.mp (List.getLast?_eq_none_iff.mp hlast)
    rw [hnil]
    exact ⟨by decide, fun _ he => (not_mem_nil he).elim⟩
  | some last =>
    rw [hlast] at h
    dsimp only at h
    split_ifs at h with hroom
    cases h
    refine ⟨hroom, fun e he => ?_⟩
    obtain ⟨front, hfront⟩ := List.getLast?_eq_some_iff.mp hlast
    have hids : dir.ids.Pairwise (· < ·) := pairwise_map.mpr dir.sorted
    have hmem : e.1 ∈ dir.ids := mem_map_of_mem he
    rw [hfront] at hids hmem
    rcases mem_append.mp hmem with hbefore | hlast
    · exact Nat.lt_succ_of_lt ((pairwise_append.mp hids).2.2 _ hbefore _ mem_cons_self)
    · rw [mem_singleton.mp hlast]
      exact Nat.lt_succ_self last

theorem createSegment_leaves (hlog : Follows log kept own []) :
    (createSegment log dir).Leaves dir kept (entriesOf own) [] := by
  unfold createSegment
  cases hnext : nextSegmentId dir with
  | error e => exact Effect.leaves_nil hstored hlog
  | ok id =>
    obtain ⟨hid, habove⟩ := nextSegmentId_eq_ok hnext
    have hreadable : Segment.Readable ⟨id, log.lastCrc, []⟩ :=
      ⟨hid, Nat.zero_le _, fun _ he => (not_mem_nil he).elim⟩
    have hput : Stored (dir.put id []).entries (kept ++ (own ++ [⟨id, log.lastCrc, []⟩])) := by
      have hentries : (dir.put id []).entries = dir.entries ++ [Segment.file ⟨id, log.lastCrc, []⟩] :=
        Numbered.insert_of_above habove
      rw [hentries, ← append_assoc]
      exact hstored.concat hreadable hlog.lastCrc_eq
    have hkeep : entriesOf own = entriesOf (own ++ [⟨id, log.lastCrc, []⟩]) := by simp
    have hfollows : Follows { log with current := some ⟨id, [], 0, log.lastCrc⟩ } kept
        (own ++ [⟨id, log.lastCrc, []⟩]) [] := by
      refine ⟨?_, fun _ => rfl, ?_⟩
      · rw [← append_assoc, tip_concat_nil rfl]
        exact hlog.lastCrc_eq
      · intro seg hseg
        cases hseg
        exact ⟨own, [], rfl, rfl, rfl, hlog.lastCrc_eq, hreadable⟩
    rw [hkeep]
    exact Effect.leaves_singleton hput hfollows

theorem rollSegment_leaves (hlog : Follows log kept own batch) :
    (rollSegment log dir).Leaves dir kept (entriesOf own ++ batch) [] :=
  ((commit_leaves hstored hlog).andThen dropCurrent_leaves).andThen createSegment_leaves

end

variable {entry : DeltaEntry}

theorem rollSegment_current (h : (rollSegment log dir).result = .ok ()) :
    ∃ id crc, (rollSegment log dir).log.current = some ⟨id, [], 0, crc⟩ := by
  have hcreate : ∀ log dir, (createSegment log dir).result = .ok () →
      ∃ id crc, (createSegment log dir).log.current = some ⟨id, [], 0, crc⟩ := by
    intro log dir hok
    unfold createSegment at hok ⊢
    cases hnext : nextSegmentId dir with
    | error e =>
      rw [hnext] at hok
      cases hok
    | ok id => exact ⟨id, log.lastCrc, rfl⟩
  exact hcreate _ _ h

theorem Follows.push (hlog : Follows log kept own batch) (hcurrent : log.current = some seg)
    (hpayload : entry.payload.length < 2 ^ 32) (hcount : seg.entryCount < maxDeltaSegmentEntries) :
    Follows { log with current := some (seg.push entry) } kept own (batch ++ [entry]) := by
  obtain ⟨front, done, rfl, hholds⟩ := hlog.opened seg hcurrent
  have hlist : done ++ (batch ++ [entry]) = (done ++ batch) ++ [entry] := (append_assoc ..).symm
  refine ⟨hlog.lastCrc_eq, fun h => (nomatch h), ?_⟩
  intro seg' hseg'
  cases hseg'
  refine ⟨front, done, rfl, ?_, ?_, hholds.prev_eq, ?_⟩
  · rw [hlist, encodeEntries_append, encodeEntries_singleton, ← hholds.bytes_eq]
    rfl
  · rw [hlist, length_append, ← hholds.count_eq]
    rfl
  · rw [hlist]
    refine ⟨hholds.readable.id_lt, ?_,
      forall_mem_append.mpr ⟨hholds.readable.payload_lt, forall_mem_singleton.mpr hpayload⟩⟩
    rw [length_append, ← hholds.count_eq]
    exact hcount

theorem append_leaves_roll (hstored : Stored dir.entries (kept ++ own))
    (hlog : Follows log kept own batch) (hroll : needRoll log entry = true) (hpayload : entry.payload.length < 2 ^ 32) :
    (append entry log dir).Leaves dir kept (entriesOf own ++ batch) (match (append entry log dir).result with
        | .ok () => [entry]
        | .error _ => []) := by
  have hrolled := rollSegment_leaves hstored hlog
  cases hresult : (rollSegment log dir).result with
  | error e =>
    have happend : append entry log dir = { rollSegment log dir with result := .error e } := by
      simp only [append, hroll, if_true, hresult]
    rw [happend]
    exact ⟨hrolled.writes, hrolled.final⟩
  | ok u =>
    obtain ⟨id, crc, hcurrent⟩ := rollSegment_current hresult
    have happend : append entry log dir = { rollSegment log dir with
          log := { (rollSegment log dir).log with current := some (OpenSegment.push ⟨id, [], 0, crc⟩ entry) } } := by
      simp only [append, hroll, if_true, hresult, hcurrent, Option.map_some]
    obtain ⟨own', hstored', hentries, hlog'⟩ := hrolled.final
    rw [happend, hresult]
    exact ⟨hrolled.writes, own', hstored', hentries, hlog'.push hcurrent hpayload (Nat.succ_pos _)⟩

theorem append_of_open (hcurrent : log.current = some seg) (hroll : ¬ needRoll log entry = true) :
    append entry log dir = ⟨.ok (), { log with current := some (seg.push entry) }, []⟩ := by
  simp only [append, hroll, if_false, Bool.false_eq_true, hcurrent, Option.map_some]

end Operations

structure State.Represents (s : State) (segments : List Segment) : Prop where
  stored : Stored s.dir.entries segments
  committed_eq : entriesOf segments = s.committed
  idle : s.log = none → s.batch = []
  busy : ∀ log, s.log = some log → Follows log [] segments s.batch

def State.Recoverable (s : State) : Prop := ∃ segments, s.Represents segments

/-- What the reader's limits ask of an append: a payload whose length fits its field, and an open segment that either
has room for one more entry or is left for the next one. -/
def State.Fits (s : State) : Command → Prop
  | .append entry _ => entry.payload.length < 2 ^ 32 ∧
    ∀ seg ∈ s.log.bind Writer.current, seg.entryCount < maxDeltaSegmentEntries ∨
      segmentMaxSize < segmentHeaderLen + seg.entryBytes.length + entry.encodedLen
  | _ => True

instance (s : State) : DecidablePred s.Fits := fun command => by
  cases command <;> unfold State.Fits <;> infer_instance

abbrev State.FitsAll (s : State) (commands : List Command) : Prop := Guarded.Along State.step State.Fits s commands

namespace State
variable {s : State}

theorem fresh_recoverable : fresh.Recoverable := ⟨[], Stored.nil, rfl, fun _ => rfl, fun _ h => nomatch h⟩

theorem Represents.sealing {segments : List Segment} (hrep : s.Represents segments) {eff : Effect}
    {batch : List DeltaEntry} (heff : eff.Leaves s.dir [] (entriesOf segments ++ s.batch) batch) (stop : Option ℕ) :
    (s.sealing eff batch stop).Recoverable := by
  rw [hrep.committed_eq] at heff
  cases stop with
  | none =>
    obtain ⟨segments, hstored, hentries, hlog⟩ := heff.final
    exact ⟨segments, hstored, hentries, fun h => (nomatch h), fun log hlog' => by cases hlog'; exact hlog⟩
  | some n =>
    have hidle : ∀ {dir : WalDir} {segments : List Segment} {committed : List DeltaEntry}, Stored dir.entries segments →
        entriesOf segments = committed → Recoverable ⟨dir, none, committed, []⟩ := fun hstored hentries =>
      ⟨_, hstored, hentries, fun _ => rfl, fun _ h => nomatch h⟩
    by_cases hn : n = 0
    · subst hn
      exact hidle hrep.stored hrep.committed_eq
    · rw [State.sealing, if_neg hn]
      rcases eq_nil_or_concat (eff.writes.take n) with hnil | ⟨front, last, hlast⟩
      · -- nothing was written, so nothing was to be committed
        have hnone : eff.writes = [] := (take_eq_nil_iff.mp hnil).resolve_left hn
        obtain ⟨segments, hstored, hentries, -⟩ := heff.final
        rw [Effect.dir, hnone] at hstored
        rw [Effect.stopped, hnil]
        exact hidle hstored hentries
      · have hmem : last ∈ eff.writes := by
          apply mem_of_mem_take
          rw [hlast, concat_eq_append]
          exact mem_append_right _ mem_cons_self
        obtain ⟨segments, hstored, hentries⟩ := heff.writes last hmem
        have hdir : eff.stopped s.dir n = last := by
          rw [Effect.stopped, hlast, concat_eq_append, getLastD_concat]
        rw [hdir]
        exact hidle hstored hentries

theorem Recoverable.step (h : s.Recoverable) {command : Command} (hfits : s.Fits command) :
    (s.step command).Recoverable := by
  obtain ⟨segments, hrep⟩ := h
  cases command with
  | reopen =>
    have hopen : s.step .reopen = ⟨s.dir, some ⟨none, tip segments⟩, s.committed, []⟩ := by
      simp only [State.step, hrep.stored.openDir_eq]
    rw [hopen]
    refine ⟨segments, hrep.stored, hrep.committed_eq, fun h => (nomatch h), ?_⟩
    intro log hlog
    cases hlog
    exact .of_closed rfl rfl
  | commit stop =>
    cases hlog : s.log with
    | none => simpa only [State.step, hlog] using ⟨segments, hrep⟩
    | some log =>
      simp only [State.step, hlog]
      exact hrep.sealing (commit_leaves hrep.stored (hrep.busy log hlog)) stop
  | roll stop =>
    cases hlog : s.log with
    | none => simpa only [State.step, hlog] using ⟨segments, hrep⟩
    | some log =>
      simp only [State.step, hlog]
      exact hrep.sealing (rollSegment_leaves hrep.stored (hrep.busy log hlog)) stop
  | append entry stop =>
    cases hlog : s.log with
    | none => simpa only [State.step, hlog] using ⟨segments, hrep⟩
    | some log =>
      have hfollows := hrep.busy log hlog
      obtain ⟨hpayload, hroom⟩ := hfits
      simp only [State.step, hlog]
      by_cases hroll : needRoll log entry = true
      · rw [if_pos hroll]
        exact hrep.sealing (append_leaves_roll hrep.stored hfollows hroll hpayload) stop
      · rw [if_neg hroll]
        cases stop with
        | some n => exact ⟨segments, hrep.stored, hrep.committed_eq, fun _ => rfl, fun _ h => nomatch h⟩
        | none =>
          cases hcurrent : log.current with
          | none => exact absurd (by rw [needRoll, hcurrent]) hroll
          | some seg =>
            have hcount : seg.entryCount < maxDeltaSegmentEntries := by
              apply (hroom seg (by simp [hlog, hcurrent])).resolve_right
              simpa [needRoll, hcurrent] using hroll
            have hpushed := hfollows.push hcurrent hpayload hcount
            rw [append_of_open hcurrent hroll]
            refine ⟨segments, hrep.stored, hrep.committed_eq, fun h => (nomatch h), ?_⟩
            intro log' hlog'
            cases hlog'
            exact hpushed

theorem Recoverable.run (h : s.Recoverable) {commands : List Command} (hfits : s.FitsAll commands) :
    (s.run commands).Recoverable :=
  hfits.invariant (fun _ _ hs hfit => hs.step hfit) h

theorem committed_step (s : State) (command : Command) : s.committed <+: (s.step command).committed := by
  have hsealing : ∀ eff batch stop, s.committed <+: (s.sealing eff batch stop).committed := by
    intro eff batch stop
    cases stop with
    | none => exact prefix_append _ _
    | some n =>
      simp only [sealing]
      split_ifs
      · exact prefix_rfl
      · exact prefix_append _ _
  cases command with simp only [step]
  | reopen => split <;> exact prefix_rfl
  | commit | roll =>
    split
    · exact prefix_rfl
    · exact hsealing _ _ _
  | append =>
    split
    · exact prefix_rfl
    · split_ifs
      · exact hsealing _ _ _
      · split <;> exact prefix_rfl

theorem committed_run (s : State) (commands : List Command) : s.committed <+: (s.run commands).committed := by
  induction commands generalizing s with
  | nil => exact prefix_rfl
  | cons command commands ih => exact (s.committed_step command).trans (ih (s.step command))

end State

def readEntries (dir : WalDir) : Except DeltaError (List DeltaEntry) := do
  let segments ← readAllSegments dir
  .ok (segments.flatMap Prod.snd)

theorem Stored.readEntries_eq {dir : WalDir} {segments : List Segment} (h : Stored dir.entries segments) :
    readEntries dir = .ok (entriesOf segments) := by
  rw [readEntries, h.readAllSegments_eq]
  show Except.ok (List.flatMap Prod.snd _) = _
  rw [flatMap_map, ← entriesOf_live]
  rfl

/-- After any commands, with crashes anywhere between file writes, the log is read back: what it holds is what was
committed. -/
theorem readEntries_run {commands : List Command} (hfits : State.fresh.FitsAll commands) :
    readEntries (State.fresh.run commands).dir = .ok (State.fresh.run commands).committed := by
  obtain ⟨segments, hrep⟩ := State.fresh_recoverable.run hfits
  rw [hrep.stored.readEntries_eq, hrep.committed_eq]

/-- What has been read back once is a beginning of what is read back ever after, and the log can be opened again. -/
theorem readEntries_grows {before after : List Command} (hbefore : State.fresh.FitsAll before)
    (hafter : (State.fresh.run before).FitsAll after) : ∃ kept later lastCrc,
    readEntries (State.fresh.run before).dir = .ok kept ∧
      readEntries ((State.fresh.run before).run after).dir = .ok (kept ++ later) ∧
      openDir ((State.fresh.run before).run after).dir = .ok ⟨none, lastCrc⟩ := by
  obtain ⟨old, hold⟩ := State.fresh_recoverable.run hbefore
  obtain ⟨new, hnew⟩ := State.Recoverable.run ⟨old, hold⟩ hafter
  obtain ⟨later, hlater⟩ := (State.fresh.run before).committed_run after
  refine ⟨entriesOf old, later, tip new, hold.stored.readEntries_eq, ?_, hnew.stored.openDir_eq⟩
  rw [hnew.stored.readEntries_eq, hnew.committed_eq, hold.committed_eq, hlater]

def bareEntry : DeltaEntry := ⟨0, 0, []⟩

def bareBatch (count : ℕ) : List Command :=
  .reopen :: (List.replicate count (.append bareEntry none) ++ [.commit none])

def rolledAndCut : List Command :=
  [.reopen, .append bareEntry none, .roll none, .append bareEntry none, .commit (some 1), .reopen,
    .append bareEntry none, .roll (some 1)]

theorem readEntries_run_small : State.fresh.FitsAll rolledAndCut ∧
      readEntries (State.fresh.run rolledAndCut).dir = .ok (State.fresh.run rolledAndCut).committed ∧
      (State.fresh.run rolledAndCut).committed = List.replicate 3 bareEntry := by
  have hfits : State.fresh.FitsAll rolledAndCut := by decide +kernel
  exact ⟨hfits, readEntries_run hfits, by decide +kernel⟩

theorem readEntries_grows_small : ∃ kept later lastCrc,
    readEntries (State.fresh.run (bareBatch 2)).dir = .ok kept ∧
      readEntries ((State.fresh.run (bareBatch 2)).run [.roll (some 1)]).dir = .ok (kept ++ later) ∧
      openDir ((State.fresh.run (bareBatch 2)).run [.roll (some 1)]).dir = .ok ⟨none, lastCrc⟩ :=
  readEntries_grows (by decide +kernel) (by decide +kernel)

section Overfull

def bareSegment (count : ℕ) : OpenSegment := ⟨0, encodeEntries (List.replicate count bareEntry), count, 0⟩

theorem length_encodeEntries_bare (count : ℕ) :
    (encodeEntries (List.replicate count bareEntry)).length = 37 * count := by
  induction count with
  | zero => rfl
  | succ count ih =>
    have hcons : encodeEntries (List.replicate (count + 1) bareEntry) =
        bareEntry.encode ++ encodeEntries (List.replicate count bareEntry) := rfl
    have hone : bareEntry.encode.length = 37 := rfl
    rw [hcons, length_append]
    omega

theorem run_bareAppends {count : ℕ} (h : count < 1700000) :
    State.fresh.run (.reopen :: List.replicate (count + 1) (.append bareEntry none)) =
      ⟨Numbered.empty.put 0 [], some ⟨some (bareSegment (count + 1)), 0⟩, [],
        List.replicate (count + 1) bareEntry⟩ := by
  induction count with
  | zero => rfl
  | succ count ih =>
    have hsnoc : State.fresh.run (.reopen :: List.replicate (count + 1 + 1) (.append bareEntry none)) =
        (State.fresh.run (.reopen :: List.replicate (count + 1) (.append bareEntry none))).step
          (.append bareEntry none) := by
      rw [replicate_succ', ← cons_append, State.run, foldl_append]
      rfl
    -- there are still enough bytes for one more entry
    have hroll : needRoll ⟨some (bareSegment (count + 1)), 0⟩ bareEntry = false := by
      have hone : bareEntry.encodedLen = 37 := rfl
      simp only [needRoll, bareSegment, length_encodeEntries_bare, segmentMaxSize, segmentHeaderLen]
      rw [decide_eq_false_iff_not]
      omega
    have hpush : (bareSegment (count + 1)).push bareEntry = bareSegment (count + 1 + 1) := by
      rw [OpenSegment.push, bareSegment, bareSegment, replicate_succ' (n := count + 1), encodeEntries_append,
        encodeEntries_singleton]
    rw [hsnoc, ih (Nat.lt_of_succ_lt h)]
    simp only [State.step, append, hroll, Bool.false_eq_true, if_false, Option.map_some, hpush, replicate_succ']

theorem run_bareBatch {count : ℕ} (h : count < 1700000) : State.fresh.run (bareBatch (count + 1)) =
      ⟨Numbered.empty.put 0 (bareSegment (count + 1)).bytes,
        some ⟨some (bareSegment (count + 1)), crc32 (bareSegment (count + 1)).entryBytes⟩,
        List.replicate (count + 1) bareEntry, []⟩ := by
  have hsnoc : State.fresh.run (bareBatch (count + 1)) =
      (State.fresh.run (.reopen :: List.replicate (count + 1) (.append bareEntry none))).step (.commit none) := by
    rw [bareBatch, ← cons_append, State.run, foldl_append]
    rfl
  rw [hsnoc, run_bareAppends h]
  rfl

theorem readEntries_overfull (hid : seg.id < 2 ^ 64) (hcount : seg.entryCount < 2 ^ 32)
    (hover : maxDeltaSegmentEntries < seg.entryCount) {dir : WalDir} (hdir : dir.entries = [(seg.id, seg.bytes)]) :
    readEntries dir = .error (.entryCount seg.entryCount) := by
  have hheader : parseSegmentHeader seg.bytes = .error (.entryCount seg.entryCount) := by
    rw [OpenSegment.bytes, parseSegmentHeader_encode hid hcount rfl]
    exact if_pos hover
  have hread : readDir dir = .error (.entryCount seg.entryCount) := by
    rw [readDir, hdir, readSegmentChain, readValidatedSegment, hheader]
    rfl
  rw [readEntries, readAllSegments, hread]
  rfl

/-- The reader refuses what the writer has committed: the one counts entries, the other bytes. -/
theorem committed_and_unreadable : (State.fresh.run (bareBatch 1000001)).committed = List.replicate 1000001 bareEntry ∧
      readEntries (State.fresh.run (bareBatch 1000001)).dir = .error (.entryCount 1000001) := by
  have hroom : 1000000 < 1700000 := by decide
  have hover : maxDeltaSegmentEntries < (bareSegment 1000001).entryCount := Nat.lt_succ_self 1000000
  rw [run_bareBatch hroom]
  refine ⟨rfl, ?_⟩
  apply readEntries_overfull _ _ hover
  · rfl
  · decide
  · decide

end Overfull

end GraphZero.DeltaLog
