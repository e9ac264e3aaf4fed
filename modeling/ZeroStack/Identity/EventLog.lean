import ZeroStack.Identity.Rooted
import ZeroStack.Linked.Chain

/-! The authoritative event log: each record names the root of the log before it. -/

open Wire Linked List

namespace Zero.Identity

structure EventRecord where
  seq : ℕ
  parentRoot : Sha256Digest
  eventType : String
  payloadRoot : String
  authority : String
  deriving DecidableEq

variable (r : EventRecord)

def EventRecord.validate : Except IdentityKernelError Unit :=
  if r.eventType = "" then .error (.invalidEventRecord "event_type must be nonempty")
  else if r.payloadRoot = "" then .error (.invalidEventRecord "payload_root must be nonempty")
  else if r.authority = "" then .error (.invalidEventRecord "authority must be nonempty")
  else .ok ()

def EventRecord.create (seq : ℕ) (parentRoot : Sha256Digest) (eventType payloadRoot authority : String) :
    Except IdentityKernelError EventRecord := do
  let record : EventRecord := ⟨seq, parentRoot, eventType, payloadRoot, authority⟩
  record.validate
  return record

def EventRecord.json : Json :=
  .obj [("authority", .text r.authority), ("event_type", .text r.eventType), ("parent_root", r.parentRoot.json),
    ("payload_root", .text r.payloadRoot), ("seq", .nat r.seq)]

theorem EventRecord.json_inj : Function.Injective EventRecord.json := by
  rintro ⟨seq, parent, event, payload, authority⟩ ⟨seq', parent', event', payload', authority'⟩ h
  simp only [json, Json.obj.injEq, List.cons.injEq, Prod.mk.injEq, Json.text_inj, Json.nat_inj, true_and, and_true] at h
  obtain ⟨rfl, rfl, hparent, rfl, rfl⟩ := h
  rw [Sha256Digest.json_inj hparent]

def EventRecord.canonicalBytes : Except IdentityKernelError (List UInt8) :=
  canonicalObjectBytes .eventRecord rootedAbiVersion r.json

def eventLogGenesisDomain : List UInt8 := utf8Bytes "zerostack.eventlog.genesis" ++ [0]

structure EventLog where
  records : List EventRecord
  deriving DecidableEq

section Log
variable (sha256 : List UInt8 → Sha256Digest) (r : EventRecord)

def EventRecord.recordRoot : Except IdentityKernelError Sha256Digest := do
  let bytes ← r.canonicalBytes
  objectRoot sha256 .eventRecord rootedAbiVersion bytes

def eventLogGenesis : Sha256Digest := sha256 eventLogGenesisDomain

namespace EventLog

def new : EventLog := ⟨[]⟩

variable (log : EventLog)

def head : Except IdentityKernelError Sha256Digest :=
  match log.records.getLast? with
  | some record => record.recordRoot sha256
  | none => .ok (eventLogGenesis sha256)

def append (eventType payloadRoot authority : String) : Except IdentityKernelError (EventRecord × EventLog) := do
  let parentRoot ← log.head sha256
  let record ← EventRecord.create log.records.length parentRoot eventType payloadRoot authority
  return (record, ⟨log.records ++ [record]⟩)

def replayFrom : Sha256Digest → List EventRecord → Except IdentityKernelError Sha256Digest
  | running, [] => .ok running
  | running, r :: rest =>
    if r.seq ≠ 0 ∧ r.parentRoot ≠ running then .error (.reorderedEventLog r.seq running r.parentRoot)
    else if r.seq = 0 ∧ r.parentRoot ≠ eventLogGenesis sha256 then
      .error (.reorderedEventLog 0 (eventLogGenesis sha256) r.parentRoot)
    else do
      let running ← r.recordRoot sha256
      replayFrom running rest

def replay (records : List EventRecord) : Except IdentityKernelError Sha256Digest :=
  replayFrom sha256 (eventLogGenesis sha256) records

def verifyChain : Except IdentityKernelError Sha256Digest := replay sha256 log.records

def verifyChainAgainst (sealedHead : Sha256Digest) : Except IdentityKernelError Unit := do
  let replayed ← log.verifyChain sha256
  if replayed ≠ sealedHead then .error (.tornEventLog log.records.length sealedHead replayed)
  else .ok ()

end EventLog

def EventRecord.preimage : List UInt8 := rootPreimage .eventRecord rootedAbiVersion r.json.canonical

def EventRecord.root : Sha256Digest := sha256 r.preimage

inductive Appended : EventLog → Prop
  | new : Appended .new
  | append {log log' : EventLog} {eventType payloadRoot authority : String} {record : EventRecord} :
    Appended log → log.append sha256 eventType payloadRoot authority = .ok (record, log') → Appended log'

variable {sha256}

theorem EventRecord.recordRoot_eq (r : EventRecord) : r.recordRoot sha256 = .ok (r.root sha256) := by
  exact bind_ok rfl (if_neg (not_not.mpr rfl))

theorem EventLog.head_eq (log : EventLog) :
    log.head sha256 = .ok (Linked.head (EventRecord.root sha256) (eventLogGenesis sha256) log.records) := by
  unfold EventLog.head
  cases hlast : log.records.getLast? with
  | none => simp [Linked.head, hlast]
  | some record => simp [Linked.head, hlast, EventRecord.recordRoot_eq]

def Follows (sha256 : List UInt8 → Sha256Digest) (running : Sha256Digest) (r : EventRecord) : Prop :=
  r.parentRoot = if r.seq = 0 then eventLogGenesis sha256 else running

def Named (sha256 : List UInt8 → Sha256Digest) : Sha256Digest → List EventRecord → Prop
  | _, [] => True
  | running, r :: rest => Follows sha256 running r ∧ Named sha256 (r.root sha256) rest

variable {records : List EventRecord}

theorem replayFrom_eq_ok {running h : Sha256Digest} : EventLog.replayFrom sha256 running records = .ok h ↔
    Named sha256 running records ∧ h = Linked.head (EventRecord.root sha256) running records := by
  induction records generalizing running with
  | nil =>
    simp only [EventLog.replayFrom, Except.ok.injEq, Named, true_and]
    exact eq_comm
  | cons r rest ih =>
    have hgo : (do
        let running ← Except.ok (r.root sha256)
        EventLog.replayFrom sha256 running rest) = EventLog.replayFrom sha256 (r.root sha256) rest := rfl
    rw [EventLog.replayFrom, EventRecord.recordRoot_eq, hgo, Linked.head_cons, Named, Follows, and_assoc, ← ih]
    by_cases hseq : r.seq = 0
    · by_cases hparent : r.parentRoot = eventLogGenesis sha256 <;> simp [hseq, hparent]
    · by_cases hparent : r.parentRoot = running <;> simp [hseq, hparent]

theorem replay_isOk : (∃ h, EventLog.replay sha256 records = .ok h) ↔
    Named sha256 (eventLogGenesis sha256) records := by
  constructor
  · rintro ⟨h, hok⟩
    exact (replayFrom_eq_ok.mp hok).1
  · intro hnamed
    exact ⟨_, replayFrom_eq_ok.mpr ⟨hnamed, rfl⟩⟩

theorem named_append {running : Sha256Digest} {front back : List EventRecord} :
    Named sha256 running (front ++ back) ↔ Named sha256 running front ∧
      Named sha256 (Linked.head (EventRecord.root sha256) running front) back := by
  induction front generalizing running with
  | nil => exact (and_iff_right trivial).symm
  | cons r rest ih => rw [cons_append, Named, Named, ih, Linked.head_cons, and_assoc]

theorem named_iff_chained {running : Sha256Digest} (hseq : ∀ r ∈ records, r.seq ≠ 0) :
    Named sha256 running records ↔ Chained (EventRecord.root sha256) EventRecord.parentRoot running records := by
  induction records generalizing running with
  | nil => exact Iff.rfl
  | cons r rest ih =>
    rw [Named, Chained, Follows, if_neg (hseq r mem_cons_self), ih fun r hr => hseq r (mem_cons_of_mem _ hr)]

def Numbered (records : List EventRecord) : Prop :=
  ∀ (i : ℕ) (r : EventRecord), records[i]? = some r → r.seq = i

theorem Numbered.tail {r : EventRecord} (h : Numbered (r :: records)) : r.seq = 0 ∧ ∀ s ∈ records, s.seq ≠ 0 := by
  refine ⟨h 0 r rfl, fun s hs => ?_⟩
  obtain ⟨i, hi⟩ := getElem?_of_mem hs
  rw [h (i + 1) s hi]
  exact Nat.succ_ne_zero i

theorem Numbered.named_iff (h : Numbered records) (hne : records ≠ []) (running : Sha256Digest) :
    Named sha256 running records ↔
      Chained (EventRecord.root sha256) EventRecord.parentRoot (eventLogGenesis sha256) records := by
  obtain ⟨r, rest, rfl⟩ := exists_cons_of_ne_nil hne
  obtain ⟨hzero, hlater⟩ := h.tail
  rw [Named, Chained, Follows, if_pos hzero, named_iff_chained hlater]

theorem Named.split {running : Sha256Digest} (h : Named sha256 running records) :
    Chained (EventRecord.root sha256) EventRecord.parentRoot running records ∨
      ∃ front back, records = front ++ back ∧ back ≠ [] ∧ Named sha256 running front ∧
        Chained (EventRecord.root sha256) EventRecord.parentRoot (eventLogGenesis sha256) back := by
  induction records generalizing running with
  | nil => exact .inl trivial
  | cons r rest ih =>
    obtain ⟨hfollows, hrest⟩ := h
    rcases ih hrest with hchained | ⟨front, back, rfl, hne, hfront, hback⟩
    · by_cases hzero : r.seq = 0
      · rw [Follows, if_pos hzero] at hfollows
        exact .inr ⟨[], r :: rest, rfl, cons_ne_nil _ _, trivial, hfollows, hchained⟩
      · rw [Follows, if_neg hzero] at hfollows
        exact .inl ⟨hfollows, hchained⟩
    · exact .inr ⟨r :: front, back, rfl, hne, ⟨hfollows, hfront⟩, hback⟩

theorem append_eq_ok {log log' : EventLog} {eventType payloadRoot authority : String} {record : EventRecord}
    (h : log.append sha256 eventType payloadRoot authority = .ok (record, log')) :
    log'.records = log.records ++ [record] ∧ record.seq = log.records.length ∧
      record.parentRoot = Linked.head (EventRecord.root sha256) (eventLogGenesis sha256) log.records := by
  obtain ⟨parent, hparent, h⟩ := bind_eq_ok.mp h
  obtain ⟨created, hcreate, h⟩ := bind_eq_ok.mp h
  obtain ⟨-, -, hcreated⟩ := bind_eq_ok.mp hcreate
  rw [EventLog.head_eq] at hparent
  cases hparent
  cases hcreated
  cases h
  exact ⟨rfl, rfl, rfl⟩

theorem Appended.chained {log : EventLog} (h : Appended sha256 log) :
    Chained (EventRecord.root sha256) EventRecord.parentRoot (eventLogGenesis sha256) log.records := by
  induction h with
  | new => trivial
  | append hlog happend ih =>
    obtain ⟨hrecords, -, hparent⟩ := append_eq_ok happend
    rw [hrecords]
    exact chained_concat.mpr ⟨ih, hparent⟩

theorem Appended.numbered {log : EventLog} (h : Appended sha256 log) : Numbered log.records := by
  induction h with
  | new => exact fun i r hr => nomatch hr
  | @append log log' _ _ _ record hlog happend ih =>
    obtain ⟨hrecords, hseq, -⟩ := append_eq_ok happend
    intro i r hr
    rw [hrecords, getElem?_append] at hr
    split_ifs at hr with hlt
    · exact ih i r hr
    · obtain ⟨hi, rfl⟩ := List.getElem?_eq_some_iff.mp hr
      rw [length_singleton] at hi
      simp only [getElem_singleton]
      omega

def hashed (records : List EventRecord) : List (List UInt8) := eventLogGenesisDomain :: records.map EventRecord.preimage

theorem genesis_ne_preimage (r : EventRecord) : eventLogGenesisDomain ≠ r.preimage := by
  intro h
  have hfirst : r.preimage.head? = some 115 := rfl
  rw [← h] at hfirst
  exact absurd hfirst (by decide)

theorem preimage_inj : Function.Injective EventRecord.preimage := fun _ _ h =>
  EventRecord.json_inj (Json.canonical_inj (append_cancel_left h))

theorem eq_of_root_eq {xs ys : List EventRecord} (hsha : Set.InjOn sha256 { bytes | bytes ∈ hashed (xs ++ ys) })
    (hx : Chained (EventRecord.root sha256) EventRecord.parentRoot (eventLogGenesis sha256) xs)
    (hy : Chained (EventRecord.root sha256) EventRecord.parentRoot (eventLogGenesis sha256) ys)
    (hhead : Linked.head (EventRecord.root sha256) (eventLogGenesis sha256) xs =
      Linked.head (EventRecord.root sha256) (eventLogGenesis sha256) ys) : xs = ys := by
  have hmem : ∀ r, r ∈ xs ∨ r ∈ ys → r.preimage ∈ hashed (xs ++ ys) := fun r hr =>
    mem_cons_of_mem _ (mem_map_of_mem (mem_append.mpr hr))
  refine eq_of_head_eq ?_ ?_ hx hy hhead
  · intro r hr s hs hroot
    exact preimage_inj (hsha (hmem r hr) (hmem s hs) hroot)
  · intro r hr hroot
    exact genesis_ne_preimage r (hsha mem_cons_self (hmem r hr) hroot.symm)

theorem verifyChainAgainst_eq_ok {sealedHead : Sha256Digest} :
    (⟨records⟩ : EventLog).verifyChainAgainst sha256 sealedHead = .ok () ↔
      EventLog.replay sha256 records = .ok sealedHead := by
  rw [EventLog.verifyChainAgainst, bind_eq_ok]
  constructor
  · rintro ⟨replayed, hreplay, hcheck⟩
    obtain ⟨hsame, -⟩ := guard_eq_ok.mp hcheck
    rw [← not_not.mp hsame]
    exact hreplay
  · intro hreplay
    exact ⟨sealedHead, hreplay, if_neg (not_not.mpr rfl)⟩

end Log

def Valid (sha256 : List UInt8 → Sha256Digest) (records : List EventRecord) : Prop :=
  ∀ (i : ℕ) (r : EventRecord), records[i]? = some r → r.seq = i ∧
    r.parentRoot = Linked.head (EventRecord.root sha256) (eventLogGenesis sha256) (records.take i)

theorem valid_iff {sha256 : List UInt8 → Sha256Digest} {records : List EventRecord} :
    Valid sha256 records ↔ Numbered records ∧ Named sha256 (eventLogGenesis sha256) records := by
  have hsplit : Valid sha256 records ↔ Numbered records ∧
      Chained (EventRecord.root sha256) EventRecord.parentRoot (eventLogGenesis sha256) records := by
    rw [chained_iff_getElem?]
    exact ⟨fun h => ⟨fun i r hr => (h i r hr).1, fun i r hr => (h i r hr).2⟩, fun h i r hr => ⟨h.1 i r hr, h.2 i r hr⟩⟩
  rw [hsplit]
  refine and_congr_right fun hnumbered => ?_
  by_cases hne : records = []
  · subst hne
    exact Iff.rfl
  · exact (hnumbered.named_iff hne _).symm

theorem accepted_split {sha256 : List UInt8 → Sha256Digest} {records : List EventRecord} {log : EventLog}
    (happended : Appended sha256 log) (hsha : Set.InjOn sha256 { bytes | bytes ∈ hashed (records ++ log.records) })
    (hnamed : Named sha256 (eventLogGenesis sha256) records)
    (hhead : Linked.head (EventRecord.root sha256) (eventLogGenesis sha256) records =
      Linked.head (EventRecord.root sha256) (eventLogGenesis sha256) log.records) :
    records = log.records ∨ ∃ front, log.records ≠ [] ∧ Named sha256 (eventLogGenesis sha256) front ∧
      records = front ++ log.records := by
  rcases hnamed.split with hchained | ⟨front, back, rfl, hne, hfront, hback⟩
  · exact .inl (eq_of_root_eq hsha hchained happended.chained hhead)
  · obtain rfl : back = log.records := by
      refine eq_of_root_eq (hsha.mono fun bytes hbytes => ?_) hback happended.chained ?_
      · simp only [Set.mem_ofPred_eq, hashed, mem_cons, map_append, mem_append] at hbytes ⊢
        tauto
      · rw [← hhead, Linked.head_append_of_ne_nil hne]
    exact .inr ⟨front, hne, hfront, rfl⟩

/-- Records replay exactly if they are valid, unless they are named but not numbered. No list passes for a log that
appends have built but the log's own, unless it is that of the log with further named records before it. -/
theorem event_log_integrity (sha256 : List UInt8 → Sha256Digest) (records : List EventRecord) :
    (((∃ h, EventLog.replay sha256 records = .ok h) ↔ Valid sha256 records) ↔
      ¬ (Named sha256 (eventLogGenesis sha256) records ∧ ¬ Numbered records)) ∧
    ∀ (log : EventLog) (sealedHead : Sha256Digest), Appended sha256 log → log.head sha256 = .ok sealedHead →
      Set.InjOn sha256 { bytes | bytes ∈ hashed (records ++ log.records) } →
        (((⟨records⟩ : EventLog).verifyChainAgainst sha256 sealedHead = .ok () → records = log.records) ↔
          ¬ ∃ front, front ≠ [] ∧ log.records ≠ [] ∧ Named sha256 (eventLogGenesis sha256) front ∧
            records = front ++ log.records) := by
  constructor
  · rw [replay_isOk, valid_iff]
    tauto
  · intro log sealedHead happended hhead hsha
    rw [EventLog.head_eq] at hhead
    obtain rfl := Except.ok.inj hhead
    rw [verifyChainAgainst_eq_ok, EventLog.replay, replayFrom_eq_ok]
    constructor
    · rintro hown ⟨front, hfront, hne, hnamed, rfl⟩
      have hlog := fun running => (happended.numbered.named_iff hne running).mpr happended.chained
      have hsame := hown ⟨named_append.mpr ⟨hnamed, hlog _⟩, (Linked.head_append_of_ne_nil hne _).symm⟩
      exact hfront (append_left_eq_self.mp hsame)
    · rintro hnone ⟨hnamed, hsealed⟩
      rcases accepted_split happended hsha hnamed hsealed.symm with hsame | ⟨front, hne, hfront, hrecords⟩
      · exact hsame
      · by_contra hother
        refine hnone ⟨front, ?_, hne, hfront, hrecords⟩
        rintro rfl
        exact hother hrecords

def tailDigest (bytes : List UInt8) : Sha256Digest := BitVec.ofNat 256 (ofBe bytes)

def firstRecord : EventRecord := ⟨0, eventLogGenesis tailDigest, "commit", "a", "hub"⟩

def secondRecord : EventRecord := ⟨1, firstRecord.root tailDigest, "commit", "b", "hub"⟩

theorem appended_first : Appended tailDigest ⟨[firstRecord]⟩ := by
  have happend : EventLog.append tailDigest .new "commit" "a" "hub" = .ok (firstRecord, ⟨[firstRecord]⟩) := by
    decide +kernel
  exact .append .new happend

theorem appended_both : Appended tailDigest ⟨[firstRecord, secondRecord]⟩ := by
  have happend : EventLog.append tailDigest ⟨[firstRecord]⟩ "commit" "b" "hub" =
      .ok (secondRecord, ⟨[firstRecord, secondRecord]⟩) := by decide +kernel
  exact .append appended_first happend

theorem two_records_integrity : Valid tailDigest [firstRecord, secondRecord] ∧
    [firstRecord, secondRecord] = (⟨[firstRecord, secondRecord]⟩ : EventLog).records := by
  have hintegrity := event_log_integrity tailDigest [firstRecord, secondRecord]
  have hreplay : EventLog.replay tailDigest [firstRecord, secondRecord] = .ok (secondRecord.root tailDigest) := by
    decide +kernel
  refine ⟨(hintegrity.1.mpr fun h => h.2 appended_both.numbered).mp ⟨_, hreplay⟩, ?_⟩
  refine (hintegrity.2 ⟨[firstRecord, secondRecord]⟩ (secondRecord.root tailDigest) appended_both ?_ ?_).mpr ?_ ?_
  · decide +kernel
  · exact injOn_of_nodup_map (show ((hashed [firstRecord, secondRecord]).map tailDigest).Nodup by decide +kernel)
      (by simp [hashed])
  · rintro ⟨front, hfront, -, -, hrecords⟩
    exact hfront (append_left_eq_self.mp hrecords.symm)
  · exact verifyChainAgainst_eq_ok.mpr hreplay

def stranger : EventRecord := ⟨0, eventLogGenesis tailDigest, "commit", "z", "hub"⟩

/-- A record put before the log's own goes unnoticed against the sealed head, and a first record numbered seven
replays. -/
theorem inserted_record_unnoticed : Appended tailDigest ⟨[firstRecord]⟩ ∧
    (⟨[firstRecord]⟩ : EventLog).head tailDigest = .ok (firstRecord.root tailDigest) ∧
    Set.InjOn tailDigest { bytes | bytes ∈ hashed ([stranger, firstRecord] ++ [firstRecord]) } ∧
    (⟨[stranger, firstRecord]⟩ : EventLog).verifyChainAgainst tailDigest (firstRecord.root tailDigest) = .ok () ∧
    [stranger, firstRecord] ≠ [firstRecord] ∧ EventLog.replay tailDigest [{ firstRecord with seq := 7 }] =
      .ok (EventRecord.root tailDigest { firstRecord with seq := 7 }) := by
  refine ⟨appended_first, by decide +kernel, ?_, by decide +kernel, by decide +kernel, by decide +kernel⟩
  exact injOn_of_nodup_map (show ((hashed [stranger, firstRecord]).map tailDigest).Nodup by decide +kernel)
    (by simp [hashed])

end Zero.Identity
