import ZeroStack.Sorted.LastWrites

/-! The reservation ledger: an append-only list in which the last record of a reservation counts, as expired if it is
declared or active and past its time. -/

open Sorted

namespace GraphZero.Reserve

def schemaVersion : UInt32 := 1

inductive ReservationStatus where
  | declared
  | active
  | released
  | expired
  deriving DecidableEq

structure IntentOperation where
  kind : String
  targetSymbol : Option String
  intentText : Option String
  deriving DecidableEq

structure IntentReservation where
  schemaVersion : UInt32
  reservationId : String
  repoId : String
  agentId : String
  intentOps : List IntentOperation
  footprintRef : String
  evidenceRefs : List String
  ttlSeconds : UInt64
  status : ReservationStatus
  createdAt : UInt64
  expiresAt : UInt64
  contractNodes : List String
  deriving DecidableEq

def ReservationStatus.isOpen : ReservationStatus → Bool
  | .active | .declared => true
  | .released | .expired => false

structure ReservationLedger where
  records : List IntentReservation
  tip : Std.TreeMap String IntentReservation
  tip_eq : tip = lastWrites IntentReservation.reservationId records

namespace ReservationLedger

def ofRecords (records : List IntentReservation) : ReservationLedger := ⟨records, lastWrites _ records, rfl⟩

variable (ledger : ReservationLedger)

def append (record : IntentReservation) : ReservationLedger :=
  ⟨ledger.records ++ [record], ledger.tip.insert record.reservationId record, by
    rw [ledger.tip_eq, lastWrites_concat]⟩

def expire (now : UInt64) (r : IntentReservation) : IntentReservation :=
  if r.status.isOpen ∧ r.expiresAt ≤ now then { r with status := .expired } else r

def materialized (now : UInt64) : List IntentReservation :=
  (tips ledger.tip).map (expire now)

def active (repoId : String) (now : UInt64) : List IntentReservation :=
  (ledger.materialized now).filter fun r => r.repoId = repoId ∧ r.status = .active

def blockingForConflict (repoId : String) (now : UInt64) : List IntentReservation :=
  (ledger.materialized now).filter fun r => r.repoId = repoId ∧ r.status.isOpen

end ReservationLedger

section Expire
variable {now later : UInt64} {r : IntentReservation}

open ReservationLedger

theorem expire_of_lt (h : now < r.expiresAt) : expire now r = r :=
  if_neg fun hover => UInt64.not_lt.mpr hover.2 h

theorem status_expire_active (h : (expire now r).status = .active) : r.status = .active ∧ now < r.expiresAt := by
  unfold expire at h
  split_ifs at h with hover
  exact ⟨h, UInt64.not_le.mp fun hle => hover ⟨by rw [h]; rfl, hle⟩⟩

end Expire

namespace ReservationLedger
variable {ledger : ReservationLedger} {repoId : String} {now later : UInt64} {r s : IntentReservation}

def Last (ledger : ReservationLedger) (r : IntentReservation) : Prop := r ∈ tips ledger.tip

theorem last_append : (ledger.append r).Last s ↔ s = r ∨ (s.reservationId ≠ r.reservationId ∧ ledger.Last s) := by
  unfold Last
  rw [(ledger.append r).tip_eq, ledger.tip_eq]
  exact mem_tips_concat

theorem mem_active : r ∈ ledger.active repoId now ↔
    ledger.Last r ∧ r.repoId = repoId ∧ r.status = .active ∧ now < r.expiresAt := by
  rw [active, List.mem_filter, materialized, List.mem_map]
  constructor
  · rintro ⟨⟨s, hs, rfl⟩, hfilter⟩
    obtain ⟨hrepo, hactive⟩ := of_decide_eq_true hfilter
    obtain ⟨hstatus, hlt⟩ := status_expire_active hactive
    rw [expire_of_lt hlt] at hrepo ⊢
    exact ⟨hs, hrepo, hstatus, hlt⟩
  · rintro ⟨hlast, hrepo, hstatus, hlt⟩
    exact ⟨⟨r, hlast, expire_of_lt hlt⟩, decide_eq_true ⟨hrepo, hstatus⟩⟩

theorem active_of_later (hle : now ≤ later) (h : r ∈ ledger.active repoId later) : r ∈ ledger.active repoId now := by
  obtain ⟨hlast, hrepo, hstatus, hlt⟩ := mem_active.mp h
  exact mem_active.mpr ⟨hlast, hrepo, hstatus, UInt64.lt_of_le_of_lt hle hlt⟩

theorem blocking_of_active (h : r ∈ ledger.active repoId now) : r ∈ ledger.blockingForConflict repoId now := by
  obtain ⟨hmem, hfilter⟩ := List.mem_filter.mp h
  obtain ⟨hrepo, hactive⟩ := of_decide_eq_true hfilter
  exact List.mem_filter.mpr ⟨hmem, decide_eq_true ⟨hrepo, by rw [hactive]; rfl⟩⟩

theorem active_append (h : s ∈ (ledger.append r).active repoId now) :
    (s = r ∧ r.status = .active) ∨ s ∈ ledger.active repoId now := by
  obtain ⟨hlast, hrest⟩ := mem_active.mp h
  rcases last_append.mp hlast with rfl | ⟨-, hbefore⟩
  · exact .inl ⟨rfl, hrest.2.1⟩
  · exact .inr (mem_active.mpr ⟨hbefore, hrest⟩)

end ReservationLedger
end GraphZero.Reserve
