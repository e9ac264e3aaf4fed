import ZeroStack.Reserve.Exclusion

/-! What a declaration leaves in the ledger: a record of the present footprint, where the first record under the id is
not an older one. -/

namespace GraphZero.Reserve

def ReservationLedger.first (ledger : ReservationLedger) (rid : String) : Option IntentReservation :=
  ledger.records.find? (·.reservationId = rid)

section Condition
variable (service : ReserveService) (req : DeclareRequest) (fp : FootprintSnapshot) (now : UInt64)
  (ledger : ReservationLedger)

/-- The record a declaration copies has the nodes of the snapshot, and is active if the reservation is. -/
structure Refreshable : Prop where
  nodes : ∀ r ∈ ledger.first (service.idFor req.agentId req.intentOps), r.status.isOpen →
    r.contractNodes = fp.contractNodes
  active : ∀ s ∈ ledger.active service.repoId now, s.reservationId = service.idFor req.agentId req.intentOps →
    ∃ r ∈ ledger.first (service.idFor req.agentId req.intentOps), r.status = .active ∧ r.repoId = service.repoId
  fits : now.toNat + (minTtl req.ttlSeconds).toNat < 2 ^ 64

def Refreshed (rid : String) (after : ReservationLedger) : Prop :=
  ∃ r, after.Last r ∧ r.reservationId = rid ∧ r.contractNodes = fp.contractNodes ∧
    r.expiresAt.toNat = now.toNat + (minTtl req.ttlSeconds).toNat ∧
    ((∃ s ∈ ledger.active service.repoId now, s.reservationId = rid) → r ∈ after.active service.repoId now)

end Condition

variable {service : ReserveService} {req : DeclareRequest} {fp : FootprintSnapshot} {now : UInt64}
  {ledger after : ReservationLedger} {response : DeclareResponse}

theorem declare_appends (hok : declare service req (.ok fp) now ledger = (.ok response, after)) :
    response.reservationId = service.idFor req.agentId req.intentOps ∧ ∃ r, after = ledger.append r ∧
      r.reservationId = response.reservationId ∧ r.expiresAt = now + minTtl req.ttlSeconds ∧
      ((∃ first ∈ ledger.first response.reservationId, first.status.isOpen ∧ r.status = first.status ∧
          r.repoId = first.repoId ∧ r.contractNodes = first.contractNodes) ∨
        (∀ first ∈ ledger.first response.reservationId, ¬ first.status.isOpen) ∧ r.status = .declared ∧
          r.contractNodes = fp.contractNodes) := by
  unfold declare at hok
  cases hvalid : validateDeclareRequest req with
  | error e =>
    rw [hvalid] at hok
    cases hok
  | ok =>
    rw [hvalid] at hok
    dsimp only at hok
    rw [tryRefreshExistingDeclare] at hok
    cases hfirst : ledger.records.find? (·.reservationId = service.idFor req.agentId req.intentOps) with
    | none =>
      rw [hfirst] at hok
      cases hok
      refine ⟨rfl, _, rfl, rfl, rfl, .inr ⟨fun first hmem => ?_, rfl, rfl⟩⟩
      cases hfirst.symm.trans hmem
    | some first =>
      rw [hfirst] at hok
      have hopen : first.status.isOpen ↔ ¬(first.status ≠ .active ∧ first.status ≠ .declared) := by
        cases first.status <;> decide
      dsimp only at hok
      split_ifs at hok with hclosed
      · cases hok
        refine ⟨rfl, _, rfl, rfl, rfl, .inr ⟨fun other hmem => ?_, rfl, rfl⟩⟩
        cases hfirst.symm.trans hmem
        exact fun h => hopen.mp h hclosed
      · cases hok
        have hid := List.find?_some hfirst
        exact ⟨rfl, _, rfl, of_decide_eq_true hid, rfl, .inl ⟨first, hfirst, hopen.mpr hclosed, rfl, rfl, rfl⟩⟩

theorem refreshed_append_iff {r : IntentReservation} {rid : String} (hid : r.reservationId = rid) :
    Refreshed service req fp now ledger rid (ledger.append r) ↔ r.contractNodes = fp.contractNodes ∧
      r.expiresAt.toNat = now.toNat + (minTtl req.ttlSeconds).toNat ∧
      ((∃ s ∈ ledger.active service.repoId now, s.reservationId = rid) →
        r.repoId = service.repoId ∧ r.status = .active ∧ now < r.expiresAt) := by
  have hlast : (ledger.append r).Last r := ReservationLedger.last_append.mpr (.inl rfl)
  constructor
  · rintro ⟨newest, hnewest, hnewestId, hrest⟩
    obtain rfl : newest = r := by
      rcases ReservationLedger.last_append.mp hnewest with heq | ⟨hne, -⟩
      · exact heq
      · exact absurd (hnewestId.trans hid.symm) hne
    exact ⟨hrest.1, hrest.2.1, fun hs => (ReservationLedger.mem_active.mp (hrest.2.2 hs)).2⟩
  · rintro ⟨hnodes, hexpires, hactive⟩
    exact ⟨r, hlast, hid, hnodes, hexpires, fun hs => ReservationLedger.mem_active.mpr ⟨hlast, hactive hs⟩⟩

theorem expires_iff : (now + minTtl req.ttlSeconds).toNat = now.toNat + (minTtl req.ttlSeconds).toNat ↔
    now.toNat + (minTtl req.ttlSeconds).toNat < 2 ^ 64 := by
  rw [UInt64.toNat_add]
  omega

theorem lt_expires (hfits : now.toNat + (minTtl req.ttlSeconds).toNat < 2 ^ 64) :
    now < now + minTtl req.ttlSeconds := by
  have hpos : 60 ≤ (minTtl req.ttlSeconds).toNat := by
    unfold minTtl
    split_ifs with hlong
    · exact UInt64.le_iff_toNat_le.mp hlong
    · decide
  rw [UInt64.lt_iff_toNat_lt, expires_iff.mpr hfits]
  omega

/-- A declaration refreshes the reservation, exactly where the first record under the id is of the present. -/
theorem declare_refreshes (hok : declare service req (.ok fp) now ledger = (.ok response, after)) :
    Refreshed service req fp now ledger response.reservationId after ↔ Refreshable service req fp now ledger := by
  obtain ⟨hrid, r, rfl, hid, hexpires, hcopied⟩ := declare_appends hok
  rw [refreshed_append_iff hid, hexpires, expires_iff]
  rw [hrid] at hcopied ⊢
  rcases hcopied with ⟨first, hfirst, hopen, hstatus, hrepo, hnodes⟩ | ⟨hclosed, hstatus, hnodes⟩
  · rw [hstatus, hrepo, hnodes]
    constructor
    · rintro ⟨hsame, hfits, hactive⟩
      refine ⟨fun other hother _ => ?_, fun s hs hsid => ?_, hfits⟩
      · cases hfirst.symm.trans hother
        exact hsame
      · obtain ⟨hhere, hon, -⟩ := hactive ⟨s, hs, hsid⟩
        exact ⟨first, hfirst, hon, hhere⟩
    · intro h
      refine ⟨h.nodes first hfirst hopen, h.fits, ?_⟩
      rintro ⟨s, hs, hsid⟩
      obtain ⟨other, hother, hon, hhere⟩ := h.active s hs hsid
      cases hfirst.symm.trans hother
      exact ⟨hhere, hon, lt_expires h.fits⟩
  · -- a new record is declared, so that nothing may be active under the id
    constructor
    · rintro ⟨-, hfits, hactive⟩
      refine ⟨fun other hother hopen => absurd hopen (hclosed other hother), fun s hs hsid => ?_, hfits⟩
      have hon := (hactive ⟨s, hs, hsid⟩).2.1
      rw [hstatus] at hon
      cases hon
    · intro h
      refine ⟨hnodes, h.fits, ?_⟩
      rintro ⟨s, hs, hsid⟩
      obtain ⟨other, hother, hon, -⟩ := h.active s hs hsid
      exact absurd (hon ▸ rfl) (hclosed other hother)

def ledgerAfter (events : List Event) : ReservationLedger := ((State.fresh 1000).run sampleService events).ledger

def acquiring : Event := .check "a" sampleOps true none (.ok sampleFootprint) 1000

theorem declare_refreshes_active : ∃ r ∈ (declare sampleService ⟨"a", sampleOps, 600⟩ (.ok sampleFootprint) 1000
    (ledgerAfter [acquiring])).2.active "/repo" 1000, r.expiresAt.toNat = 1600 := by
  have h : Refreshable sampleService ⟨"a", sampleOps, 600⟩ sampleFootprint 1000 (ledgerAfter [acquiring]) := by
    refine ⟨fun r hr _ => ?_, fun s _ _ => ⟨_, rfl, rfl, rfl⟩, by decide⟩
    cases hr
    rfl
  obtain ⟨r, -, -, -, hexpires, hactive⟩ := (declare_refreshes rfl).mpr h
  exact ⟨r, hactive (by decide +kernel), hexpires⟩

/-- `a` declares, acquires, and declares again when its operations concern another node. The first record is copied: the
reservation is no longer active and has the nodes of the first snapshot. -/
theorem declare_keeps_old :
    let ledger := ledgerAfter [.declare ⟨"a", sampleOps, 600⟩ (.ok sampleFootprint) 1000, acquiring]
    let after := (declare sampleService ⟨"a", sampleOps, 600⟩ (.ok { sampleFootprint with contractNodes := ["node/h"] })
      1000 ledger).2
    (ledger.active "/repo" 1000).length = 1 ∧ after.active "/repo" 1000 = [] ∧
      after.records.getLast?.map (·.contractNodes) = some ["node/f", "node/g"] := by
  decide +kernel

end GraphZero.Reserve
