import Mathlib.Data.List.Dedup
import ZeroStack.Reserve.Ledger
import ZeroStack.Wire.Decimal
import ZeroStack.Wire.Hex

/-! The calls of the reservation service. Each of them runs under the ledger's lock on a ledger replayed there, with
the time and the footprint it has taken before. -/

open Wire List

namespace GraphZero.Reserve

inductive ReserveError where
  | validation (text : String)
  | notFound (text : String)
  | store (text : String)
  deriving DecidableEq

structure FootprintSnapshot where
  footprintRef : String
  targetSymbol : String
  contractNodes : List String
  evidenceRefs : List String
  tierAPercent : ℚ
  deriving DecidableEq

structure DeclareRequest where
  agentId : String
  intentOps : List IntentOperation
  ttlSeconds : UInt64
  deriving DecidableEq

structure DeclareResponse where
  reservationId : String
  footprintRef : String
  status : ReservationStatus
  ttlSeconds : UInt64
  expiresAt : UInt64
  evidenceRefs : List String
  deriving DecidableEq

structure ConflictGraphEdge where
  fromReservationId : String
  toAgentId : String
  node : String
  evidenceRef : String
  deriving DecidableEq

inductive Verdict where
  | conflict
  | unknown
  | clear
  deriving DecidableEq

structure ReservationCheckResponse where
  verdict : Verdict
  overlapNodes : List String
  evidenceRefs : List String
  conflictEdges : List ConflictGraphEdge
  coverage : Option ℚ
  certificate : Option (ℚ × ℚ)
  blockingReservationIds : List String
  deriving DecidableEq

structure ReserveService where
  repoId : String
  intentDigest : String → List IntentOperation → List UInt8

def reservationId (agent : String) (intentHash : List UInt8) : String :=
  "res_" ++ agent ++ "_" ++ String.ofList (hexChars (intentHash.take 8))

variable (service : ReserveService)

def ReserveService.idFor (agent : String) (ops : List IntentOperation) : String :=
  reservationId agent (service.intentDigest agent ops)

def minTtl (ttl : UInt64) : UInt64 := if 60 ≤ ttl then ttl else 60

def validateDeclareRequest (req : DeclareRequest) : Except ReserveError Unit :=
  if trim req.agentId.toList = [] then .error (.validation "agent_id required")
  else if req.intentOps = [] then .error (.validation "intent_ops required")
  else .ok ()

def declareResponse (reservationId : String) (fp : FootprintSnapshot) (ttl expiresAt : UInt64) : DeclareResponse :=
  ⟨reservationId, fp.footprintRef, .declared, ttl, expiresAt, fp.evidenceRefs⟩

variable (ledger : ReservationLedger)

/-- The first record under the id decides, not the last one, and its copy gets new time. -/
def tryRefreshExistingDeclare (rid : String) (now ttl : UInt64) (fp : FootprintSnapshot) :
    Option (DeclareResponse × ReservationLedger) :=
  match ledger.records.find? (·.reservationId = rid) with
  | none => none
  | some existing =>
    if existing.status ≠ .active ∧ existing.status ≠ .declared then none
    else some (declareResponse rid fp ttl (now + ttl),
      ledger.append { existing with expiresAt := now + ttl, ttlSeconds := ttl })

def newReservation (status : ReservationStatus) (rid repo agentId : String) (ops : List IntentOperation)
    (fp : FootprintSnapshot) (now ttl : UInt64) : IntentReservation :=
  { schemaVersion := schemaVersion, reservationId := rid, repoId := repo, agentId := agentId, intentOps := ops
    footprintRef := fp.footprintRef, evidenceRefs := fp.evidenceRefs, ttlSeconds := ttl, status := status
    createdAt := now, expiresAt := now + ttl, contractNodes := fp.contractNodes }

def newDeclaredReservation := newReservation .declared

def declare (req : DeclareRequest) (footprint : Except ReserveError FootprintSnapshot)
    (now : UInt64) (ledger : ReservationLedger) : Except ReserveError DeclareResponse × ReservationLedger :=
  match validateDeclareRequest req, footprint with
  | .error e, _ => (.error e, ledger)
  | .ok (), .error e => (.error e, ledger)
  | .ok (), .ok fp =>
    let ttl := minTtl req.ttlSeconds
    let rid := service.idFor req.agentId req.intentOps
    match tryRefreshExistingDeclare ledger rid now ttl fp with
    | some (response, ledger) => (.ok response, ledger)
    | none => (.ok (declareResponse rid fp ttl (now + ttl)),
      ledger.append (newDeclaredReservation rid service.repoId req.agentId req.intentOps fp now ttl))

def evidenceRefForOverlap (active : IntentReservation) (fp : FootprintSnapshot) (node : String) : String :=
  (active.evidenceRefs.head?.or fp.evidenceRefs.head?).getD node

def overlaps (repo : String) (now : UInt64) (agentId : String) (fp : FootprintSnapshot) :
    List (IntentReservation × String) :=
  ((ledger.blockingForConflict repo now).filter (·.agentId ≠ agentId)).flatMap fun active =>
    (fp.contractNodes.dedup.filter (· ∈ active.contractNodes)).map fun node => (active, node)

def conflictOverlap (repo : String) (now : UInt64) (agentId : String)
    (fp : FootprintSnapshot) : List String × List ConflictGraphEdge × List String :=
  let hits := overlaps ledger repo now agentId fp
  (hits.map Prod.snd,
    hits.map fun hit => ⟨hit.1.reservationId, hit.1.agentId, hit.2, evidenceRefForOverlap hit.1 fp hit.2⟩,
    (hits.map (·.1.reservationId)).eraseDups)

def conflictCheckResponse (overlap : List String) (edges : List ConflictGraphEdge) (blocking : List String) :
    ReservationCheckResponse :=
  ⟨.conflict, overlap, edges.map ConflictGraphEdge.evidenceRef, edges, some 1, none, blocking⟩

variable (fp : FootprintSnapshot)

def unknownCheckResponse : ReservationCheckResponse :=
  ⟨.unknown, [], fp.evidenceRefs, [], some (fp.tierAPercent / 100), some (fp.tierAPercent, fp.tierAPercent / 100), []⟩

def clearCheckResponse : ReservationCheckResponse :=
  ⟨.clear, [], fp.evidenceRefs, [], some 1, none, []⟩

def shouldReturnUnknown : Bool := fp.tierAPercent < 100

def acquireInternalLocked (agentId : String) (ops : List IntentOperation)
    (fp : FootprintSnapshot) (now ttl : UInt64) (ledger : ReservationLedger) : Except ReserveError ReservationLedger :=
  let overlap := (conflictOverlap ledger service.repoId now agentId fp).1
  if overlap ≠ [] then
    .error (.validation ("reservation conflict while acquiring: " ++ ",".intercalate overlap))
  else .ok (ledger.append (newReservation .active (service.idFor agentId ops) service.repoId agentId ops fp now ttl))

def checkWithTtl (agentId : String) (ops : List IntentOperation) (acquire : Bool)
    (ttlSeconds : Option UInt64) (footprint : Except ReserveError FootprintSnapshot) (now : UInt64)
    (ledger : ReservationLedger) : Except ReserveError ReservationCheckResponse × ReservationLedger :=
  match footprint with
  | .error e => (.error e, ledger)
  | .ok fp =>
    let (overlap, edges, blocking) := conflictOverlap ledger service.repoId now agentId fp
    if overlap ≠ [] then (.ok (conflictCheckResponse overlap edges blocking), ledger)
    else if shouldReturnUnknown fp then (.ok (unknownCheckResponse fp), ledger)
    else if acquire then
      match acquireInternalLocked service agentId ops fp now (minTtl (ttlSeconds.getD 3600)) ledger with
      | .error e => (.error e, ledger)
      | .ok ledger => (.ok (clearCheckResponse fp), ledger)
    else (.ok (clearCheckResponse fp), ledger)

def release (agentId reservationId : String) (now : UInt64) (ledger : ReservationLedger) :
    Except ReserveError Unit × ReservationLedger :=
  match (ledger.materialized now).find? fun r => r.reservationId = reservationId ∧ r.agentId = agentId with
  | none => (.error (.notFound reservationId), ledger)
  | some r => (.ok (), ledger.append { r with status := .released })

section Spec
variable {service : ReserveService} {ledger : ReservationLedger} {now : UInt64} {fp : FootprintSnapshot}
  {footprint : Except ReserveError FootprintSnapshot} {agentId : String} {ops : List IntentOperation}

theorem disjoint_of_overlaps_nil {repo : String} (h : overlaps ledger repo now agentId fp = []) {r : IntentReservation}
    (hr : r ∈ ledger.blockingForConflict repo now) (hagent : r.agentId ≠ agentId) :
    fp.contractNodes.Disjoint r.contractNodes := by
  intro node hmine htheirs
  have hfiltered : r ∈ (ledger.blockingForConflict repo now).filter (·.agentId ≠ agentId) :=
    mem_filter.mpr ⟨hr, decide_eq_true hagent⟩
  have hshared : node ∈ fp.contractNodes.dedup.filter (· ∈ r.contractNodes) :=
    mem_filter.mpr ⟨mem_dedup.mpr hmine, decide_eq_true htheirs⟩
  have hhit : (r, node) ∈ overlaps ledger repo now agentId fp :=
    mem_flatMap.mpr ⟨r, hfiltered, mem_map_of_mem hshared⟩
  rw [h] at hhit
  exact not_mem_nil hhit

theorem checkWithTtl_ledger {acquire : Bool} {ttl : Option UInt64} :
    (checkWithTtl service agentId ops acquire ttl footprint now ledger).2 = ledger ∨
      ∃ fp, overlaps ledger service.repoId now agentId fp = [] ∧
        (checkWithTtl service agentId ops acquire ttl footprint now ledger).2 = ledger.append (newReservation .active
          (service.idFor agentId ops) service.repoId agentId ops fp now (minTtl (ttl.getD 3600))) := by
  cases footprint with
  | error e => exact .inl rfl
  | ok fp =>
    by_cases hover : (conflictOverlap ledger service.repoId now agentId fp).1 = []
    · simp only [checkWithTtl, acquireInternalLocked, hover, ne_eq, not_true_eq_false]
      cases shouldReturnUnknown fp with
      | true => exact .inl rfl
      | false =>
        cases acquire with
        | false => exact .inl rfl
        | true => exact .inr ⟨fp, map_eq_nil_iff.mp hover, rfl⟩
    · refine .inl ?_
      simp only [checkWithTtl, ne_eq, hover, not_false_eq_true, if_true]

theorem declare_ledger {req : DeclareRequest} : (declare service req footprint now ledger).2 = ledger ∨
      (∃ first, ledger.records.find? (·.reservationId = service.idFor req.agentId req.intentOps) = some first ∧
        (declare service req footprint now ledger).2 = ledger.append
          { first with expiresAt := now + minTtl req.ttlSeconds, ttlSeconds := minTtl req.ttlSeconds }) ∨
      ∃ fp, (declare service req footprint now ledger).2 = ledger.append (newDeclaredReservation
        (service.idFor req.agentId req.intentOps) service.repoId req.agentId req.intentOps fp now
          (minTtl req.ttlSeconds)) := by
  unfold declare
  cases validateDeclareRequest req with
  | error e => exact .inl rfl
  | ok u =>
    cases footprint with
    | error e => exact .inl rfl
    | ok fp =>
      right
      dsimp only
      rw [tryRefreshExistingDeclare]
      cases hfind : ledger.records.find? (·.reservationId = service.idFor req.agentId req.intentOps) with
      | none => exact .inr ⟨fp, rfl⟩
      | some first =>
        dsimp only
        split_ifs with hclosed
        · exact .inr ⟨fp, rfl⟩
        · exact .inl ⟨first, rfl, rfl⟩

theorem release_ledger {rid : String} : (release agentId rid now ledger).2 = ledger ∨
      ∃ r : IntentReservation, (release agentId rid now ledger).2 = ledger.append { r with status := .released } := by
  unfold release
  cases (ledger.materialized now).find? fun r => r.reservationId = rid ∧ r.agentId = agentId with
  | none => exact .inl rfl
  | some r => exact .inr ⟨r, rfl⟩

end Spec
end GraphZero.Reserve
