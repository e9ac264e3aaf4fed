import ZeroStack.Guarded.Runs
import ZeroStack.Reserve.Service

/-! Reservation exclusion: active reservations of different agents keep apart, as an acquisition looks at everything
that is open. A declaration that finds an active record under its id copies it without looking. -/

namespace GraphZero.Reserve

inductive Event where
  | declare (req : DeclareRequest) (footprint : Except ReserveError FootprintSnapshot) (read : UInt64)
  | check (agentId : String) (ops : List IntentOperation) (acquire : Bool) (ttlSeconds : Option UInt64)
      (footprint : Except ReserveError FootprintSnapshot) (read : UInt64)
  | release (agentId reservationId : String) (read : UInt64)
  | wait (time : UInt64)

structure State where
  ledger : ReservationLedger
  clock : UInt64

def State.fresh (clock : UInt64) : State := ⟨.ofRecords [], clock⟩

def State.now (s : State) (read : UInt64) : UInt64 := if read ≤ s.clock then read else s.clock

variable {service : ReserveService}

def State.step (service : ReserveService) (s : State) : Event → State
  | .declare req footprint read => { s with ledger := (Reserve.declare service req footprint (s.now read) s.ledger).2 }
  | .check agentId ops acquire ttl footprint read =>
    { s with ledger := (checkWithTtl service agentId ops acquire ttl footprint (s.now read) s.ledger).2 }
  | .release agentId rid read => { s with ledger := (Reserve.release agentId rid (s.now read) s.ledger).2 }
  | .wait time => { s with clock := if s.clock ≤ time then time else s.clock }

def State.run (service : ReserveService) (s : State) (events : List Event) : State :=
  events.foldl (State.step service) s

def ReservationLedger.Clear (ledger : ReservationLedger) (repoId : String) (now : UInt64)
    (r : IntentReservation) : Prop :=
  ∀ s ∈ ledger.active repoId now, s.agentId ≠ r.agentId → r.contractNodes.Disjoint s.contractNodes

def ReservationLedger.Exclusive (ledger : ReservationLedger) (repoId : String) (now : UInt64) : Prop :=
  ∀ r ∈ ledger.active repoId now, ledger.Clear repoId now r

instance (ledger : ReservationLedger) (repoId : String) (now : UInt64) (r : IntentReservation) :
    Decidable (ledger.Clear repoId now r) :=
  inferInstanceAs (Decidable (∀ s ∈ ledger.active repoId now, s.agentId ≠ r.agentId →
    ∀ ⦃node⦄, node ∈ r.contractNodes → node ∈ s.contractNodes → False))

instance (ledger : ReservationLedger) (repoId : String) (now : UInt64) : Decidable (ledger.Exclusive repoId now) :=
  inferInstanceAs (Decidable (∀ r ∈ ledger.active repoId now, ledger.Clear repoId now r))

/-- The condition on a declaration: an active record that it brings back meets no active one of another agent. -/
def State.Fits (service : ReserveService) (s : State) : Event → Prop
  | .declare req _ _ =>
    ∀ first ∈ s.ledger.records.find? (·.reservationId = service.idFor req.agentId req.intentOps),
      first.status = .active → s.ledger.Clear service.repoId s.clock first
  | _ => True

instance (s : State) (event : Event) : Decidable (s.Fits service event) := by
  cases event <;> unfold State.Fits <;> infer_instance

namespace ReservationLedger
variable {ledger : ReservationLedger} {repoId : String} {now later : UInt64} {r : IntentReservation}

theorem Exclusive.append (h : ledger.Exclusive repoId now) (hr : r.status = .active → ledger.Clear repoId now r) :
    (ledger.append r).Exclusive repoId now := by
  intro a ha b hb hagents
  rcases active_append ha with ⟨rfl, hactive⟩ | hbefore
  · rcases active_append hb with ⟨rfl, -⟩ | hother
    · exact absurd rfl hagents
    · exact hr hactive b hother hagents
  · rcases active_append hb with ⟨rfl, hactive⟩ | hother
    · exact (hr hactive a hbefore hagents.symm).symm
    · exact h a hbefore b hother hagents

theorem Exclusive.mono (h : ledger.Exclusive repoId now) (hle : now ≤ later) : ledger.Exclusive repoId later :=
  fun a ha b hb => h a (active_of_later hle ha) b (active_of_later hle hb)

end ReservationLedger

namespace State
variable {s : State}

theorem now_le (s : State) (read : UInt64) : s.now read ≤ s.clock := by
  unfold State.now
  split_ifs with h
  · exact h
  · exact UInt64.le_refl _

theorem clock_le_wait (time : UInt64) : s.clock ≤ (s.step service (.wait time)).clock := by
  show s.clock ≤ if s.clock ≤ time then time else s.clock
  split_ifs with h
  · exact h
  · exact UInt64.le_refl _

theorem exclusive_step (h : s.ledger.Exclusive service.repoId s.clock) {event : Event} (hfits : s.Fits service event) :
    (s.step service event).ledger.Exclusive service.repoId (s.step service event).clock := by
  cases event with
  | declare req footprint read =>
    show ((Reserve.declare service req footprint (s.now read) s.ledger).2).Exclusive service.repoId s.clock
    rcases @declare_ledger service s.ledger (s.now read) footprint req with hsame | ⟨first, hfind, hcopy⟩ | ⟨fp, hnew⟩
    · rwa [hsame]
    · rw [hcopy]
      -- the copy has the agent and the nodes of the first record, for which the condition speaks
      exact h.append fun hactive => hfits first hfind hactive
    · rw [hnew]
      exact h.append fun hactive => nomatch hactive
  | check agentId ops acquire ttl footprint read =>
    show ((checkWithTtl service agentId ops acquire ttl footprint (s.now read) s.ledger).2).Exclusive
      service.repoId s.clock
    rcases @checkWithTtl_ledger service s.ledger (s.now read) footprint agentId ops acquire ttl with
      hsame | ⟨fp, hnone, hnew⟩
    · rwa [hsame]
    · rw [hnew]
      apply h.append
      intro _ r hr hagent
      -- what is active at the clock was open when the call read its time
      have hearlier := ReservationLedger.active_of_later (s.now_le read) hr
      exact disjoint_of_overlaps_nil hnone (ReservationLedger.blocking_of_active hearlier) hagent
  | release agentId rid read =>
    show ((Reserve.release agentId rid (s.now read) s.ledger).2).Exclusive service.repoId s.clock
    rcases @release_ledger s.ledger (s.now read) agentId rid with hsame | ⟨r, hreleased⟩
    · rwa [hsame]
    · rw [hreleased]
      exact h.append fun hactive => nomatch hactive
  | wait time => exact h.mono (clock_le_wait time)

end State

/-- After any history, and at any time from then on until the next event, active reservations of different agents share
no contract node. -/
theorem active_exclusive {clock : UInt64} {events : List Event}
    (hfits : Guarded.Along (State.step service) (State.Fits service) (State.fresh clock) events) {time : UInt64}
    (htime : ((State.fresh clock).run service events).clock ≤ time) :
    ((State.fresh clock).run service events).ledger.Exclusive service.repoId time := by
  have hstart : (State.fresh clock).ledger.Exclusive service.repoId clock :=
    fun _ ha => (List.not_mem_nil ha).elim
  have hend : ((State.fresh clock).run service events).ledger.Exclusive service.repoId
      ((State.fresh clock).run service events).clock :=
    hfits.invariant (I := fun s => s.ledger.Exclusive service.repoId s.clock)
      (fun _ _ hs hfit => State.exclusive_step hs hfit) hstart
  exact hend.mono htime

def sampleService : ReserveService := ⟨"/repo", fun _ ops => ops.map fun op => UInt8.ofNat op.kind.length⟩

def sampleOps : List IntentOperation := [⟨"rename", some "f", none⟩]

def sampleFootprint : FootprintSnapshot := ⟨"footprint/f", "f", ["node/f", "node/g"], [], 100⟩

theorem active_exclusive_after_expiry : ((State.fresh 1000).run sampleService
      [.check "a" sampleOps true none (.ok sampleFootprint) 1000, .wait 5000,
        .check "b" sampleOps true none (.ok sampleFootprint) 4990,
        .declare ⟨"a", [⟨"move", some "f", none⟩], 600⟩ (.ok sampleFootprint) 5000]).ledger.Exclusive "/repo" 5000 :=
  active_exclusive (by decide +kernel) (by decide +kernel)

/-- The same history, but `a` declares the operations it had acquired before: its first record is active, and is
appended again with new time although `b` holds the nodes. -/
theorem active_shared_after_declare : ¬ ((State.fresh 1000).run sampleService
      [.check "a" sampleOps true none (.ok sampleFootprint) 1000, .wait 5000,
        .check "b" sampleOps true none (.ok sampleFootprint) 5000,
        .declare ⟨"a", sampleOps, 600⟩ (.ok sampleFootprint) 5000]).ledger.Exclusive "/repo" 5000 := by
  decide +kernel

end GraphZero.Reserve
