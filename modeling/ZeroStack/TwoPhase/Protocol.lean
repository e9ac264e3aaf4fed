import ZeroStack.TwoPhase.Receipt

/-! A commit is reached only by the protocol: the accepted calls are the plan, what they used is inside the envelope,
and the effects were staged between verification and visibility. -/

open Wire Zero.Reasoning Zero.SemanticCut Zero.Quality Zero.EffectWitness List

namespace Zero.TwoPhase

def Call.instruction : Call → Option ControllerInstruction
  | .dispatch owner _ => some (.dispatch owner)
  | .deterministicTransform => some .deterministicTransform
  | .recordVerification _ => some .verify
  | .stageEffect _ => some .stageEffect
  | .bufferVisible _ => some .bufferVisible
  | .rejectEarlyPublish => none

def Call.usage : Call → Option ResourceUsage
  | .dispatch _ usage => some usage
  | _ => none

def Call.effect : Call → Option StagedEffect
  | .stageEffect effect => some effect
  | _ => none

def Call.visibleBytes : Call → List UInt8
  | .bufferVisible bytes => bytes
  | _ => []

structure Spent (u : ResourceUsage) (deltas : List ResourceUsage) : Prop where
  fuel : u.fuel.toNat = (deltas.map (·.fuel.toNat)).sum
  elapsedMs : u.elapsedMs.toNat = (deltas.map (·.elapsedMs.toNat)).sum
  ioBytes : u.ioBytes.toNat = (deltas.map (·.ioBytes.toNat)).sum
  memoryBytes : u.memoryBytes.toNat = (deltas.map (·.memoryBytes.toNat)).foldl max 0
  processes : u.processes.toNat = (deltas.map (·.processes.toNat)).foldl max 0
  riskUnits : u.riskUnits.toNat = (deltas.map (·.riskUnits.toNat)).sum
  workerSteps : u.workerSteps.toNat = (deltas.map (·.workerSteps.toNat)).sum

structure Within (u : ResourceUsage) (e : WorkerEnvelope) : Prop where
  fuel : u.fuel ≤ e.fuel
  elapsedMs : u.elapsedMs ≤ e.deadlineMs
  ioBytes : u.ioBytes ≤ e.ioBytes
  memoryBytes : u.memoryBytes ≤ e.memoryBytes
  processes : u.processes ≤ e.processes
  riskUnits : u.riskUnits ≤ e.riskUnits
  workerSteps : u.workerSteps ≤ e.workerSteps

structure Shielded (r : PrepareRequest) (e : StagedEffect) : Prop where
  effectClass : e.effectClass = r.effectClass
  action : r.evidence.safetyShield.actionDigest = some e.effectDigest
  acceptance : r.evidence.safetyShield.acceptanceDigest = e.acceptanceDigest
  approval : e.effectClass = .approvalRequiredMutation →
    e.approvalGrantDigest = r.evidence.approvalGrantDigest ∧ r.evidence.approvalGrantDigest ≠ none
  preAction : e.effectClass = .irreversible →
    e.preActionEvidenceDigest = r.evidence.irreversiblePreActionEvidenceDigest ∧
      r.evidence.irreversiblePreActionEvidenceDigest ≠ none

inductive Accepts (x : BrokeredExecution) : Call → ControllerInstruction → BrokeredExecution → Prop
  | dispatch {owner : PeerOwner} {usage next : ResourceUsage} (hsum : x.usage.checkedAdd usage = some next)
      (hwithin : Within next x.request.envelope) : Accepts x (.dispatch owner usage) (.dispatch owner)
        { x with usage := next, trace := { x.trace with workerSteps := next.workerSteps } }
  | deterministicTransform : Accepts x .deterministicTransform .deterministicTransform x
  | recordVerification {digest : Sha256Digest} (hlive : isZero digest = false) :
      Accepts x (.recordVerification digest) .verify { x with verificationDigest := some digest }
  | stageEffect {effect : StagedEffect} (hshield : Shielded x.request effect) :
      Accepts x (.stageEffect effect) .stageEffect
        { x with
          stagedEffects := x.stagedEffects ++ [effect]
          trace := { x.trace with stagedEffects := UInt32.ofNat (x.stagedEffects ++ [effect]).length } }
  | bufferVisible {bytes : List UInt8}
      (hfits : x.bufferedVisible.length + bytes.length ≤ x.request.envelope.outputBytes.toNat) :
      Accepts x (.bufferVisible bytes) .bufferVisible
        { x with
          bufferedVisible := x.bufferedVisible ++ bytes
          trace := { x.trace with
            bufferedVisibleBytes := UInt64.ofNat (x.bufferedVisible.length + bytes.length) } }

namespace BrokeredExecution

theorem expect_eq_ok {x : BrokeredExecution} {i : ControllerInstruction} :
    x.expect i = .ok () ↔ x.request.plan.instructions[x.nextInstruction]? = some i := by
  unfold expect
  cases hnext : x.request.plan.instructions[x.nextInstruction]? with
  | none => simp
  | some actual =>
    by_cases hsame : actual = i <;> simp [hsame]

theorem checkUsage_eq_ok {x : BrokeredExecution} {u : ResourceUsage} (h : x.checkUsage u = .ok ()) :
    Within u x.request.envelope := by
  unfold checkUsage at h
  dsimp only at h
  split_ifs at h with hwithin
  simp only [Bool.and_eq_true, decide_eq_true_eq] at hwithin
  obtain ⟨⟨⟨⟨⟨⟨hfuel, helapsed⟩, hio⟩, hmemory⟩, hprocesses⟩, hrisk⟩, hsteps⟩ := hwithin
  exact ⟨hfuel, helapsed, hio, hmemory, hprocesses, hrisk, hsteps⟩

end BrokeredExecution

theorem Call.perform_cases (c : Call) (x : BrokeredExecution) : (∃ e, c.perform x = (.error e, x)) ∨
      ∃ i y, Accepts x c i y ∧ c.instruction = some i ∧ x.request.plan.instructions[x.nextInstruction]? = some i ∧
        c.perform x = (.ok (), y.advance) := by
  cases c with
  | dispatch owner usage =>
    simp only [perform, BrokeredExecution.dispatch]
    cases hexpect : x.expect (.dispatch owner) with
    | error e => exact .inl ⟨e, rfl⟩
    | ok u =>
      cases hsum : x.usage.checkedAdd usage with
      | none => exact .inl ⟨_, rfl⟩
      | some next =>
        cases hcheck : x.checkUsage next with
        | error e => exact .inl ⟨e, by simp [hcheck]⟩
        | ok u =>
          refine .inr ⟨_, _, .dispatch hsum (BrokeredExecution.checkUsage_eq_ok hcheck), rfl,
            BrokeredExecution.expect_eq_ok.mp hexpect, ?_⟩
          simp [hcheck]
  | deterministicTransform =>
    simp only [perform, BrokeredExecution.deterministicTransform]
    cases hexpect : x.expect .deterministicTransform with
    | error e => exact .inl ⟨e, rfl⟩
    | ok u =>
      exact .inr ⟨_, _, .deterministicTransform, rfl, BrokeredExecution.expect_eq_ok.mp hexpect, rfl⟩
  | recordVerification digest =>
    simp only [perform, BrokeredExecution.recordVerification]
    cases hexpect : x.expect .verify with
    | error e => exact .inl ⟨e, rfl⟩
    | ok u =>
      cases hlive : isZero digest with
      | true => exact .inl ⟨_, rfl⟩
      | false =>
        exact .inr ⟨_, _, .recordVerification hlive, rfl, BrokeredExecution.expect_eq_ok.mp hexpect, rfl⟩
  | stageEffect effect =>
    simp only [perform, BrokeredExecution.stageEffect]
    cases hexpect : x.expect .stageEffect with
    | error e => exact .inl ⟨e, rfl⟩
    | ok u =>
      split_ifs with hadmitted happroval hevidence
      · exact .inl ⟨_, rfl⟩
      · exact .inl ⟨_, rfl⟩
      · exact .inl ⟨_, rfl⟩
      · have hshield : Shielded x.request effect := by
          simp only [not_or, not_not] at hadmitted
          simp only [not_and, not_or, not_not] at happroval hevidence
          exact ⟨hadmitted.1, hadmitted.2.2.1, hadmitted.2.2.2,
            fun hclass => ⟨(happroval hclass).2, (happroval hclass).1⟩,
            fun hclass => ⟨(hevidence hclass).2, (hevidence hclass).1⟩⟩
        exact .inr ⟨_, _, .stageEffect hshield, rfl, BrokeredExecution.expect_eq_ok.mp hexpect, rfl⟩
  | bufferVisible bytes =>
    simp only [perform, BrokeredExecution.bufferVisible]
    cases hexpect : x.expect .bufferVisible with
    | error e => exact .inl ⟨e, rfl⟩
    | ok u =>
      split_ifs with hoverflow hlarge
      · exact .inl ⟨_, rfl⟩
      · exact .inl ⟨_, rfl⟩
      · exact .inr ⟨_, _, .bufferVisible (not_lt.mp hlarge), rfl, BrokeredExecution.expect_eq_ok.mp hexpect, rfl⟩
  | rejectEarlyPublish => exact .inl ⟨_, rfl⟩

theorem broker_atomic : broker.Atomic := by
  intro c x e h
  rcases c.perform_cases x with ⟨e', hrefused⟩ | ⟨i, y, -, -, -, hdone⟩
  · show (c.perform x).2 = x
    rw [hrefused]
  · have hok : (c.perform x).1 = .error e := h
    rw [hdone] at hok
    cases hok

theorem Call.accepts_of_ok {c : Call} {x : BrokeredExecution} (h : (broker.call c x).1 = .ok ()) :
    ∃ i y, Accepts x c i y ∧ c.instruction = some i ∧ x.request.plan.instructions[x.nextInstruction]? = some i ∧
      c.perform x = (.ok (), y.advance) := by
  rcases c.perform_cases x with ⟨e, hrefused⟩ | haccepted
  · have hok : (c.perform x).1 = .ok () := h
    rw [hrefused] at hok
    cases hok
  · exact haccepted

theorem broker_permitId (calls : List Call) (x : BrokeredExecution) : (broker.play calls x).permitId = x.permitId := by
  refine broker_atomic.invariant (I := fun y => y.permitId = x.permitId) (fun c y hsame haccepted => ?_) rfl calls
  obtain ⟨i, z, haccepts, -, -, hdone⟩ := Call.accepts_of_ok haccepted
  show (c.perform y).2.permitId = x.permitId
  rw [hdone, ← hsame]
  cases haccepts <;> rfl

theorem ResourceUsage.spent_checkedAdd {u d v : ResourceUsage} {deltas : List ResourceUsage} (hu : Spent u deltas)
    (h : u.checkedAdd d = some v) : Spent v (deltas ++ [d]) := by
  simp only [checkedAdd, Option.bind_eq_bind, Option.bind_eq_some_iff, Option.pure_def, Option.some.injEq] at h
  obtain ⟨fuel, hfuel, elapsed, helapsed, io, hio, risk, hrisk, steps, hsteps, rfl⟩ := h
  constructor
  · simp [Numeric.toNat_of_checkedAdd hfuel, hu.fuel]
  · simp [Numeric.toNat_of_checkedAdd helapsed, hu.elapsedMs]
  · simp [Numeric.toNat_of_checkedAdd hio, hu.ioBytes]
  · simp [UInt64.toNat_max, hu.memoryBytes]
  · simp [UInt32.toNat_max, hu.processes]
  · simp [Numeric.toNat_of_checkedAdd hrisk, hu.riskUnits]
  · simp [Numeric.toNat_of_checkedAdd hsteps, hu.workerSteps]

structure Follows (r : PrepareRequest) (done : List Call) (x : BrokeredExecution) : Prop where
  request : x.request = r
  executed : done.filterMap Call.instruction = r.plan.instructions.take x.nextInstruction
  bound : x.nextInstruction ≤ r.plan.instructions.length
  counter : x.trace.executedInstructions = UInt32.ofNat x.nextInstruction
  events : x.trace.events = admittedTrace.events
  unfailed : x.trace.executionFailure = none
  spent : Spent x.usage (done.filterMap Call.usage)
  within : Within x.usage r.envelope
  verified : x.verificationDigest.any isZero = false
  visible : x.bufferedVisible = done.flatMap Call.visibleBytes
  visibleBound : x.bufferedVisible.length ≤ r.envelope.outputBytes.toNat
  staged : x.stagedEffects = done.filterMap Call.effect
  shielded : ∀ e ∈ x.stagedEffects, Shielded r e

namespace Follows
variable {r : PrepareRequest} {done : List Call} {x y : BrokeredExecution} {c : Call} {i : ControllerInstruction}

theorem executed_take (h : Follows r done x) (hnext : x.request.plan.instructions[x.nextInstruction]? = some i) :
    done.filterMap Call.instruction ++ [i] = r.plan.instructions.take (x.nextInstruction + 1) := by
  rw [h.request] at hnext
  rw [h.executed, take_add_one, hnext]
  rfl

theorem step (h : Follows r done x) (haccepts : Accepts x c i y) (hcall : c.instruction = some i)
    (hnext : x.request.plan.instructions[x.nextInstruction]? = some i) : Follows r (done ++ [c]) y.advance := by
  have hexecuted : (done ++ [c]).filterMap Call.instruction = r.plan.instructions.take (x.nextInstruction + 1) := by
    rw [filterMap_append, filterMap_cons_some hcall]
    exact h.executed_take hnext
  obtain ⟨hbound, -⟩ := List.getElem?_eq_some_iff.mp hnext
  rw [h.request] at hbound
  -- what a call of another kind leaves as it is
  have hspent : c.usage = none → Spent x.usage ((done ++ [c]).filterMap Call.usage) := by
    intro hnone
    simpa [hnone] using h.spent
  have hstaged : c.effect = none → x.stagedEffects = (done ++ [c]).filterMap Call.effect := by
    intro hnone
    simp [hnone, h.staged]
  have hvisible : x.bufferedVisible ++ c.visibleBytes = (done ++ [c]).flatMap Call.visibleBytes := by
    simp [h.visible]
  have hunseen : c.visibleBytes = [] → x.bufferedVisible = (done ++ [c]).flatMap Call.visibleBytes := by
    intro hnone
    rw [← hvisible, hnone, append_nil]
  cases haccepts with
  | @dispatch owner usage next hsum hwithin =>
    have hadded : Spent next ((done ++ [Call.dispatch owner usage]).filterMap Call.usage) := by
      rw [filterMap_append]
      exact ResourceUsage.spent_checkedAdd h.spent hsum
    rw [h.request] at hwithin
    exact { h with
      executed := hexecuted, bound := hbound, counter := rfl, spent := hadded, within := hwithin
      visible := hunseen rfl, staged := hstaged rfl }
  | deterministicTransform =>
    exact { h with
      executed := hexecuted, bound := hbound, counter := rfl, spent := hspent rfl, visible := hunseen rfl
      staged := hstaged rfl }
  | recordVerification hlive =>
    exact { h with
      executed := hexecuted, bound := hbound, counter := rfl, spent := hspent rfl
      verified := hlive, visible := hunseen rfl, staged := hstaged rfl }
  | @stageEffect effect hshield =>
    have hadded : x.stagedEffects ++ [effect] = (done ++ [Call.stageEffect effect]).filterMap Call.effect := by
      rw [filterMap_append, h.staged]
      rfl
    rw [h.request] at hshield
    exact { h with
      executed := hexecuted, bound := hbound, counter := rfl, spent := hspent rfl, visible := hunseen rfl
      staged := hadded
      shielded := fun e he => (mem_append.mp he).elim (h.shielded e)
        fun hlast => mem_singleton.mp hlast ▸ hshield }
  | bufferVisible hfits =>
    rw [h.request, ← length_append] at hfits
    exact { h with
      executed := hexecuted, bound := hbound, counter := rfl, spent := hspent rfl
      visible := hvisible, visibleBound := hfits, staged := hstaged rfl }

theorem start {sha256 : List UInt8 → Sha256Digest} {now : UInt64} (h : (permitOf sha256 r).startAt now = .ok x) :
    Follows r [] x := by
  obtain ⟨-, h⟩ := guard_eq_ok.mp h
  rw [← Except.ok.inj h]
  have hspent : Spent {} [] := ⟨rfl, rfl, rfl, rfl, rfl, rfl, rfl⟩
  have hwithin : Within {} r.envelope :=
    ⟨UInt64.zero_le, UInt64.zero_le, UInt64.zero_le, UInt64.zero_le, UInt32.zero_le, UInt64.zero_le, UInt64.zero_le⟩
  exact ⟨rfl, rfl, Nat.zero_le _, rfl, rfl, rfl, hspent, hwithin, rfl, rfl, Nat.zero_le _, rfl,
    fun e he => absurd he not_mem_nil⟩

theorem play (h : Follows r [] x) (calls : List Call) : Follows r (broker.accepted calls x) (broker.play calls x) := by
  have hrun := broker_atomic.history (fun done c x hfollows haccepted => ?_) h calls
  · simpa using hrun
  · obtain ⟨i, y, haccepts, hcall, hnext, hdone⟩ := Call.accepts_of_ok haccepted
    show Follows r (done ++ [c]) (c.perform x).2
    rw [hdone]
    exact hfollows.step haccepts hcall hnext

end Follows

variable {closure : TransactionClosure}

section Closing
variable {sha256 : List UInt8 → Sha256Digest} {x : BrokeredExecution} {ready : ReadyToFinalize}

def BrokeredExecution.closedBy (x : BrokeredExecution) (closure : TransactionClosure) : ReadyToFinalize where
  permitId := x.permitId
  request := x.request
  trace := x.trace.pass .g8TransactionClosure
  usage := x.usage
  verificationDigest := x.verificationDigest
  bufferedVisible := x.bufferedVisible
  stagedEffects := x.stagedEffects
  closure := closure

def BrokeredExecution.failed (x : BrokeredExecution) (failure : FailureCode) : BrokeredExecution :=
  { x with trace := { x.trace with executionFailure := some failure } }

theorem BrokeredExecution.intoReady_eq_ok {failure : Option FailureCode} :
    x.intoReady sha256 closure failure = .ok ready ↔
      validateClosure sha256 x closure failure = .ok () ∧ x.closedBy closure = ready := by
  simp [intoReady, bind_eq_ok, pure, Except.pure, closedBy, Unique.exists_iff]

inductive Ends (sha256 : List UInt8 → Sha256Digest) (x : BrokeredExecution) : ReadyToFinalize → Prop
  | closed {closure : TransactionClosure}
      (hlast : x.request.plan.instructions[x.nextInstruction]? = some .closeTransaction)
      (hall : x.nextInstruction + 1 = x.request.plan.instructions.length)
      (hverified : x.verificationDigest ≠ none) (hclosure : validateClosure sha256 x closure none = .ok ()) :
      Ends sha256 x (x.advance.closedBy closure)
  | aborted {closure : TransactionClosure} {failure : FailureCode} (hkind : closure.kind = .fallback)
      (hclosure : validateClosure sha256 x closure (some failure) = .ok ()) :
      Ends sha256 x ((x.failed failure).closedBy closure)

theorem BrokeredExecution.closeTransaction_eq_ok : x.closeTransaction sha256 closure = .ok ready ↔
      x.request.plan.instructions[x.nextInstruction]? = some .closeTransaction ∧
        x.nextInstruction + 1 = x.request.plan.instructions.length ∧ x.verificationDigest ≠ none ∧
        validateClosure sha256 x closure none = .ok () ∧ x.advance.closedBy closure = ready := by
  simp only [closeTransaction, bind_eq_ok, guard_eq_ok, not_or, not_not, intoReady_eq_ok]
  constructor
  · rintro ⟨u, hexpect, ⟨hall, hverified⟩, hclosure, rfl⟩
    exact ⟨expect_eq_ok.mp hexpect, hall, hverified, hclosure, rfl⟩
  · rintro ⟨hlast, hall, hverified, hclosure, rfl⟩
    exact ⟨(), expect_eq_ok.mpr hlast, ⟨hall, hverified⟩, hclosure, rfl⟩

theorem BrokeredExecution.abort_eq_ok {failure : FailureCode} :
    x.abort sha256 failure closure = .ok ready ↔ closure.kind = .fallback ∧
      validateClosure sha256 x closure (some failure) = .ok () ∧ (x.failed failure).closedBy closure = ready := by
  simp only [abort, guard_eq_ok, not_not, intoReady_eq_ok]
  rfl

theorem Ending.ends {ending : Ending} (h : ending.perform sha256 x = .ok ready) : Ends sha256 x ready := by
  cases ending with
  | closeTransaction closure =>
    obtain ⟨hlast, hall, hverified, hclosure, rfl⟩ := BrokeredExecution.closeTransaction_eq_ok.mp h
    exact .closed hlast hall hverified hclosure
  | abort failure closure =>
    obtain ⟨hkind, hclosure, rfl⟩ := BrokeredExecution.abort_eq_ok.mp h
    exact .aborted hkind hclosure

theorem ReadyToFinalize.finalize_eq_ok {receipt : FinalReceipt} :
    ready.finalize sha256 = .ok receipt ↔ ready.finalTrace.verifyComplete = .ok () ∧
      (match ready.closure.kind.receiptKind with
        | .commit => .commit ⟨ready.common sha256, ready.bufferedVisible, ready.stagedEffects⟩
        | .fallback => .fallback ⟨ready.common sha256⟩) = receipt := by
  simp only [finalize, bind_eq_ok]
  constructor
  · rintro ⟨u, htrace, h⟩
    exact ⟨htrace, Except.ok.inj h⟩
  · rintro ⟨htrace, h⟩
    exact ⟨(), htrace, congrArg Except.ok h⟩

theorem ReadyToFinalize.commit_of_finalize {receipt : CommitReceipt}
    (h : ready.finalize sha256 = .ok (.commit receipt)) :
    ready.closure.kind = .commit ∧ receipt = ⟨ready.common sha256, ready.bufferedVisible, ready.stagedEffects⟩ := by
  obtain ⟨-, h⟩ := finalize_eq_ok.mp h
  cases hkind : ready.closure.kind with
  | commit =>
    rw [hkind] at h
    exact ⟨rfl, (FinalReceipt.commit.inj h).symm⟩
  | fallback =>
    rw [hkind] at h
    cases h

end Closing

theorem idxOf?_eq_some {α : Type} [DecidableEq α] {l : List α} {a : α} {i : ℕ} (h : l.idxOf? a = some i) :
    l[i]? = some a ∧ ∀ j < i, l[j]? ≠ some a := by
  obtain ⟨hi, ha, hfirst⟩ := List.findIdx?_eq_some_iff_getElem.mp h
  constructor
  · rw [List.getElem?_eq_getElem hi, eq_of_beq ha]
  · intro j hj hja
    obtain ⟨hlt, hja⟩ := List.getElem?_eq_some_iff.mp hja
    exact hfirst j hj (beq_iff_eq.mpr hja)

structure FinitePlan (r : PrepareRequest) (verify visible : ℕ) : Prop where
  length : r.plan.instructions.length ≤ maxControllerInstructions
  verifyPlace : r.plan.instructions.idxOf? .verify = some verify
  visiblePlace : r.plan.instructions.idxOf? .bufferVisible = some visible
  staged : ∀ place ∈ stagedPlaces r.plan.instructions, verify < place ∧ place < visible

theorem finitePlan_of_validateG2 {sha256 : List UInt8 → Sha256Digest} {r : PrepareRequest}
    (h : validateG2 sha256 r = .ok ()) : ∃ verify visible, FinitePlan r verify visible := by
  obtain ⟨hlength, h⟩ := guard_eq_ok.mp h
  obtain ⟨-, h⟩ := guard_eq_ok.mp h
  cases hverify : r.plan.instructions.idxOf? .verify with
  | none =>
    simp only [hverify] at h
    cases h
  | some verify =>
    cases hvisible : r.plan.instructions.idxOf? .bufferVisible with
    | none =>
      simp only [hverify, hvisible] at h
      cases h
    | some visible =>
      simp only [hverify, hvisible] at h
      obtain ⟨-, h⟩ := guard_eq_ok.mp h
      obtain ⟨hreadOnly, h⟩ := guard_eq_ok.mp h
      obtain ⟨hmutating, -⟩ := guard_eq_ok.mp h
      refine ⟨verify, visible, not_lt.mp fun hlt => hlength (Or.inr hlt), hverify, hvisible, fun place hplace => ?_⟩
      by_cases hclass : r.effectClass = .readOnly
      · have hnone : stagedPlaces r.plan.instructions = [] := not_not.mp fun hsome => hreadOnly ⟨hclass, hsome⟩
        rw [hnone] at hplace
        exact absurd hplace not_mem_nil
      · obtain ⟨first, hfirst, hone, horder⟩ := not_not.mp fun hbad => hmutating ⟨hclass, hbad⟩
        obtain ⟨only, honly⟩ := length_eq_one_iff.mp hone
        rw [honly] at hplace hfirst
        rw [mem_singleton.mp hplace, Option.some.inj hfirst]
        exact horder

theorem FinitePlan.staged_between {r : PrepareRequest} {verify visible : ℕ} (h : FinitePlan r verify visible)
    {front back : List ControllerInstruction} (hplan : r.plan.instructions = front ++ .stageEffect :: back) :
    .verify ∈ front ∧ .bufferVisible ∉ front ∧ .bufferVisible ∈ back := by
  have hplace : front.length ∈ stagedPlaces r.plan.instructions := by
    simp [stagedPlaces, mem_zipIdx_iff_getElem?, hplan]
  obtain ⟨hafter, hbefore⟩ := h.staged front.length hplace
  obtain ⟨hverify, -⟩ := idxOf?_eq_some h.verifyPlace
  obtain ⟨hvisible, hfirst⟩ := idxOf?_eq_some h.visiblePlace
  rw [hplan] at hverify hvisible hfirst
  refine ⟨?_, fun hearly => ?_, ?_⟩
  · rw [List.getElem?_append_left hafter] at hverify
    exact mem_of_getElem? hverify
  · obtain ⟨j, hj⟩ := mem_iff_getElem?.mp hearly
    obtain ⟨hlt, -⟩ := List.getElem?_eq_some_iff.mp hj
    exact hfirst j (hlt.trans hbefore) (by rw [List.getElem?_append_left hlt, hj])
  · obtain ⟨d, rfl⟩ := Nat.exists_eq_add_of_lt hbefore
    rw [List.getElem?_append_right (by omega)] at hvisible
    have hshift : front.length + d + 1 - front.length = d + 1 := by omega
    rw [hshift] at hvisible
    exact mem_of_getElem? hvisible

structure Committed (r : PrepareRequest) (done : List Call) (receipt : CommitReceipt) : Prop where
  instructions : done.filterMap Call.instruction ++ [.closeTransaction] = r.plan.instructions
  counted : receipt.common.trace.executedInstructions.toNat = r.plan.instructions.length
  spent : Spent receipt.common.usage (done.filterMap Call.usage)
  within : Within receipt.common.usage r.envelope
  visible : receipt.bufferedVisible = done.flatMap Call.visibleBytes
  visibleBound : receipt.bufferedVisible.length ≤ r.envelope.outputBytes.toNat
  staged : receipt.stagedEffects = done.filterMap Call.effect
  shielded : ∀ e ∈ receipt.stagedEffects, Shielded r e
  ordered : ∀ front e back, done = front ++ .stageEffect e :: back →
    (∃ evidence, .recordVerification evidence ∈ front) ∧ (∀ bytes, .bufferVisible bytes ∉ front) ∧
      ∃ bytes, .bufferVisible bytes ∈ back
  guards : receipt.common.trace.events = Guard.all.map ExecutionTrace.event

theorem Call.exists_recordVerification {calls : List Call} (h : .verify ∈ calls.filterMap Call.instruction) :
    ∃ evidence, .recordVerification evidence ∈ calls := by
  obtain ⟨c, hmem, hc⟩ := mem_filterMap.mp h
  cases c with
  | recordVerification evidence => exact ⟨evidence, hmem⟩
  | dispatch | deterministicTransform | stageEffect | bufferVisible | rejectEarlyPublish => cases hc

theorem Call.exists_bufferVisible {calls : List Call} (h : .bufferVisible ∈ calls.filterMap Call.instruction) :
    ∃ bytes, .bufferVisible bytes ∈ calls := by
  obtain ⟨c, hmem, hc⟩ := mem_filterMap.mp h
  cases c with
  | bufferVisible bytes => exact ⟨bytes, hmem⟩
  | dispatch | deterministicTransform | recordVerification | stageEffect | rejectEarlyPublish => cases hc

namespace Follows
variable {r : PrepareRequest} {done : List Call} {x : BrokeredExecution}

theorem executed_all (h : Follows r done x)
    (hlast : x.request.plan.instructions[x.nextInstruction]? = some .closeTransaction)
    (hall : x.nextInstruction + 1 = x.request.plan.instructions.length) :
    done.filterMap Call.instruction ++ [.closeTransaction] = r.plan.instructions := by
  rw [h.executed_take hlast, hall, h.request, take_length]

theorem staged_ordered {verify visible : ℕ} (hplan : FinitePlan r verify visible)
    (hexecuted : done.filterMap Call.instruction ++ [.closeTransaction] = r.plan.instructions) {front back : List Call}
    {e : StagedEffect} (hdone : done = front ++ .stageEffect e :: back) :
    (∃ evidence, .recordVerification evidence ∈ front) ∧ (∀ bytes, .bufferVisible bytes ∉ front) ∧
      ∃ bytes, .bufferVisible bytes ∈ back := by
  have hsplit : r.plan.instructions = front.filterMap Call.instruction ++
      .stageEffect :: (back.filterMap Call.instruction ++ [.closeTransaction]) := by
    rw [← hexecuted, hdone]
    simp [Call.instruction]
  obtain ⟨hverify, hearly, hvisible⟩ := hplan.staged_between hsplit
  have hback : .bufferVisible ∈ back.filterMap Call.instruction := by simpa using hvisible
  refine ⟨Call.exists_recordVerification hverify, fun bytes hbytes => ?_, Call.exists_bufferVisible hback⟩
  exact hearly (mem_filterMap.mpr ⟨_, hbytes, rfl⟩)

theorem committed {sha256 : List UInt8 → Sha256Digest} {verify visible : ℕ}
    (h : Follows r done x) (hplan : FinitePlan r verify visible)
    (hlast : x.request.plan.instructions[x.nextInstruction]? = some .closeTransaction)
    (hall : x.nextInstruction + 1 = x.request.plan.instructions.length) :
    Committed r done ⟨(x.advance.closedBy closure).common sha256, x.bufferedVisible, x.stagedEffects⟩ := by
  have hexecuted := h.executed_all hlast hall
  have hcounted : (UInt32.ofNat (x.nextInstruction + 1)).toNat = r.plan.instructions.length := by
    have hbound : maxControllerInstructions < UInt32.size := by decide
    rw [hall, h.request, UInt32.toNat_ofNat_of_lt' (hplan.length.trans_lt hbound)]
  have hguards : x.trace.events ++ [ExecutionTrace.event .g8TransactionClosure] ++
      [ExecutionTrace.event .g9ReceiptCommitment] = Guard.all.map ExecutionTrace.event := by
    rw [h.events]
    rfl
  exact {
    instructions := hexecuted, counted := hcounted, spent := h.spent, within := h.within, visible := h.visible
    visibleBound := h.visibleBound, staged := h.staged, shielded := h.shielded, guards := hguards
    ordered := fun front e back hdone => staged_ordered hplan hexecuted hdone }

end Follows

/-- Whatever is called, and however often, a commit receipt is that of the plan: its instructions were carried out, each
once and in their order, inside the envelope, and the effects are those that were admitted. -/
theorem commit_follows_plan {sha256 : List UInt8 → Sha256Digest} {contractDigest : Sha256Digest} {r : PrepareRequest}
    {permit : ExecutionPermit} {now : UInt64} {x : BrokeredExecution} {calls : List Call} {ending : Ending}
    {ready : ReadyToFinalize} {receipt : CommitReceipt} (hprepare : prepare sha256 contractDigest r = .ok permit)
    (hstart : permit.startAt now = .ok x) (hend : ending.perform sha256 (broker.play calls x) = .ok ready)
    (hfinal : ready.finalize sha256 = .ok (.commit receipt)) : Committed r (broker.accepted calls x) receipt := by
  obtain ⟨hadmitted, rfl⟩ := prepare_eq_ok.mp hprepare
  have hfollows := (Follows.start hstart).play calls
  obtain ⟨hkind, rfl⟩ := ReadyToFinalize.commit_of_finalize hfinal
  cases Ending.ends hend with
  | closed hlast hall hverified hclosure =>
    obtain ⟨verify, visible, hplan⟩ := finitePlan_of_validateG2 hadmitted.g2
    exact hfollows.committed hplan hlast hall
  | aborted hfallback hclosure =>
    -- an aborted execution falls back
    have hcommit : ClosureKind.fallback = ClosureKind.commit := hfallback.symm.trans hkind
    cases hcommit

def sampleContract : ReasoningContract where
  schemaVersion := reasoningContractSchemaVersion
  modelIdentity := 1
  backendIdentity := 2
  tokenizerIdentity := 3
  decoderIdentity := 4
  toolSchemaDigest := 5
  reasoningMode := "extended"
  reasoningEffort := "high"
  maxOutputTokens := 64
  reservedReasoningTokens := 8
  reservedVisibleOutputTokens := 8
  reservedRecoveryTokens := 8
  nativeStatePolicy := .exactRequired
  allowEffortDownshift := false
  providerExtension := .empty
  samplingParams := none
  stoppingPolicy := none
  systemPromptRoot := none
  toolPermissions := .empty

def samplePlan : ControllerPlan := ⟨[.dispatch .fsZero, .verify, .stageEffect, .bufferVisible, .closeTransaction]⟩

/-! The digests of the sample are computed by whatever function stands for SHA-256. -/

section Sample
variable (sha256 : List UInt8 → Sha256Digest)

def sampleBinding : ExecutionBinding where
  schemaVersion := twoPhaseSchemaVersion
  assemblyManifestDigest := 6
  sourceTreeDigest := 7
  sourceRepositoryHeads := [⟨"zerostack", "0123456789abcdef0123456789abcdef01234567"⟩]
  imageDigest := imageDigest sha256 7 [1, 2, 3]
  stateSnapshotDigest := 8
  taskFingerprintDigest := 9
  planDigest := samplePlan.digest sha256
  fixedModelDigest := sampleContract.modelIdentity
  baselineReasoningContract := sampleContract
  reasoningContract := sampleContract
  baselineReasoningContractDigest := sha256 sampleContract.message
  reasoningContractDigest := sha256 sampleContract.message
  comparisonIdentityDigest := 10
  semanticCutVerifierIdentityDigest := 11
  predecessorReceiptHead := 12

def sampleAdmission : StrictReasoningAdmission :=
  let contract := sha256 sampleContract.message
  ⟨reasoningContractVersion, contract, contract, true, 0, 0, 0, 0,
    admissionDigest sha256 reasoningContractVersion contract contract true ⟨0, 0, 0, 0⟩⟩

def sampleSafepoint : ReasoningSafepoint where
  schemaVersion := semanticCutSchemaVersion
  projectControlRoot := 1
  worldFiberDigest := 1
  evidenceStateDigest := 1
  reasoningContractDigest := sha256 sampleContract.message
  fixedModelDigest := sampleContract.modelIdentity
  opaqueReasoningStateDigest := 1
  reasoningStateStatus := .exactPreserved
  openObligationsDigest := 1
  resourceRiskReserveDigest := 1
  baselineReplayCursorDigest := 1
  transactionRootDigest := 1
  receiptHeadDigest := 1

def sampleClaim : SemanticCutClaim where
  schemaVersion := semanticCutSchemaVersion
  inputProjectControlRoot := 8
  baselineEpochClassDigest := 1
  compiledPlanDigest := samplePlan.digest sha256
  semanticAuthority := .deterministicOnly
  baselineTerminal := sampleSafepoint sha256
  compiledTerminal := sampleSafepoint sha256
  baselineExternalEffectsDigest := 1
  compiledExternalEffectsDigest := 1
  baselineAttributionIdentityDigest := 1
  compiledAttributionIdentityDigest := 1
  baselineResourceReceiptDigest := 1
  compiledResourceReceiptDigest := 1
  comparisonIdentityDigest := 10
  certificateScopeDigest := 9
  deoptimizationMapDigest := 1

def sampleCut : SemanticCutEvidence :=
  let unsealed : SemanticCutEvidence :=
    ⟨semanticCutContractVersion, sampleClaim sha256, sha256 (sampleClaim sha256).message, 1, 11, 0⟩
  { unsealed with certificateDigest := sha256 (unsealed.message sha256) }

def sampleAccepted : EffectAccepted :=
  let unsealed : EffectAccepted := ⟨effectWitnessContractVersion, 1, 13, 1, 1, 8, 1, 1, .exactChecker, 0⟩
  { unsealed with acceptanceDigest := sha256 (effectAcceptedDomain ++ unsealed.body.canonical) }

def sampleShield : SafetyShieldEvidence :=
  let unsealed : SafetyShieldEvidence :=
    ⟨.acceptedEffect, 0, 8, some 13, 1, 1, some (sampleAccepted sha256).acceptanceDigest, some (sampleAccepted sha256)⟩
  { unsealed with shieldDigest := unsealed.expectedDigest sha256 }

def sampleQuality : QualityAdmission :=
  let unsealed : QualityAdmission := {
    contractVersion := qualityEnvelopeContractVersion
    scopeDigest := 9
    comparisonIdentityDigest := 10
    rawBaselineIdentityDigest := 1
    baselineOutcomeDigest := 1
    baselineReceiptDigest := 1
    candidateIdentityDigest := some (candidateProtocolIdentity sha256 1 (sampleBinding sha256))
    candidateOutcomeDigest := some 1
    pairingMethodDigest := 1
    protectedPredicateDigest := 1
    verifierIdentityDigest := 1
    classCertificateDigest := none
    confidenceScopeDigest := none
    evidenceClass := .exactNeutral
    selection := .candidate
    guarantee := .exactSubstitution
    strictImprovement := false
    evidenceDigest := 1
    admissionDigest := 0 }
  { unsealed with admissionDigest := unsealed.expectedDigest sha256 }

def sampleRequest : PrepareRequest where
  binding := sampleBinding sha256
  surface := .cli
  effectClass := .reversibleMutation
  plan := samplePlan
  envelope := ⟨10, 10, 10, 10, 10, 1, 10, 10⟩
  evidence := {
    artifacts := ⟨6, 7, imageDigest sha256 7 [1, 2, 3], 1, [1, 2, 3], [1, 2, 3]⟩
    reasoningAdmission := sampleAdmission sha256
    semanticCut := sampleCut sha256
    snap := .notClaimed
    safetyShield := sampleShield sha256
    approvalGrantDigest := none
    irreversiblePreActionEvidenceDigest := none
    performance := sampleQuality sha256 }
  expiryDeadlineMs := 100
  epoch := 1
  callerSessionId := "session"

def sampleEffect : StagedEffect := ⟨13, .reversibleMutation, some (sampleAccepted sha256).acceptanceDigest, none, none⟩

def sampleCalls : List Call :=
  [.dispatch .fsZero { fuel := 11 }, .dispatch .fsZero { fuel := 3, memoryBytes := 2 },
    .stageEffect (sampleEffect sha256),
    .recordVerification 1, .stageEffect (sampleEffect sha256), .rejectEarlyPublish, .bufferVisible [104, 105],
    .bufferVisible [104, 105]]

def sampleClosure : TransactionClosure where
  kind := .commit
  root := 14
  transactionReceiptDigest := 15
  deoptimizationExecutionReceiptDigest := none
  deoptimizationKernelBindingDigest := none
  deoptimizationKernelAdmissionDigest := none
  actionDigest := 13
  acceptanceDigest := some (sampleAccepted sha256).acceptanceDigest
  baselineState := 8
  candidateState := 14
  restorationScope := .notApplicableCandidateCommit
  externalRestorationDebtCount := 0
  restoration := {}

def sampleStart : BrokeredExecution := (permitOf sha256 (sampleRequest sha256)).execution

def sampleReady : ReadyToFinalize :=
  (broker.play (sampleCalls sha256) (sampleStart sha256)).advance.closedBy (sampleClosure sha256)

end Sample

def leadingDigest (bytes : List UInt8) : Sha256Digest := BitVec.ofNat 256 (2 * ofBe (bytes.take 31) + 1)

theorem prepare_sample : prepare leadingDigest 1 (sampleRequest leadingDigest) =
    .ok (permitOf leadingDigest (sampleRequest leadingDigest)) := by
  refine prepare_eq_ok.mpr ⟨?_, rfl⟩
  constructor <;> decide +kernel

theorem startAt_sample :
    (permitOf leadingDigest (sampleRequest leadingDigest)).startAt 50 = .ok (sampleStart leadingDigest) :=
  guard_eq_ok.mpr ⟨by decide, rfl⟩

theorem closeTransaction_sample : (Ending.closeTransaction (sampleClosure leadingDigest)).perform leadingDigest
    (broker.play (sampleCalls leadingDigest) (sampleStart leadingDigest)) = .ok (sampleReady leadingDigest) := by
  refine BrokeredExecution.closeTransaction_eq_ok.mpr ⟨?_, ?_, ?_, ?_, rfl⟩
  · decide +kernel
  · decide +kernel
  · decide +kernel
  · decide +kernel

def sampleReceipt : CommitReceipt where
  common := (sampleReady leadingDigest).common leadingDigest
  bufferedVisible := (sampleReady leadingDigest).bufferedVisible
  stagedEffects := (sampleReady leadingDigest).stagedEffects

theorem finalize_sample : (sampleReady leadingDigest).finalize leadingDigest = .ok (.commit sampleReceipt) :=
  ReadyToFinalize.finalize_eq_ok.mpr ⟨by decide +kernel, rfl⟩

theorem commit_follows_plan_sample : Committed (sampleRequest leadingDigest)
      (broker.accepted (sampleCalls leadingDigest) (sampleStart leadingDigest)) sampleReceipt :=
  commit_follows_plan prepare_sample startAt_sample closeTransaction_sample finalize_sample

end Zero.TwoPhase
