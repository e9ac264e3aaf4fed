import ZeroStack.Speculation.Accounting

/-! The end of a turn. If no job is admitted between the moment it looks at the entries and its return, it leaves every
job counted. -/

open Durable Zero.Kernel

namespace Zero.Speculation

def Phase.endsTurn {V : Type} : Phase V → Bool
  | .cancelling _ => true
  | .joining => true
  | .joined => true
  | .cleared => true
  | _ => false

section Orderly
variable {ι V : Type} (digest : SpeculationPermit V → String) (calls : ι → Call V)

/-- No job is admitted while a turn ends, and no claim looks for an entry that is not there. -/
def Orderly : Turn ι Clock (ℕ × Work V) → Configuration ι (Phase V) (Runtime ι V) → Prop
  | .background _, _ => True
  | .party i _, c => match calls i, c.phase i with
    | .admitInner _ _, .reserved _ => ∀ k, (c.phase k).endsTurn = false
    | .claim permit, .start => match permit.claimKey digest with
      | .error _ => True
      | .ok key => c.shared.entriesLock.isSome ∨ c.shared.entries.contains key
    | _, _ => True

instance [Fintype ι] (t : Turn ι Clock (ℕ × Work V)) (c : Configuration ι (Phase V) (Runtime ι V)) :
    Decidable (Orderly digest calls t c) := by
  unfold Orderly
  split
  · infer_instance
  · split
    · infer_instance
    · split <;> infer_instance
    · infer_instance

end Orderly

section Runs
variable {ι V : Type} (digest : SpeculationPermit V → String) (calls : ι → Call V) {limit : ℕ}
variable {c : Configuration ι (Phase V) (Runtime ι V)}

theorem act_eq (i : ι) (clock : Clock) : (runtime digest calls).act i clock (c.phase i) c.shared = match calls i with
    | .admitInner permit prepared => admitInner digest i permit prepared (c.phase i) c.shared
    | .claim permit => claim digest i permit clock (c.phase i) c.shared
    | .endTurn => endTurn i (c.phase i) c.shared := rfl

theorem act_stepped (h : Parties.Asserted (Runtime.Sound limit) Runtime.Holds c) (i : ι) (clock : Clock) :
    Runtime.Stepped limit i (Orderly digest calls (.party i clock) c) (c.phase i) c.shared
      ((runtime digest calls).act i clock (c.phase i) c.shared) := by
  rw [act_eq]
  cases hcall : calls i with
  | admitInner permit prepared => exact Runtime.admitInner_stepped permit prepared h.shared (h.phase i)
  | claim permit =>
    refine Runtime.claim_stepped permit clock h.shared (h.phase i) fun horderly hstart key hkey => ?_
    unfold Orderly at horderly
    simpa [hcall, hstart, hkey] using horderly
  | endTurn => exact Runtime.endTurn_stepped h.shared (h.phase i)

def Settling (limit : ℕ) (c : Configuration ι (Phase V) (Runtime ι V)) : Prop :=
  Parties.Asserted (Runtime.Sound limit) Runtime.Holds c ∧ Parties.Asserted Runtime.Quiet (fun _ => Runtime.Ending) c

theorem others_quiet (h : Settling limit c) {i : ι} {clock : Clock} (horderly : Orderly digest calls (.party i clock) c)
    {k : ι} (hk : k ≠ i) : Runtime.Ending (c.phase k) ((runtime digest calls).act i clock (c.phase i) c.shared).2 := by
  obtain ⟨hsound, hquiet⟩ := h
  rcases (act_stepped digest calls hsound i clock).keeps with ⟨key, hreserved⟩ | hkeeps
  · have hlock : c.shared.entriesLock = some i := by
      have hholds := hsound.phase i
      rw [hreserved] at hholds
      exact hholds.1
    have hother : ∀ reserved, ¬(c.shared.entriesLock = some k ∧ c.shared.Level reserved none) := by
      rintro reserved ⟨hlock', -⟩
      rw [hlock] at hlock'
      exact hk (Option.some.inj hlock').symm
    have hending := hquiet.phase k
    cases hcall : calls i with
    | admitInner permit prepared =>
      have hidle : (c.phase k).endsTurn = false := by
        unfold Orderly at horderly
        simp only [hcall, hreserved] at horderly
        exact horderly k
      have hholds := hsound.phase k
      cases hphase : c.phase k with
      | checked key' =>
        rw [hphase] at hholds
        exact absurd hholds (hother 0)
      | reserved key' =>
        rw [hphase] at hholds
        exact absurd hholds (hother 1)
      | missing =>
        rw [hphase] at hending
        exact hending.elim
      | cancelling rest | joining | joined | cleared => simp [hphase, Phase.endsTurn] at hidle
      | _ => trivial
    | claim permit | endTurn =>
      rw [act_eq, hcall, hreserved]
      exact hending
  · exact (hquiet.phase k).keep hkeeps

theorem new_settling {c₀ : Configuration ι (Phase V) (Runtime ι V)} (hnew : new limit = .ok c₀) :
    Settling limit c₀ := by
  unfold new at hnew
  split_ifs at hnew
  cases hnew
  refine ⟨⟨⟨⟨?_, ⟨0, 0, rfl⟩, List.nodup_nil, ?_⟩, rfl, Nat.zero_le _, le_rfl, fun _ => ⟨rfl, ?_⟩⟩, fun _ => trivial⟩,
    ⟨⟨?_, rfl⟩, fun _ => trivial⟩⟩
  · intro e he
    cases he
  · intro h hh
    cases hh
  · intro job e he
    cases he
  · intro job e he
    cases he

variable [DecidableEq ι]

theorem step_sound (t : Turn ι Clock (ℕ × Work V)) (h : Parties.Asserted (Runtime.Sound limit) Runtime.Holds c) :
    Parties.Asserted (Runtime.Sound limit) Runtime.Holds ((runtime digest calls).step t c) := by
  cases t with
  | party i clock =>
    have hstepped := act_stepped digest calls h i clock
    refine .party hstepped.sound hstepped.holds fun k hk => ?_
    exact (h.phase k).keep (hstepped.others.imp_right fun hother => hother k hk)
  | background d =>
    obtain ⟨hsteady, hbooks, -⟩ := Runtime.workerStep_steady d.1 d.2 h.shared
    exact ⟨⟨hbooks, h.shared.capacity.steady hsteady⟩, fun k => (h.phase k).keep (.inl hsteady)⟩

theorem step_settling (t : Turn ι Clock (ℕ × Work V)) (horderly : Orderly digest calls t c) (h : Settling limit c) :
    Settling limit ((runtime digest calls).step t c) := by
  refine ⟨step_sound digest calls t h.1, ?_⟩
  obtain ⟨hsound, hquiet⟩ := h
  cases t with
  | background d =>
    obtain ⟨hsteady, -, hstays⟩ := Runtime.workerStep_steady d.1 d.2 hsound.shared
    exact ⟨hstays hquiet.shared, fun k => (hquiet.phase k).keep hsteady.toKeeps⟩
  | party i clock =>
    obtain ⟨hnext, hown⟩ := (act_stepped digest calls hsound i clock).settles horderly hquiet.shared (hquiet.phase i)
    exact .party hnext hown fun k hk => others_quiet digest calls ⟨hsound, hquiet⟩ horderly hk

end Runs

/-- Every job is counted in one class, and the ledger counts the jobs of each class. The wasted ones are among the
cancelled. -/
structure Accounted {V : Type} (jobs : List (Entry V)) (l : SpeculationLedger) : Prop where
  once : ∀ e ∈ jobs, ∃ c, e.counted = [c]
  dispatched : l.dispatched = jobs.length
  hits : l.claimHits = jobs.countP (·.counted = [.hit])
  failed : l.failed = jobs.countP (·.counted = [.failed])
  wasted : l.wastedReady = jobs.countP (·.counted = [.wasted])
  cancelled : l.cancelled = jobs.countP (·.counted = [.cancelled]) + l.wastedReady
  total : l.dispatched = l.claimHits + l.failed + l.cancelled

section Final
variable {V : Type}

theorem accounted_tally {jobs : List (Entry V)} (h : ∀ e ∈ jobs, ∃ c, e.counted = [c]) :
    Accounted jobs (tally Entry.account jobs) := by
  induction jobs with
  | nil => exact ⟨h, rfl, rfl, rfl, rfl, rfl, rfl⟩
  | cons e jobs ih =>
    obtain ⟨-, hdispatched, hhits, hfailed, hwasted, hcancelled, htotal⟩ :=
      ih fun e' he' => h e' (List.mem_cons_of_mem _ he')
    obtain ⟨c, hc⟩ := h e List.mem_cons_self
    have haccount : e.account = dispatchDelta e.permit + c.delta e.permit := by
      simp [Entry.account, hc]
    refine ⟨h, ?_, ?_, ?_, ?_, ?_, ?_⟩ <;> cases c <;>
      simp [haccount, hc, dispatchDelta, OutcomeClass.delta, SpeculationLedger.add_eq, hwasted] <;> omega

theorem Accounted.saturate {jobs : List (Entry V)} {l : SpeculationLedger} (h : Accounted jobs l)
    (hlength : jobs.length < 2 ^ 64) : Accounted jobs l.saturate := by
  obtain ⟨honce, hdispatched, hhits, hfailed, hwasted, hcancelled, htotal⟩ := h
  have hmin : ∀ n ≤ jobs.length, min n (2 ^ 64 - 1) = n := fun n hn => by omega
  have hbound : l.claimHits ≤ jobs.length ∧ l.failed ≤ jobs.length ∧ l.cancelled ≤ jobs.length ∧
      l.wastedReady ≤ jobs.length := by omega
  have hsame : l.saturate.dispatched = l.dispatched ∧ l.saturate.claimHits = l.claimHits ∧
      l.saturate.failed = l.failed ∧ l.saturate.cancelled = l.cancelled ∧ l.saturate.wastedReady = l.wastedReady :=
    ⟨hmin _ hdispatched.le, hmin _ hbound.1, hmin _ hbound.2.1, hmin _ hbound.2.2.1, hmin _ hbound.2.2.2⟩
  obtain ⟨hd, hh, hf, hc, hw⟩ := hsame
  exact ⟨honce, hd.trans hdispatched, hh.trans hhits, hf.trans hfailed, hw.trans hwasted, by omega, by omega⟩

theorem Accounted.beside {jobs : List (Entry V)} {l : SpeculationLedger} (h : Accounted jobs l) (refused missed : ℕ) :
    Accounted jobs (({ ordinaryAdmissions := refused, claimInvariantFailures := missed } : SpeculationLedger) + l) := by
  have hadd : ∀ n, 0 + n = n := Nat.zero_add
  exact ⟨h.once, (hadd _).trans h.dispatched, (hadd _).trans h.hits, (hadd _).trans h.failed, (hadd _).trans h.wasted,
    by simpa [SpeculationLedger.add_eq] using h.cancelled, by simpa [SpeculationLedger.add_eq] using h.total⟩

end Final

/-- Along every interleaving the jobs in flight stay within the limit, no result is handed out twice and no job is
counted twice. When an end of a turn returns after an orderly run, every job is counted, and the ledger is accepted. -/
theorem speculation_accounted {ι V : Type} [DecidableEq ι] (digest : SpeculationPermit V → String) (calls : ι → Call V)
    (limit : ℕ) (c₀ : Configuration ι (Phase V) (Runtime ι V)) (hnew : new limit = .ok c₀)
    (turns : List (Turn ι Clock (ℕ × Work V))) : let c := (runtime digest calls).run turns c₀
    (c.shared.inflight ≤ limit ∧ c.shared.unfinished ≤ limit) ∧ (c.shared.handed.map (·.2)).Nodup ∧
    (∀ e ∈ c.shared.jobs, e.counted.length ≤ 1) ∧
    ((runtime digest calls).Meets (Orderly digest calls) turns c₀ → c.shared.jobs.length < 2 ^ 64 →
      ∀ i clock, calls i = .endTurn → c.phase i = .cleared → let c' := (runtime digest calls).step (.party i clock) c
        c'.phase i = .turnEnded (.ok c'.shared.ledger) ∧ Accounted c'.shared.jobs c'.shared.ledger) := by
  intro c
  have hsettling := new_settling hnew
  have hsound : Parties.Asserted (Runtime.Sound limit) Runtime.Holds c :=
    Parties.run_invariant (fun t c _ => step_sound digest calls t) hsettling.1 (Parties.meets_free turns)
  have hcapacity := hsound.shared.capacity
  refine ⟨⟨hcapacity.bound, hcapacity.unfinished_le.trans hcapacity.bound⟩, hsound.shared.books.once, fun e he => ?_,
    fun horderly hlength i clock hcall hcleared => ?_⟩
  · rcases (hsound.shared.books.coherent e he).counted_le with hnil | ⟨c, hone⟩
    · rw [hnil]
      exact Nat.zero_le 1
    · rw [hone]
      exact le_rfl
  · have hquiet := (Parties.run_invariant (fun t c => step_settling digest calls t) hsettling horderly).2
    have hended : Runtime.Ending .cleared c.shared := hcleared ▸ hquiet.phase i
    have honce : ∀ e ∈ c.shared.jobs, ∃ c, e.counted = [c] := by
      intro e he
      obtain ⟨job, hjob⟩ := List.mem_iff_getElem?.mp he
      obtain ⟨hdoomed, hover⟩ := hended job e hjob
      exact (hsound.shared.books.coherent e he).counted_once hover hdoomed
    obtain ⟨refused, missed, hledger⟩ := hsound.shared.books.ledger
    have hconserves : Conserves (tally Entry.account c.shared.jobs) :=
      tally_mem conserving fun e he => (hsound.shared.books.coherent e he).conserves
    have hmissed : missed + (tally Entry.account c.shared.jobs).claimInvariantFailures = 0 := by
      have hnone := hquiet.shared.missed
      rw [show c.shared.ledger = _ from hledger] at hnone
      have hmin : min (missed + (tally Entry.account c.shared.jobs).claimInvariantFailures) (2 ^ 64 - 1) = 0 := hnone
      omega
    have hvalid : c.shared.ledger.validate = .ok () := by
      rw [hledger]
      exact Conserves.validate_saturate (conserving.add_mem ⟨le_rfl, le_rfl, le_rfl, le_rfl⟩ hconserves) hmissed
    have haccounted : Accounted c.shared.jobs c.shared.ledger := by
      rw [hledger]
      exact ((accounted_tally honce).beside refused missed).saturate hlength
    have hact : (runtime digest calls).act i clock (c.phase i) c.shared =
        (.turnEnded (.ok c.shared.ledger), c.shared) := by
      simp only [runtime, hcall, hcleared, endTurn, hvalid]
      rfl
    have hstep : (runtime digest calls).step (.party i clock) c =
        ⟨c.shared, Function.update c.phase i (.turnEnded (.ok c.shared.ledger))⟩ := by
      rw [Parties.step, hact]
    rw [hstep]
    exact ⟨Function.update_self .., haccounted⟩

def sampleRoot : String := String.ofList (List.replicate 64 'a')

def samplePermit (node : String) : SpeculationPermit ℕ where
  nodeId := node
  operation := .read
  arguments := 0
  binding := ⟨sampleRoot, sampleRoot, sampleRoot, 1⟩
  proof := ⟨sampleRoot, sampleRoot, sampleRoot, sampleRoot, [sampleRoot], true⟩
  occurrence := 1
  certifiedPure := true
  cancellationBound := true
  workBudget := 5
  providerTokenBudget := 3

def nodeKey (permit : SpeculationPermit ℕ) : String := permit.nodeId

def sampleStart : Configuration (Fin 4) (Phase ℕ) (Runtime (Fin 4) ℕ) := ⟨{ limit := 2 }, fun _ => .start⟩

def call (i : Fin 4) : Turn (Fin 4) Clock (ℕ × Work ℕ) := .party i ⟨false, false⟩

def work (job : ℕ) : Turn (Fin 4) Clock (ℕ × Work ℕ) := .background (job, .returned (.ok 7))

def sampleCalls : Fin 4 → Call ℕ
  | 0 => .admitInner (samplePermit "p") none
  | 1 => .admitInner (samplePermit "q") none
  | 2 => .claim (samplePermit "p")
  | 3 => .endTurn

def sampleTurns : List (Turn (Fin 4) Clock (ℕ × Work ℕ)) :=
  [call 0, call 0, call 0, call 0, work 0, work 0, call 1, call 1, call 1, call 1, call 2, call 2, work 1, call 3,
    call 3, call 3, work 1, work 1, work 0, call 3, call 3, call 3, call 3, call 3]

theorem sample_turn_accounted : ((runtime nodeKey sampleCalls).run sampleTurns sampleStart).phase 3 = .cleared ∧
    Accounted ((runtime nodeKey sampleCalls).step (call 3)
        ((runtime nodeKey sampleCalls).run sampleTurns sampleStart)).shared.jobs
      ((runtime nodeKey sampleCalls).step (call 3)
        ((runtime nodeKey sampleCalls).run sampleTurns sampleStart)).shared.ledger := by
  have hcleared : ((runtime nodeKey sampleCalls).run sampleTurns sampleStart).phase 3 = .cleared := by decide +kernel
  have horderly : (runtime nodeKey sampleCalls).Meets (Orderly nodeKey sampleCalls) sampleTurns sampleStart := by
    decide +kernel
  obtain ⟨-, -, -, hend⟩ := speculation_accounted nodeKey sampleCalls 2 sampleStart rfl sampleTurns
  exact ⟨hcleared, (hend horderly (by decide +kernel) 3 ⟨false, false⟩ rfl hcleared).2⟩

def lostCalls : Fin 4 → Call ℕ
  | 0 => .endTurn
  | 1 => .admitInner (samplePermit "p") none
  | 2 => .endTurn
  | 3 => .endTurn

def lostTurns : List (Turn (Fin 4) Clock (ℕ × Work ℕ)) :=
  [call 0, call 0, call 0, call 1, call 1, call 1, call 1, call 0, call 0, work 0, work 0, work 0,
    call 2, call 2, call 2, call 2, call 2, call 2]

/-- A job that no class of the ledger counts: two turns end, the second one after its worker, and both accept a ledger
with one job dispatched and none hit, failed, cancelled or wasted. -/
theorem admitted_job_lost : ((runtime nodeKey lostCalls).run lostTurns sampleStart).phase 0 =
      .turnEnded (.ok { dispatched := 1, workUnitsDispatched := 5, providerTokensDispatched := 3 }) ∧
    ((runtime nodeKey lostCalls).run lostTurns sampleStart).phase 2 =
      .turnEnded (.ok { dispatched := 1, workUnitsDispatched := 5, providerTokensDispatched := 3 }) ∧
    ((runtime nodeKey lostCalls).run lostTurns sampleStart).shared.jobs.map (fun e => (e.state, e.worker, e.counted)) =
      [(.ready, .ended, [])] := by
  decide +kernel

end Zero.Speculation
