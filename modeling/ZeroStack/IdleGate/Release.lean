import ZeroStack.IdleGate.Window

/-! The release gate over an idle window. What it admits was idle, unless the window hides its CPU time. -/

open Wire Numeric

namespace Zero.IdleGate

structure IdleBudgets where
  maxCpuFractionPpb : ℕ
  maxRssBytes : ℕ
  deriving DecidableEq

def IdleBudgets.standard : IdleBudgets where
  maxCpuFractionPpb := 1000000
  maxRssBytes := 500 * 1024 * 1024

inductive IdleGateRefusalReason where
  | cpuBudgetViolation
  | rssBudgetViolation
  | backgroundActivityDetected
  deriving DecidableEq

structure IdleGateRefusal where
  reason : IdleGateRefusalReason
  observed : ℕ
  budget : ℕ
  detail : String
  deriving DecidableEq

structure IdleGateReceipt where
  schemaVersion : ℕ
  admitted : Bool
  refusal : Option IdleGateRefusal
  samples : ℕ
  windowWallNs : ℕ
  observedMaxCpuFractionPpb : ℕ
  observedMaxRssBytes : ℕ
  budgets : IdleBudgets
  evidenceDigest : Sha256Digest
  abiVersion : String
  deriving DecidableEq

def refusal (e : IdleWindowEvidence) (budgets : IdleBudgets) : Option IdleGateRefusal :=
  let cpu := e.observedMaxCpuFractionPpb
  let rss := e.observedMaxRssBytes
  if 0 < e.backgroundActivityEvents then
    some ⟨.backgroundActivityDetected, e.backgroundActivityEvents, 0,
      s!"{e.backgroundActivityEvents} background activity events observed during the idle window"⟩
  else if budgets.maxCpuFractionPpb < cpu then
    some ⟨.cpuBudgetViolation, cpu, budgets.maxCpuFractionPpb,
      s!"idle CPU fraction {cpu} ppb exceeds budget {budgets.maxCpuFractionPpb} ppb"⟩
  else if budgets.maxRssBytes < rss then
    some ⟨.rssBudgetViolation, rss, budgets.maxRssBytes,
      s!"idle RSS {rss} bytes exceeds budget {budgets.maxRssBytes} bytes"⟩
  else none

section Gate
variable (sha256 : List UInt8 → Sha256Digest)

def evaluateIdleReleaseGate (evidence : Option IdleWindowEvidence) (budgets : IdleBudgets) :
    Except IdleGateError IdleGateReceipt :=
  match evidence with
  | none => .error .requiresEvidence
  | some e => do
    e.validate
    let evidenceDigest ← e.digest sha256
    return {
      schemaVersion := idleGateSchemaVersion
      admitted := (refusal e budgets).isNone
      refusal := refusal e budgets
      samples := e.samples.length
      windowWallNs := e.windowWallNs
      observedMaxCpuFractionPpb := e.observedMaxCpuFractionPpb
      observedMaxRssBytes := e.observedMaxRssBytes
      budgets := budgets
      evidenceDigest := evidenceDigest
      abiVersion := idleGateAbiVersion }

def admits (e : IdleWindowEvidence) (budgets : IdleBudgets) : Bool :=
  match evaluateIdleReleaseGate sha256 (some e) budgets with
  | .ok receipt => receipt.admitted
  | .error _ => false

variable {sha256}

theorem refusal_eq_none {e : IdleWindowEvidence} {budgets : IdleBudgets} :
    refusal e budgets = none ↔ e.backgroundActivityEvents = 0 ∧
      e.observedMaxCpuFractionPpb ≤ budgets.maxCpuFractionPpb ∧ e.observedMaxRssBytes ≤ budgets.maxRssBytes := by
  unfold refusal
  dsimp only
  split_ifs with hevents hcpu hrss
  · simp [hevents.ne']
  · simp [hcpu]
  · simp [hrss]
  · simp only [not_lt, Nat.le_zero] at hevents hcpu hrss
    simp [hevents, hcpu, hrss]

theorem admits_iff {e : IdleWindowEvidence} {budgets : IdleBudgets} :
    admits sha256 e budgets = true ↔ e.validate = .ok () ∧ e.backgroundActivityEvents = 0 ∧
      e.observedMaxCpuFractionPpb ≤ budgets.maxCpuFractionPpb ∧ e.observedMaxRssBytes ≤ budgets.maxRssBytes := by
  rw [← refusal_eq_none]
  cases hvalid : e.validate with
  | error error =>
    have hgate : evaluateIdleReleaseGate sha256 (some e) budgets = .error error := by
      simp only [evaluateIdleReleaseGate, hvalid]
      rfl
    simp [admits, hgate]
  | ok =>
    have hgate : admits sha256 e budgets = (refusal e budgets).isNone := by
      simp only [admits, evaluateIdleReleaseGate, IdleWindowEvidence.digest, IdleWindowEvidence.canonicalBytes, hvalid]
      rfl
    simp [hgate]

end Gate

def IdleSample.withoutCpu (s : IdleSample) : IdleSample := { s with cpuUserNs := 0, cpuSysNs := 0 }

variable (e : IdleWindowEvidence)

def IdleWindowEvidence.withoutCpu : IdleWindowEvidence :=
  { e with samples := e.samples.map IdleSample.withoutCpu }

/-- The window was idle: the exact share of CPU time is below the next part per billion after the budget. -/
structure Idle (e : IdleWindowEvidence) (budgets : IdleBudgets) : Prop where
  cpu : (e.cpuSpent : ℚ) / e.wallSpent * 1000000000 < budgets.maxCpuFractionPpb + 1
  still : e.wallSpent = 0 → e.cpuSpent = 0
  rss : ∀ s ∈ e.samples, s.rssBytes ≤ budgets.maxRssBytes
  events : e.backgroundActivityEvents = 0

/-- CPU time beyond the budget that the gate does not see: any, where the wall clock stands still, and otherwise what
the saturating sums and product take away. -/
def IdleWindowEvidence.Hides (budgets : IdleBudgets) : Prop :=
  if e.wallSpent = 0 then 0 < e.cpuSpent
  else saturate u64Max (e.cpuSeen * 1000000000) < (budgets.maxCpuFractionPpb + 1) * e.wallSpent ∧
    (budgets.maxCpuFractionPpb + 1) * e.wallSpent ≤ e.cpuSpent * 1000000000

theorem cpu_rate_iff {budget : ℕ} (hwall : 0 < e.wallSpent) :
    (e.cpuSpent : ℚ) / e.wallSpent * 1000000000 < budget + 1 ↔
      e.cpuSpent * 1000000000 < (budget + 1) * e.wallSpent := by
  have hrate := ratio_lt_iff e.cpuSpent 1000000000 budget hwall
  exact_mod_cast hrate

theorem wallSpent_withoutCpu : e.withoutCpu.wallSpent = e.wallSpent := by
  have hfirst : e.withoutCpu.first.elapsedWallNs = e.first.elapsedWallNs := by
    cases hhead : e.samples.head? <;>
      simp [IdleWindowEvidence.first, IdleWindowEvidence.withoutCpu, IdleSample.withoutCpu, hhead]
  have hlast : e.withoutCpu.last.elapsedWallNs = e.last.elapsedWallNs := by
    cases hend : e.samples.getLast? <;>
      simp [IdleWindowEvidence.last, IdleWindowEvidence.withoutCpu, IdleSample.withoutCpu, hend]
  rw [IdleWindowEvidence.wallSpent, hfirst, hlast, IdleWindowEvidence.wallSpent]

theorem observedMaxRssBytes_withoutCpu : e.withoutCpu.observedMaxRssBytes = e.observedMaxRssBytes := by
  have hrss : (fun s => s.rssBytes) ∘ IdleSample.withoutCpu = fun s => s.rssBytes := by
    funext s
    rfl
  simp only [IdleWindowEvidence.observedMaxRssBytes, IdleWindowEvidence.withoutCpu, List.map_map, hrss]

section Sound
variable {e} {sha256 : List UInt8 → Sha256Digest} {budgets : IdleBudgets}

theorem idle_of_admits (hadmits : admits sha256 e budgets = true) (hseen : ¬ e.Hides budgets) : Idle e budgets := by
  obtain ⟨-, hevents, hcpu, hrss⟩ := admits_iff.mp hadmits
  rw [e.observedMaxRssBytes_le_iff] at hrss
  by_cases hwall : e.wallSpent = 0
  · rw [IdleWindowEvidence.Hides, if_pos hwall] at hseen
    refine ⟨?_, fun _ => Nat.eq_zero_of_not_pos hseen, hrss, hevents⟩
    rw [hwall, Nat.cast_zero, div_zero, zero_mul]
    exact_mod_cast Nat.succ_pos _
  · have hpos := Nat.pos_of_ne_zero hwall
    rw [e.observed_le_iff hpos] at hcpu
    rw [IdleWindowEvidence.Hides, if_neg hwall] at hseen
    refine ⟨(cpu_rate_iff e hpos).mpr ?_, fun hstill => absurd hstill hwall, hrss, hevents⟩
    exact Nat.lt_of_not_le fun hover => hseen ⟨hcpu, hover⟩

theorem Idle.not_hides (h : Idle e budgets) : ¬ e.Hides budgets := by
  unfold IdleWindowEvidence.Hides
  split_ifs with hwall
  · rw [h.still hwall]
    exact Nat.lt_irrefl 0
  · rintro ⟨-, hover⟩
    have hrate := (cpu_rate_iff e (Nat.pos_of_ne_zero hwall)).mp h.cpu
    exact absurd hover (Nat.not_le.mpr hrate)

theorem admits_of_hides (hvalid : e.validate = .ok ()) (hevents : e.backgroundActivityEvents = 0)
    (hrss : ∀ s ∈ e.samples, s.rssBytes ≤ budgets.maxRssBytes) (h : e.Hides budgets) :
    admits sha256 e budgets = true := by
  refine admits_iff.mpr ⟨hvalid, hevents, ?_, e.observedMaxRssBytes_le_iff.mpr hrss⟩
  unfold IdleWindowEvidence.Hides at h
  split_ifs at h with hwall
  · rw [e.observed_of_still hwall]
    exact Nat.zero_le _
  · exact (e.observed_le_iff (Nat.pos_of_ne_zero hwall)).mpr h.1

-- The time that is counted is never more than the time that was spent, so only the window with more of it matters.
theorem Idle.admits_calmer (h : Idle e budgets) {calmer : IdleWindowEvidence} (hvalid : calmer.validate = .ok ())
    (hsame : calmer.withoutCpu = e.withoutCpu) (hcpu : calmer.cpuSpent ≤ e.cpuSpent) :
    admits sha256 calmer budgets = true := by
  have hevents : calmer.withoutCpu.backgroundActivityEvents = e.withoutCpu.backgroundActivityEvents := by rw [hsame]
  have hwall : calmer.wallSpent = e.wallSpent := by rw [← wallSpent_withoutCpu, hsame, wallSpent_withoutCpu]
  have hrss : calmer.observedMaxRssBytes = e.observedMaxRssBytes := by
    rw [← observedMaxRssBytes_withoutCpu, hsame, observedMaxRssBytes_withoutCpu]
  refine admits_iff.mpr ⟨hvalid, hevents.trans h.events, ?_, hrss.trans_le (e.observedMaxRssBytes_le_iff.mpr h.rss)⟩
  rcases Nat.eq_zero_or_pos e.wallSpent with hstill | hpos
  · rw [calmer.observed_of_still (hwall.trans hstill)]
    exact Nat.zero_le _
  · rw [calmer.observed_le_iff (hwall ▸ hpos), hwall]
    calc saturate u64Max (calmer.cpuSeen * 1000000000) ≤ calmer.cpuSeen * 1000000000 := saturate_le _ _
      _ ≤ e.cpuSpent * 1000000000 := Nat.mul_le_mul_right _ (calmer.cpuSeen_le.trans hcpu)
      _ < (budgets.maxCpuFractionPpb + 1) * e.wallSpent := (cpu_rate_iff e hpos).mp h.cpu

end Sound

def twoReadouts (wall cpu rss : ℕ) : IdleWindowEvidence where
  schemaVersion := 1
  windowStartUnixNs := 0
  windowEndUnixNs := wall
  samples := [⟨0, 0, 0, rss, 0⟩, ⟨wall, cpu, 0, rss, wall⟩]
  backgroundActivityEvents := 0
  abiVersion := "zerostack.idle-gate/1"

end Zero.IdleGate
