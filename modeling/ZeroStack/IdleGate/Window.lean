import ZeroStack.Abi
import ZeroStack.Numeric

/-! The evidence of an idle window: readouts of a process, taken while nothing should run. -/

open Wire Numeric

namespace Zero.IdleGate

def idleGateSchemaVersion : ℕ := 1
def idleGateAbiVersion : String := "zerostack.idle-gate/1"
def idleGateDomain : List UInt8 := utf8Bytes "zerostack.idle-gate" ++ [0]

def u64Max : ℕ := 2 ^ 64 - 1

inductive IdleGateError where
  | requiresEvidence
  | invalidEvidence (detail : String)
  | evaluation (detail : String)
  deriving DecidableEq

structure IdleSample where
  elapsedWallNs : ℕ
  cpuUserNs : ℕ
  cpuSysNs : ℕ
  rssBytes : ℕ
  sampledAtUnixNs : ℕ
  deriving DecidableEq, Inhabited

def IdleSample.cumulativeCpuNs (s : IdleSample) : ℕ := saturate u64Max (s.cpuUserNs + s.cpuSysNs)

structure IdleWindowEvidence where
  schemaVersion : ℕ
  windowStartUnixNs : ℕ
  windowEndUnixNs : ℕ
  samples : List IdleSample
  backgroundActivityEvents : ℕ
  abiVersion : String
  deriving DecidableEq

def IdleSample.follows (s previous : IdleSample) : Bool :=
  !(s.sampledAtUnixNs < previous.sampledAtUnixNs || s.elapsedWallNs < previous.elapsedWallNs ||
    s.cumulativeCpuNs < previous.cumulativeCpuNs)

def checkReadouts : Option IdleSample → List IdleSample → Except IdleGateError Unit
  | _, [] => .ok ()
  | none, s :: rest => checkReadouts (some s) rest
  | some previous, s :: rest =>
    if s.follows previous then checkReadouts (some s) rest
    else .error (.invalidEvidence "sample readouts must be monotonic")

namespace IdleWindowEvidence
variable (e : IdleWindowEvidence)

def first : IdleSample := e.samples.head?.getD default

def last : IdleSample := e.samples.getLast?.getD default

def validate : Except IdleGateError Unit := do
  if e.schemaVersion ≠ idleGateSchemaVersion then
    throw (.invalidEvidence "idle evidence schema version is not supported")
  if e.abiVersion ≠ idleGateAbiVersion then
    throw (.invalidEvidence "idle evidence ABI version is not supported")
  if e.samples = [] then
    throw (.invalidEvidence "an idle window needs at least a start and an end sample")
  if e.windowEndUnixNs < e.windowStartUnixNs then
    throw (.invalidEvidence "window end precedes window start")
  checkReadouts none e.samples
  if e.first.sampledAtUnixNs ≠ e.windowStartUnixNs ∨ e.last.sampledAtUnixNs ≠ e.windowEndUnixNs then
    throw (.invalidEvidence "window bounds must equal the first and last sample readouts")

def windowWallNs : ℕ := e.windowEndUnixNs - e.windowStartUnixNs

def observedMaxCpuFractionPpb : ℕ :=
  let wall := e.last.elapsedWallNs - e.first.elapsedWallNs
  let cpu := e.last.cumulativeCpuNs - e.first.cumulativeCpuNs
  if wall = 0 then 0
  else saturate u64Max (cpu * 1000000000) / wall

def observedMaxRssBytes : ℕ := (e.samples.map (·.rssBytes)).max?.getD 0

end IdleWindowEvidence

def IdleSample.json (s : IdleSample) : Json :=
  .obj [("cpu_sys_ns", .nat s.cpuSysNs), ("cpu_user_ns", .nat s.cpuUserNs), ("elapsed_wall_ns", .nat s.elapsedWallNs),
    ("rss_bytes", .nat s.rssBytes), ("sampled_at_unix_ns", .nat s.sampledAtUnixNs)]

namespace IdleWindowEvidence
variable (e : IdleWindowEvidence)

def json : Json :=
  .obj [("abi_version", .text e.abiVersion), ("background_activity_events", .nat e.backgroundActivityEvents),
    ("samples", .arr (e.samples.map IdleSample.json)), ("schema_version", .nat e.schemaVersion),
    ("window_end_unix_ns", .nat e.windowEndUnixNs), ("window_start_unix_ns", .nat e.windowStartUnixNs)]

def canonicalBytes : Except IdleGateError (List UInt8) := do
  e.validate
  return e.json.canonical

def digest (sha256 : List UInt8 → Sha256Digest) : Except IdleGateError Sha256Digest := do
  let bytes ← e.canonicalBytes
  return sha256 (idleGateDomain ++ bytes)

def wallSpent : ℕ := e.last.elapsedWallNs - e.first.elapsedWallNs

def cpuSpent : ℕ := (e.last.cpuUserNs + e.last.cpuSysNs) - (e.first.cpuUserNs + e.first.cpuSysNs)

def cpuSeen : ℕ := e.last.cumulativeCpuNs - e.first.cumulativeCpuNs

theorem cpuSeen_le : e.cpuSeen ≤ e.cpuSpent := saturate_sub_saturate_le u64Max _ _

theorem observed_le_iff {budget : ℕ} (hwall : 0 < e.wallSpent) : e.observedMaxCpuFractionPpb ≤ budget ↔
    saturate u64Max (e.cpuSeen * 1000000000) < (budget + 1) * e.wallSpent := by
  show (if e.wallSpent = 0 then 0 else saturate u64Max (e.cpuSeen * 1000000000) / e.wallSpent) ≤ budget ↔ _
  rw [if_neg hwall.ne', div_le_iff_lt hwall]

theorem observed_of_still (hwall : e.wallSpent = 0) : e.observedMaxCpuFractionPpb = 0 := if_pos hwall

theorem observedMaxRssBytes_le_iff {budget : ℕ} :
    e.observedMaxRssBytes ≤ budget ↔ ∀ s ∈ e.samples, s.rssBytes ≤ budget := by
  have hmap : (∀ rss ∈ e.samples.map (·.rssBytes), rss ≤ budget) ↔ ∀ s ∈ e.samples, s.rssBytes ≤ budget :=
    List.forall_mem_map
  rw [← hmap, observedMaxRssBytes]
  cases hmax : (e.samples.map (·.rssBytes)).max? with
  | none => simp [List.max?_eq_none_iff.mp hmax]
  | some top => exact List.max?_le_iff hmax

end IdleWindowEvidence
end Zero.IdleGate
