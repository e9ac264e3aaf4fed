import ZeroStack.Numeric

/-! The two guards of the 99 percent of demanded mass that is to stay resident: the window of observed demand, and the
eviction guard with its mirror in the file store. -/

open Numeric List

namespace Zero.Residency

inductive ResidencyError where
  | invalidDemandLedger (detail : String)
  | slackExceeded (residentMass demandedMass : UInt64) (slack : ℤ)
  | invalidLayerLedger (detail : String)
  | l3LossUndiscovered (detail : String)
  deriving DecidableEq

def maxMass : ℕ := 2 ^ 64 - 1

def ppmOf (numerator denominator : ℕ) : ℕ :=
  if denominator = 0 then maxMass else saturate maxMass (numerator * 1000000) / denominator

section Window

structure DemandObservation where
  demandedMass : UInt64
  hit : Bool

def totalMass (observations : List DemandObservation) : ℕ :=
  observations.foldl (fun mass observation => saturate maxMass (mass + observation.demandedMass.toNat)) 0

def q99CentralChangeFractionPpm : ℕ := 10000

structure Q99Window where
  observations : List DemandObservation
  initialValidMass : UInt64

namespace Q99Window
variable (w : Q99Window)

def demandedMass : ℕ := totalMass w.observations

def hitMass : ℕ := totalMass (w.observations.filter (·.hit))

def recomputePpm : ℕ := if w.demandedMass = 0 then maxMass else ppmOf (w.demandedMass - w.hitMass) w.demandedMass

def restorationThreshold : ℕ := w.initialValidMass.toNat - w.demandedMass / 100

def q99Unavailable (currentValidMass : UInt64) : Option (List String) :=
  let threshold := w.restorationThreshold
  let reasons := (if w.demandedMass = 0 then ["no_demand_observations"] else []) ++
    (if q99CentralChangeFractionPpm < w.recomputePpm then
      [s!"central_change_exceeds_one_percent:recompute_ppm={w.recomputePpm}"] else []) ++
    (if currentValidMass.toNat < threshold then
      [s!"restoration_required:valid_mass={currentValidMass},threshold={threshold}"] else [])
  if reasons.isEmpty then none else some reasons

end Q99Window

def mass (observations : List DemandObservation) : ℕ := (observations.map (·.demandedMass.toNat)).sum

theorem totalMass_eq (observations : List DemandObservation) :
    totalMass observations = saturate maxMass (mass observations) := by
  have hfold : ∀ n, observations.foldl (fun mass o =>
      saturate maxMass (mass + o.demandedMass.toNat)) (saturate maxMass n) =
      saturate maxMass (n + mass observations) := by
    induction observations with
    | nil => exact fun n => rfl
    | cons o observations ih =>
      intro n
      have hstep : saturate maxMass (saturate maxMass n + o.demandedMass.toNat) =
          saturate maxMass (n + o.demandedMass.toNat) := by
        simp only [saturate]
        omega
      rw [foldl_cons, hstep, ih, mass, mass, map_cons, sum_cons, Nat.add_assoc]
  rw [totalMass, ← saturate_of_le (Nat.zero_le maxMass), hfold, Nat.zero_add]

theorem mass_hit_add_missed (observations : List DemandObservation) :
    mass (observations.filter (·.hit)) + mass (observations.filter (!·.hit)) = mass observations := by
  rw [mass, mass, mass, ← sum_append, ← map_append]
  exact ((filter_append_perm (·.hit) observations).map _).sum_nat

namespace Q99Window

def demanded (w : Q99Window) : ℕ := mass w.observations

def missed (w : Q99Window) : ℕ := mass (w.observations.filter (!·.hit))

/-- More than one percent is missed, but the capped product over the capped sum is below 10001 parts per million, as the
parts are rounded down; and the valid mass is high enough. -/
structure Unseen (w : Q99Window) (current : UInt64) : Prop where
  missed : w.demanded < 100 * w.missed
  parts : saturate maxMass ((w.demandedMass - w.hitMass) * 1000000) < 10001 * w.demandedMass
  valid : w.initialValidMass.toNat - w.demandedMass / 100 ≤ current.toNat

theorem q99Unavailable_eq_none {w : Q99Window} {current : UInt64} : w.q99Unavailable current = none ↔
    w.demandedMass ≠ 0 ∧ w.recomputePpm ≤ 10000 ∧ w.restorationThreshold ≤ current.toNat := by
  unfold q99Unavailable q99CentralChangeFractionPpm
  by_cases hzero : w.demandedMass = 0
  · simp [hzero]
  · simp [hzero, List.isEmpty_iff]

theorem not_missed_of_demandedMass_eq_zero {w : Q99Window} (h : w.demandedMass = 0) :
    ¬ w.demanded < 100 * w.missed := by
  have hsum := mass_hit_add_missed w.observations
  rw [demandedMass, totalMass_eq, saturate, maxMass] at h
  rw [demanded, missed]
  omega

theorem available_iff {w : Q99Window} {current : UInt64} (hpos : w.demandedMass ≠ 0) : w.q99Unavailable current = none ↔
    saturate maxMass ((w.demandedMass - w.hitMass) * 1000000) < 10001 * w.demandedMass ∧
      w.initialValidMass.toNat - w.demandedMass / 100 ≤ current.toNat := by
  rw [q99Unavailable_eq_none, recomputePpm, if_neg hpos, ppmOf, if_neg hpos, div_le_iff_lt (Nat.pos_of_ne_zero hpos)]
  exact and_iff_right hpos

theorem missed_le_iff (w : Q99Window) (current : UInt64) :
    (w.q99Unavailable current = none → 100 * w.missed ≤ w.demanded) ↔ ¬ w.Unseen current := by
  constructor
  · intro h hunseen
    have hpos : w.demandedMass ≠ 0 := fun hzero => not_missed_of_demandedMass_eq_zero hzero hunseen.missed
    exact absurd hunseen.missed (Nat.not_lt.mpr (h ((available_iff hpos).mpr ⟨hunseen.parts, hunseen.valid⟩)))
  · intro hunseen hnone
    obtain ⟨hparts, hvalid⟩ := (available_iff (q99Unavailable_eq_none.mp hnone).1).mp hnone
    exact Nat.le_of_not_lt fun hmissed => hunseen ⟨hmissed, hparts, hvalid⟩

end Q99Window
end Window

section Eviction

def asI64 (n : ℕ) : ℤ := (n : ℤ).bmod (2 ^ 64)

structure EvictionSlack where
  residentMass : UInt64
  demandedMass : UInt64

namespace EvictionSlack

def new (residentMass demandedMass : UInt64) : Except ResidencyError EvictionSlack :=
  if demandedMass = 0 then .error (.invalidDemandLedger "demanded_mass must be nonzero")
  else .ok ⟨residentMass, demandedMass⟩

variable (slack : EvictionSlack) (evictWeight : UInt64)

def slackPpm : ℤ :=
  let demanded := slack.demandedMass.toNat
  asI64 (ppmOf slack.residentMass.toNat demanded) - asI64 (ppmOf (demanded * 99 / 100) demanded)

def guardWith {ε : Type} (refused : ε) : Option (Except ε Unit) :=
  let floor := slack.demandedMass.toNat * 99 / 100
  if 2 ^ 64 ≤ slack.demandedMass.toNat * 99 then none
  else if slack.residentMass.toNat - evictWeight.toNat < floor then some (.error refused)
  else some (.ok ())

def guardEviction : Option (Except ResidencyError Unit) :=
  slack.guardWith evictWeight (.slackExceeded slack.residentMass slack.demandedMass slack.slackPpm)

end EvictionSlack

inductive CasError where
  | evictionRefused (residentMass demandedMass evictWeight : UInt64) (slackPpm : ℤ)
  deriving DecidableEq

def EvictionSlackGuard.guardEviction (g : EvictionSlack) (evictWeight : UInt64) : Option (Except CasError Unit) :=
  g.guardWith evictWeight (.evictionRefused g.residentMass g.demandedMass evictWeight
    (if g.demandedMass = 0 then 0 else g.slackPpm))

namespace EvictionSlack
variable (slack : EvictionSlack) (evictWeight : UInt64)

/-- The product fits, and the mass that would be left is not the floor, unless the floor is exact. -/
structure Exact : Prop where
  fits : slack.demandedMass.toNat * 99 < 2 ^ 64
  floor : slack.residentMass.toNat - evictWeight.toNat ≠ slack.demandedMass.toNat * 99 / 100 ∨
    100 ∣ slack.demandedMass.toNat ∧ evictWeight.toNat ≤ slack.residentMass.toNat

def Guards {ε : Type} (r : Option (Except ε Unit)) : Prop :=
  r ≠ none ∧ (r = some (.ok ()) →
    99 * (slack.demandedMass.toNat : ℤ) ≤ 100 * ((slack.residentMass.toNat : ℤ) - evictWeight.toNat))

variable {slack evictWeight}

theorem guards_guardWith_iff {ε : Type} {refused : ε} :
    slack.Guards evictWeight (slack.guardWith evictWeight refused) ↔ slack.Exact evictWeight := by
  unfold guardWith
  by_cases hfits : 2 ^ 64 ≤ slack.demandedMass.toNat * 99
  · rw [if_pos hfits]
    exact ⟨fun h => absurd rfl h.1, fun h => absurd hfits (Nat.not_le.mpr h.fits)⟩
  rw [if_neg hfits]
  split_ifs with hlow
  · exact ⟨fun _ => ⟨Nat.lt_of_not_le hfits, .inl hlow.ne⟩, fun _ => ⟨nofun, nofun⟩⟩
  constructor
  · intro h
    have hleft := h.2 rfl
    exact ⟨Nat.lt_of_not_le hfits, by omega⟩
  · intro h
    refine ⟨nofun, fun _ => ?_⟩
    rcases h.floor with hne | ⟨hdvd, hle⟩ <;> omega

end EvictionSlack

-- A part in 2^18 of a mass of 2^63 is no more than one percent, although its product saturates.
example : ¬ Q99Window.Unseen ⟨[⟨2 ^ 63 - 2 ^ 45, true⟩, ⟨2 ^ 45, false⟩], 0⟩ 0 := fun h => absurd h.missed (by decide)

end Eviction
end Zero.Residency
