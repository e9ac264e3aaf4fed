import Mathlib.Data.List.InsertIdx
import Mathlib.Data.Nat.Log
import Mathlib.Tactic.Ring
import ZeroStack.Hashed.Tree

/-! The transparency log of a store: a Merkle mountain range over the content hashes of its blobs, with its root, its
inclusion proofs and their verifier. An honest proof is accepted. -/

open Hashed List

namespace GraphZero.Mmr

variable {D : Type}

structure Digests (D : Type) where
  hashPair : D → D → D
  zero : D

variable (digests : Digests D)

def bagPeaks (peaks : List D) : D :=
  match peaks.reverse with
  | [] => digests.zero
  | last :: rest => rest.foldl (fun acc peak => digests.hashPair peak acc) last

def mountainHeightsLoop : ℕ → ℕ → List ℕ
  | 0, _ => []
  | fuel + 1, remaining =>
    if remaining = 0 then []
    else Nat.log 2 remaining :: mountainHeightsLoop fuel (remaining - 2 ^ Nat.log 2 remaining)

def mountainHeights (n : ℕ) : List ℕ := mountainHeightsLoop n n

def rangesFrom : ℕ → List ℕ → List (ℕ × ℕ)
  | _, [] => []
  | start, h :: heights => (start, h) :: rangesFrom (start + 2 ^ h) heights

def mountainRanges (n : ℕ) : List (ℕ × ℕ) := rangesFrom 0 (mountainHeights n)

structure TransparencyLog (D : Type) where
  leaves : List D
  deriving DecidableEq

structure InclusionProof (D : Type) where
  leafIndex : UInt32
  leafHash : D
  path : List (Step D)
  peakIndex : UInt32
  otherPeaks : List D
  deriving DecidableEq

namespace TransparencyLog

variable (log : TransparencyLog D)

def countU32 : ℕ := log.leaves.length % 2 ^ 32

def computeRangeHash (log : TransparencyLog D) (start : ℕ) : ℕ → D
  | 0 => log.leaves.getD start digests.zero
  | h + 1 => digests.hashPair (log.computeRangeHash start h) (log.computeRangeHash (start + 2 ^ h) h)

def peaks : List D :=
  (mountainRanges log.countU32).map fun range => log.computeRangeHash digests range.1 range.2

def root : D := bagPeaks digests (log.peaks digests)

def findMountain (leafIndex : ℕ) : ℕ → List (ℕ × ℕ) → Option (ℕ × ℕ × ℕ)
  | _, [] => none
  | i, (start, h) :: ranges =>
    if leafIndex < start + 2 ^ h then some (i, start, h) else findMountain leafIndex (i + 1) ranges

def sibling (mountainStart level currentPos : ℕ) : Step D :=
  let nodeLeafStart := mountainStart + currentPos * 2 ^ level
  if currentPos % 2 = 0 then ⟨true, log.computeRangeHash digests (nodeLeafStart + 2 ^ level) level⟩
  else ⟨false, log.computeRangeHash digests (nodeLeafStart - 2 ^ level) level⟩

def pathFrom (log : TransparencyLog D) (mountainStart level currentPos : ℕ) : ℕ → List (Step D)
  | 0 => []
  | levels + 1 =>
    log.sibling digests mountainStart level currentPos :: log.pathFrom mountainStart (level + 1) (currentPos / 2) levels

def inclusionProof (leafIndex : UInt32) : Except String (InclusionProof D) :=
  if log.countU32 ≤ leafIndex.toNat then
    .error s!"leaf index {leafIndex} out of range ({log.countU32} leaves)"
  else
    let (mountainIdx, mountainStart, mountainHeight) :=
      (findMountain leafIndex.toNat 0 (mountainRanges log.countU32)).getD (0, 0, 0)
    .ok {
      leafIndex := leafIndex
      leafHash := log.leaves.getD leafIndex.toNat digests.zero
      path := log.pathFrom digests mountainStart 0 (leafIndex.toNat - mountainStart) mountainHeight
      peakIndex := UInt32.ofNat mountainIdx
      otherPeaks := (log.peaks digests).eraseIdx mountainIdx }

end TransparencyLog

def InclusionProof.allPeaks (p : InclusionProof D) (peak : D) : List D :=
  p.otherPeaks.insertIdx (min p.peakIndex.toNat p.otherPeaks.length) peak

def verify [DecidableEq D] (leafHash : D) (p : InclusionProof D) (expectedRoot : D) : Bool :=
  if p.leafHash ≠ leafHash then false
  else bagPeaks digests (p.allPeaks (walk digests.hashPair leafHash p.path)) = expectedRoot

section Ranges

theorem sum_mountainHeightsLoop {fuel remaining : ℕ} (h : remaining ≤ fuel) :
    ((mountainHeightsLoop fuel remaining).map (2 ^ ·)).sum = remaining := by
  induction fuel generalizing remaining with
  | zero => simp [mountainHeightsLoop, Nat.le_zero.mp h]
  | succ fuel ih =>
    rw [mountainHeightsLoop]
    split_ifs with hzero
    · simp [hzero]
    · have hpow : 2 ^ Nat.log 2 remaining ≤ remaining := Nat.pow_log_le_self 2 hzero
      have hpos : 0 < 2 ^ Nat.log 2 remaining := Nat.two_pow_pos _
      rw [map_cons, sum_cons, ih (by omega)]
      omega

theorem sum_mountainHeights (n : ℕ) : ((mountainHeights n).map (2 ^ ·)).sum = n := sum_mountainHeightsLoop le_rfl

theorem exists_findMountain {leafIndex i start : ℕ} {heights : List ℕ} (hstart : start ≤ leafIndex)
    (hend : leafIndex < start + (heights.map (2 ^ ·)).sum) :
    ∃ j s h, TransparencyLog.findMountain leafIndex i (rangesFrom start heights) = some (i + j, s, h) ∧
      (rangesFrom start heights)[j]? = some (s, h) ∧ s ≤ leafIndex ∧ leafIndex < s + 2 ^ h := by
  induction heights generalizing i start with
  | nil => exact absurd hend (Nat.not_lt.mpr hstart)
  | cons height heights ih =>
    rw [map_cons, sum_cons] at hend
    rw [rangesFrom, TransparencyLog.findMountain]
    split_ifs with hhere
    · exact ⟨0, start, height, rfl, rfl, hstart, hhere⟩
    · obtain ⟨j, s, h, hfind, hget, hle, hlt⟩ := ih (Nat.not_lt.mp hhere) (by omega)
      refine ⟨j + 1, s, h, ?_, hget, hle, hlt⟩
      rw [hfind, Nat.add_assoc, Nat.add_comm 1 j]

theorem length_mountainHeightsLoop_le (fuel remaining : ℕ) : (mountainHeightsLoop fuel remaining).length ≤ fuel := by
  induction fuel generalizing remaining with
  | zero => exact le_rfl
  | succ fuel ih =>
    rw [mountainHeightsLoop]
    split_ifs
    · exact Nat.zero_le _
    · exact Nat.succ_le_succ (ih _)

theorem length_rangesFrom (start : ℕ) (heights : List ℕ) : (rangesFrom start heights).length = heights.length := by
  induction heights generalizing start with
  | nil => rfl
  | cons h heights ih => rw [rangesFrom, length_cons, length_cons, ih]

theorem length_mountainRanges_le (n : ℕ) : (mountainRanges n).length ≤ n := by
  rw [mountainRanges, length_rangesFrom]
  exact length_mountainHeightsLoop_le n n

end Ranges

namespace TransparencyLog
variable {digests} {log : TransparencyLog D}

theorem join_sibling (mountainStart level currentPos : ℕ) :
    (log.sibling digests mountainStart level currentPos).join digests.hashPair
        (log.computeRangeHash digests (mountainStart + currentPos * 2 ^ level) level) =
      log.computeRangeHash digests (mountainStart + currentPos / 2 * 2 ^ (level + 1)) (level + 1) := by
  have hhalf : currentPos = 2 * (currentPos / 2) + currentPos % 2 := (Nat.div_add_mod currentPos 2).symm
  have hstart : mountainStart + currentPos / 2 * 2 ^ (level + 1) + currentPos % 2 * 2 ^ level =
      mountainStart + currentPos * 2 ^ level := by
    conv_rhs => rw [hhalf]
    ring
  unfold sibling
  rcases Nat.mod_two_eq_zero_or_one currentPos with heven | hodd
  · rw [heven, Nat.zero_mul, Nat.add_zero] at hstart
    rw [if_pos heven, hstart]
    rfl
  · rw [hodd, Nat.one_mul] at hstart
    have hleft : ¬ currentPos % 2 = 0 := by omega
    rw [if_neg hleft, ← hstart, Nat.add_sub_cancel]
    rfl

theorem walk_pathFrom (mountainStart level currentPos levels : ℕ) :
    walk digests.hashPair (log.computeRangeHash digests (mountainStart + currentPos * 2 ^ level) level)
        (log.pathFrom digests mountainStart level currentPos levels) =
      log.computeRangeHash digests (mountainStart + currentPos / 2 ^ levels * 2 ^ (level + levels))
        (level + levels) := by
  induction levels generalizing level currentPos with
  | zero =>
    rw [pow_zero, Nat.div_one]
    rfl
  | succ levels ih =>
    rw [pathFrom, walk, foldl_cons, join_sibling, ← walk, ih, Nat.div_div_eq_div_mul, ← pow_succ', Nat.add_right_comm,
      Nat.add_assoc]

theorem walk_path {start pos height : ℕ} (h : pos < 2 ^ height) :
    walk digests.hashPair (log.leaves.getD (start + pos) digests.zero) (log.pathFrom digests start 0 pos height) =
      log.computeRangeHash digests start height := by
  have hwalk := @walk_pathFrom D digests log start 0 pos height
  rw [pow_zero, Nat.mul_one, Nat.div_eq_of_lt h, Nat.zero_mul, Nat.zero_add] at hwalk
  exact hwalk

theorem inclusionProof_eq_ok {leafIndex : UInt32} {p : InclusionProof D}
    (h : log.inclusionProof digests leafIndex = .ok p) :
    ∃ j, ∃ hj, leafIndex.toNat < log.countU32 ∧
      p.leafIndex = leafIndex ∧ p.leafHash = log.leaves.getD leafIndex.toNat digests.zero ∧
        walk digests.hashPair p.leafHash p.path = (log.peaks digests)[j] ∧ p.peakIndex.toNat = j ∧
          p.otherPeaks = (log.peaks digests).eraseIdx j := by
  unfold inclusionProof at h
  split_ifs at h with hrange
  have hlt : leafIndex.toNat < log.countU32 := Nat.not_le.mp hrange
  obtain ⟨j, start, height, hfind, hget, hstart, hend⟩ :=
    @exists_findMountain leafIndex.toNat 0 0 (mountainHeights log.countU32) (Nat.zero_le _)
      (by rwa [sum_mountainHeights, Nat.zero_add])
  rw [mountainRanges, hfind, Nat.zero_add] at h
  cases h
  obtain ⟨hj, hrangeJ⟩ := List.getElem?_eq_some_iff.mp hget
  have hlength : (log.peaks digests).length = (mountainRanges log.countU32).length := length_map _
  have hbound : j < (log.peaks digests).length := by rwa [hlength]
  have hpeak : (log.peaks digests)[j] = log.computeRangeHash digests start height := by
    simp only [peaks, getElem_map, mountainRanges, hrangeJ]
  refine ⟨j, hbound, hlt, rfl, rfl, ?_, ?_, rfl⟩
  · have hpos : leafIndex.toNat - start < 2 ^ height := by omega
    have hwalk := @walk_path D digests log start (leafIndex.toNat - start) height hpos
    rw [Nat.add_sub_cancel' hstart] at hwalk
    exact hwalk.trans hpeak.symm
  · have hsmall : j < 2 ^ 32 := by
      have hcount : log.countU32 < 2 ^ 32 := Nat.mod_lt _ (Nat.two_pow_pos 32)
      have hle := length_mountainRanges_le log.countU32
      omega
    exact UInt32.toNat_ofNat_of_lt' hsmall

variable [DecidableEq D]

theorem verify_inclusionProof {leafIndex : UInt32} {p : InclusionProof D}
    (h : log.inclusionProof digests leafIndex = .ok p) :
    verify digests p.leafHash p (log.root digests) = true := by
  obtain ⟨j, hj, -, -, -, hwalk, hindex, hothers⟩ := inclusionProof_eq_ok h
  have hlength : p.otherPeaks.length = (log.peaks digests).length - 1 := by
    rw [hothers, length_eraseIdx_of_lt hj]
  have hmin : min p.peakIndex.toNat p.otherPeaks.length = j := by omega
  have hpeaks : p.allPeaks (walk digests.hashPair p.leafHash p.path) = log.peaks digests := by
    rw [InclusionProof.allPeaks, hmin, hwalk, hothers]
    exact insertIdx_eraseIdx_getElem hj
  rw [verify, if_neg (not_not.mpr rfl), hpeaks]
  exact decide_eq_true rfl

end TransparencyLog
end GraphZero.Mmr
