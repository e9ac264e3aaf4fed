import Mathlib.Data.List.GetD
import ZeroStack.DeltaLog.Segment
import ZeroStack.Mmr.Log

/-! The file of the transparency log. As long as the leaves can be counted in 32 bits, each of them has a proof that
the verifier accepts, and the last flush is read back. -/

open Wire List

namespace GraphZero.Mmr

def mmrMagic : List UInt8 := [0x47, 0x5A, 0x4D, 0x4D]
def mmrVersion : UInt8 := 1

namespace TransparencyLog

def append (log : TransparencyLog ContentHash) (hash : ContentHash) : TransparencyLog ContentHash × ℕ :=
  match log.leaves.idxOf? hash with
  | some idx => (log, idx)
  | none => (⟨log.leaves ++ [hash]⟩, log.leaves.length)

def body (log : TransparencyLog ContentHash) : List UInt8 := log.leaves.flatMap ContentHash.bytes

variable (digests : Digests ContentHash)

def header (log : TransparencyLog ContentHash) : List UInt8 :=
  mmrMagic ++ ([mmrVersion] ++ (leBytes 4 log.countU32 ++ (log.root digests).bytes))

def encode (log : TransparencyLog ContentHash) : List UInt8 :=
  log.header digests ++ (leBytes 4 (DeltaLog.crc32 (log.header digests ++ log.body)).toNat ++ log.body)

def readLeaves : ℕ → List UInt8 → List ContentHash
  | 0, _ => []
  | count + 1, bytes => .ofBytes (bytes.take 32) :: readLeaves count (bytes.drop 32)

def decodeLeaves (data : List UInt8) : Except String (List ContentHash) :=
  let leafCount := ofLe (slice data 5 9)
  let bodyEnd := 45 + leafCount * 32
  if data.length < 45 then .error "transparency log too small"
  else if data.take 4 ≠ mmrMagic then .error "bad transparency log magic"
  else if data.getD 4 0 ≠ mmrVersion then .error s!"unsupported transparency log version {data.getD 4 0}"
  else if data.length < bodyEnd then
    .error s!"transparency log truncated: expected {bodyEnd} bytes, got {data.length}"
  else if DeltaLog.crc32 (data.take 41 ++ slice data 45 bodyEnd) ≠ UInt32.ofNat (ofLe (slice data 41 45)) then
    .error "transparency log CRC mismatch"
  else .ok (readLeaves leafCount (data.drop 45))

end TransparencyLog

inductive Command where
  | append (hash : ContentHash)
  | flush

structure Session where
  log : TransparencyLog ContentHash
  file : Option (List UInt8)

variable (digests : Digests ContentHash)

def Session.step (s : Session) : Command → Session
  | .append hash => { s with log := (s.log.append hash).1 }
  | .flush => { s with file := some (s.log.encode digests) }

def Session.run (s : Session) (commands : List Command) : Session := commands.foldl (Session.step digests) s

variable {digests}

namespace TransparencyLog
variable {log : TransparencyLog ContentHash}

theorem readLeaves_body (leaves : List ContentHash) :
    readLeaves leaves.length (leaves.flatMap ContentHash.bytes) = leaves := by
  induction leaves with
  | nil => rfl
  | cons leaf leaves ih =>
    rw [length_cons, readLeaves, flatMap_cons, take_left' leaf.length_bytes,
      drop_left' leaf.length_bytes, ih, ContentHash.ofBytes_bytes]

theorem decodeLeaves_encode (h : log.leaves.length < 2 ^ 32) : decodeLeaves (log.encode digests) = .ok log.leaves := by
  have hmagic : mmrMagic.length = 4 := rfl
  have hone : [mmrVersion].length = 1 := rfl
  have hheader : (log.header digests).length = 41 := by simp [header, hmagic]
  have hbody : log.body.length = log.leaves.length * 32 := by simp [body, length_flatMap]
  have hlength : (log.encode digests).length = 45 + log.leaves.length * 32 := by
    simp only [encode, length_append, hheader, hbody, length_leBytes]
    omega
  have hfield : slice (log.encode digests) 5 9 = leBytes 4 log.countU32 := by
    simp only [encode, header, append_assoc]
    simp (disch := simp [hmagic]) only [slice_skip, slice_here, hmagic, hone, Nat.reduceSub]
  have hcount : ofLe (slice (log.encode digests) 5 9) = log.leaves.length := by
    rw [hfield, countU32, Nat.mod_eq_of_lt h, ofLe_leBytes h]
  have hfront : (log.encode digests).take 41 = log.header digests := take_left' hheader
  have hcrc : slice (log.encode digests) 41 45 = leBytes 4 (DeltaLog.crc32 (log.header digests ++ log.body)).toNat :=
    (slice_skip hheader.le).trans (by rw [hheader, slice_here (length_leBytes 4 _)])
  have hdrop : (log.encode digests).drop 45 = log.body := by
    rw [encode, ← append_assoc]
    exact drop_left' (by rw [length_append, hheader, length_leBytes])
  have hrest : slice (log.encode digests) 45 (45 + log.leaves.length * 32) = log.body := by
    rw [slice, hdrop, Nat.add_sub_cancel_left, ← hbody, take_length]
  have hstart : (log.encode digests).take 4 = mmrMagic := rfl
  have hversion : (log.encode digests).getD 4 0 = mmrVersion := rfl
  simp only [decodeLeaves, hcount, hlength, hstart, hversion, hfront, hrest, hcrc, hdrop, DeltaLog.ofNat_ofLe_leBytes]
  rw [if_neg (by omega), if_neg (not_not.mpr rfl), if_neg (not_not.mpr rfl), if_neg (lt_irrefl _),
    if_neg (not_not.mpr rfl), body, readLeaves_body]

theorem exists_inclusionProof {i : ℕ} (hi : i < log.leaves.length) (h : log.leaves.length < 2 ^ 32) :
    ∃ p, log.inclusionProof digests (UInt32.ofNat i) = .ok p ∧
      verify digests log.leaves[i] p (log.root digests) = true := by
  have hcount : log.countU32 = log.leaves.length := Nat.mod_eq_of_lt h
  have hindex : (UInt32.ofNat i).toNat = i := UInt32.toNat_ofNat_of_lt' (hi.trans h)
  obtain ⟨p, hp⟩ : ∃ p, log.inclusionProof digests (UInt32.ofNat i) = .ok p := ⟨_, if_neg (by omega)⟩
  obtain ⟨_, _, -, -, hleaf, -⟩ := inclusionProof_eq_ok hp
  have hverify := verify_inclusionProof hp
  rw [hleaf, hindex, getD_eq_getElem _ _ hi] at hverify
  exact ⟨p, hp, hverify⟩

end TransparencyLog

open TransparencyLog

theorem Session.file_run {s : Session} {commands : List Command} (h : .flush ∉ commands) :
    (s.run digests commands).file = s.file := by
  induction commands generalizing s with
  | nil => rfl
  | cons command commands ih =>
    rw [mem_cons, not_or] at h
    cases command with
    | append hash => exact ih h.2
    | flush => exact absurd rfl h.1

/-- Every leaf of a log has a proof that is accepted, exactly if the log has fewer than 2 ^ 32 leaves; and the last
flush of such a log is what the file holds. -/
theorem log_complete (digests : Digests ContentHash) (s : Session) (before after : List Command)
    (log : TransparencyLog ContentHash) (hlog : (s.run digests before).log = log) (hlast : .flush ∉ after) :
    ((∀ (i : ℕ) (hi : i < log.leaves.length), ∃ p, log.inclusionProof digests (UInt32.ofNat i) = .ok p ∧
        verify digests log.leaves[i] p (log.root digests) = true) ↔ log.leaves.length < 2 ^ 32) ∧
    (log.leaves.length < 2 ^ 32 → ∃ data, (s.run digests (before ++ .flush :: after)).file = some data ∧
      (decodeLeaves data).map TransparencyLog.mk = .ok log) := by
  refine ⟨⟨fun h => ?_, fun hcounted i hi => exists_inclusionProof hi hcounted⟩, fun hcounted =>
    ⟨log.encode digests, ?_, ?_⟩⟩
  · -- The number that the count is reduced to is an index without a proof.
    by_contra hmany
    rw [Nat.not_lt] at hmany
    have hindex : log.countU32 < 2 ^ 32 := Nat.mod_lt _ (by decide)
    obtain ⟨p, hp, -⟩ := h log.countU32 (hindex.trans_le hmany)
    obtain ⟨_, _, hbelow, -⟩ := inclusionProof_eq_ok hp
    rw [UInt32.toNat_ofNat_of_lt' hindex] at hbelow
    exact lt_irrefl _ hbelow
  · rw [Session.run, foldl_append, foldl_cons, ← hlog]
    exact Session.file_run hlast
  · rw [decodeLeaves_encode hcounted]
    rfl

theorem log_complete_two : ∃ data, (Session.run ⟨fun _ b => b, 0⟩ ⟨⟨[]⟩, none⟩
      [.append 7, .append 8, .append 7, .flush, .append 9]).file = some data ∧
    (decodeLeaves data).map TransparencyLog.mk = .ok ⟨[7, 8]⟩ :=
  (log_complete ⟨fun _ b => b, 0⟩ ⟨⟨[]⟩, none⟩ [.append 7, .append 8, .append 7] [.append 9] ⟨[7, 8]⟩ rfl
    (by simp)).2 (by decide)

/-- The count of 2 ^ 32 leaves is cast to zero, and the log has a proof for none of them. -/
theorem uncounted_leaves : ∃ log : TransparencyLog ContentHash, log.leaves.length = 2 ^ 32 ∧ log.leaves.Nodup ∧
    log.inclusionProof ⟨fun _ b => b, 0⟩ 0 = .error "leaf index 0 out of range (0 leaves)" := by
  obtain ⟨leaves, hlength, hnodup⟩ : ∃ leaves : List ContentHash, leaves.length = 2 ^ 32 ∧ leaves.Nodup := by
    refine ⟨(List.range (2 ^ 32)).map (BitVec.ofNat 256), ?_, List.Nodup.map_on (fun i hi j hj h => ?_) nodup_range⟩
    · rw [length_map, length_range]
    · have hnat := congrArg BitVec.toNat h
      rw [mem_range] at hi hj
      simp only [BitVec.toNat_ofNat] at hnat
      omega
  have hcount : countU32 ⟨leaves⟩ = 0 := by
    rw [countU32, hlength, Nat.mod_self]
  refine ⟨⟨leaves⟩, hlength, hnodup, ?_⟩
  rw [inclusionProof, hcount, if_pos (Nat.zero_le _)]
  rfl

end GraphZero.Mmr
