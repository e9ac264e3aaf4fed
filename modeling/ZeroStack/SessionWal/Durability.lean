import Mathlib.Data.List.ReduceOption
import ZeroStack.SessionWal.Segments

/-! What the session log keeps. Rotation moves segments without changing their order, so the log
is the sequence of its segments; an append adds one frame at its end. -/

open Wire Function List

namespace Zero.SessionWal

def sealedFrom (files : WalFiles) : ℕ → List (List UInt8)
  | 0 => []
  | generation + 1 => (files (.sealed (generation + 1))).toList ++ sealedFrom files generation

def segments (config : SessionWalConfig) (files : WalFiles) : List (List UInt8) :=
  sealedFrom files config.maxSealedSegments ++ (files .active).toList

theorem sealedFrom_congr {files files' : WalFiles} {n : ℕ}
    (h : ∀ g, g < n → files' (.sealed (g + 1)) = files (.sealed (g + 1))) :
    sealedFrom files' n = sealedFrom files n := by
  induction n with
  | zero => rfl
  | succ n ih => rw [sealedFrom, sealedFrom, h n (Nat.lt_succ_self n), ih fun g hg => h g (Nat.lt_succ_of_lt hg)]

variable {config : SessionWalConfig} {files : WalFiles} {records : List (List UInt8)}

section Rename
variable {n g : ℕ}

theorem rename_apply_of_ne {src dst file : WalFile} (hsrc : file ≠ src) (hdst : file ≠ dst) :
    files.rename src dst file = files file := by
  rw [WalFiles.rename, update_of_ne hsrc, update_of_ne hdst]

theorem rename_apply_src {src dst : WalFile} : files.rename src dst src = none := update_self ..

theorem rename_apply_dst {src dst : WalFile} (h : dst ≠ src) : files.rename src dst dst = files src := by
  rw [WalFiles.rename, update_of_ne h, update_self]

theorem sealedFrom_rename (hfree : files (.sealed (g + 2)) = none) (hn : g + 2 ≤ n) :
    sealedFrom (files.rename (.sealed (g + 1)) (.sealed (g + 2))) n = sealedFrom files n := by
  induction n, hn using Nat.le_induction with
  | base =>
    have hbelow : sealedFrom (files.rename (.sealed (g + 1)) (.sealed (g + 2))) g = sealedFrom files g := by
      apply sealedFrom_congr
      intro i hi
      exact rename_apply_of_ne (by simp; omega) (by simp; omega)
    simp only [sealedFrom, hbelow, hfree, rename_apply_src,
      rename_apply_dst (by simp : WalFile.sealed (g + 2) ≠ .sealed (g + 1)),
      Option.toList_none, nil_append]
  | succ n hn ih =>
    rw [sealedFrom, sealedFrom, ih, rename_apply_of_ne (by simp; omega) (by simp; omega)]

theorem sealedFrom_rename_active (hfree : files (.sealed 1) = none) (hn : 1 ≤ n) :
    sealedFrom (files.rename .active (.sealed 1)) n = sealedFrom files n ++ (files .active).toList := by
  induction n, hn using Nat.le_induction with
  | base => simp [sealedFrom, hfree, rename_apply_dst]
  | succ n hn ih =>
    rw [sealedFrom, sealedFrom, ih, rename_apply_of_ne (by simp) (by simp; omega), append_assoc]

end Rename

section Rotate

theorem rotateFrom_segments {g : ℕ} {files : WalFiles} (hg : g + 1 ≤ config.maxSealedSegments)
    (hfree : files (.sealed (g + 1)) = none) :
    ∀ files' ∈ rotateFrom g files, segments config files' = segments config files := by
  induction g generalizing files with
  | zero =>
    intro files' hmem
    rw [rotateFrom, mem_singleton] at hmem
    rw [hmem, segments, segments, sealedFrom_rename_active hfree hg, rename_apply_src, Option.toList_none,
      append_nil]
  | succ g ih =>
    rw [rotateFrom]
    split_ifs with hsome
    · have hmoved : segments config (files.rename (.sealed (g + 1)) (.sealed (g + 2))) = segments config files := by
        rw [segments, segments, sealedFrom_rename hfree hg, rename_apply_of_ne (by simp) (by simp)]
      have hleft : files.rename (.sealed (g + 1)) (.sealed (g + 2)) (.sealed (g + 1)) = none := rename_apply_src
      intro files' hmem
      rcases mem_cons.mp hmem with rfl | hlater
      · exact hmoved
      · rw [ih (by omega) hleft files' hlater, hmoved]
    · exact ih (by omega) (by simpa using hsome)

end Rotate

theorem reduceOption_replayOrder (config : SessionWalConfig) (files : WalFiles) :
    ((replayOrder config).map files).reduceOption = segments config files := by
  have hsealed : ∀ n, (((List.range n).reverse.map fun i => WalFile.sealed (i + 1)).map files).reduceOption =
      sealedFrom files n := by
    intro n
    induction n with
    | zero => rfl
    | succ n ih =>
      rw [range_succ, reverse_append, reverse_singleton, singleton_append, map_cons,
        map_cons, sealedFrom, ← ih]
      cases files (.sealed (n + 1)) with
      | none => exact reduceOption_cons_of_none _
      | some bytes => exact reduceOption_cons_of_some _ _
  rw [replayOrder, map_append, reduceOption_append, hsealed]
  congr 1

theorem replaySegments_reduceOption (segments : List (Option (List UInt8))) (remaining : ℕ) (replay : Replay) :
    replaySegments segments remaining replay = replaySegments (segments.reduceOption.map some) remaining replay := by
  induction segments generalizing remaining replay with
  | nil => rfl
  | cons segment segments ih =>
    cases segment with
    | none =>
      rw [replaySegments, reduceOption_cons_of_none, ih]
    | some bytes =>
      rw [reduceOption_cons_of_some, map_cons, replaySegments, replaySegments]
      simp only [ih]

variable {record : List UInt8}

section Contents

def Whole (config : SessionWalConfig) (files : WalFiles) (records : List (List UInt8)) : Prop :=
  ∃ groups : List (List (List UInt8)), segments config files = groups.map framing.encodeAll ∧
    groups.flatten = records ∧ ∀ record ∈ records, framing.Valid record

def WholeButLast (config : SessionWalConfig) (files : WalFiles) (records : List (List UInt8)) : Prop :=
  ∃ (groups : List (List (List UInt8))) (last : List (List UInt8)) (tail : List UInt8), framing.Torn tail ∧
    segments config files = groups.map framing.encodeAll ++ [framing.encodeAll last ++ tail] ∧
      groups.flatten ++ last = records ∧ ∀ record ∈ records, framing.Valid record

theorem segments_extend (bytes : List UInt8) : segments config (files.extend bytes) =
      sealedFrom files config.maxSealedSegments ++ [(files .active).getD [] ++ bytes] := by
  have hsealed : sealedFrom (files.extend bytes) config.maxSealedSegments =
      sealedFrom files config.maxSealedSegments := by
    apply sealedFrom_congr
    intro g _
    exact update_of_ne (by simp) ..
  rw [segments, hsealed, WalFiles.extend, update_self, Option.toList_some]

variable (h : Whole config files records)
include h

theorem Whole.active : ∃ (groups : List (List (List UInt8))) (last : List (List UInt8)),
      sealedFrom files config.maxSealedSegments = groups.map framing.encodeAll ∧
        (files .active).getD [] = framing.encodeAll last ∧ groups.flatten ++ last = records := by
  obtain ⟨groups, hsegments, hrecords, -⟩ := h
  rw [segments] at hsegments
  cases hactive : files .active with
  | none =>
    rw [hactive, Option.toList_none, append_nil] at hsegments
    exact ⟨groups, [], hsegments, rfl, by rw [append_nil, hrecords]⟩
  | some bytes =>
    rw [hactive] at hsegments
    obtain ⟨front, back, rfl, hfront, hback⟩ := map_eq_append_iff.mp hsegments.symm
    obtain ⟨last, rest, rfl, hlast, hrest⟩ := map_eq_cons_iff.mp hback
    have hnil : rest = [] := map_eq_nil_iff.mp hrest
    subst hnil
    refine ⟨front, last, hfront.symm, hlast.symm, ?_⟩
    rw [← hrecords, flatten_append, flatten_singleton]

theorem Whole.extend (hvalid : framing.Valid record) :
    Whole config (files.extend (frame record)) (records ++ [record]) := by
  obtain ⟨groups, last, hsealed, hactive, hrecords⟩ := h.active
  obtain ⟨-, -, -, hall⟩ := h
  refine ⟨groups ++ [last ++ [record]], ?_, ?_, ?_⟩
  · rw [segments_extend, hsealed, hactive, map_append, map_singleton, Framing.encodeAll_append,
      Framing.encodeAll_singleton]
    rfl
  · rw [flatten_append, flatten_singleton, ← append_assoc, hrecords]
  · exact forall_mem_append.mpr ⟨hall, forall_mem_singleton.mpr hvalid⟩

theorem Whole.extend_torn {tail : List UInt8} (htail : framing.Torn tail) :
    WholeButLast config (files.extend tail) records := by
  obtain ⟨groups, last, hsealed, hactive, hrecords⟩ := h.active
  obtain ⟨-, -, -, hall⟩ := h
  refine ⟨groups, last, tail, htail, ?_, hrecords, hall⟩
  rw [segments_extend, hsealed, hactive]

theorem Whole.extend_nil : Whole config (files.extend []) records := by
  obtain ⟨groups, last, hsealed, hactive, hrecords⟩ := h.active
  obtain ⟨-, -, -, hall⟩ := h
  refine ⟨groups ++ [last], ?_, ?_, hall⟩
  · rw [segments_extend, hsealed, hactive, append_nil, map_append, map_singleton]
  · rw [flatten_append, flatten_singleton, hrecords]

theorem Whole.of_segments {files' : WalFiles}
    (hsame : segments config files' = segments config files) : Whole config files' records := by
  obtain ⟨groups, hsegments, hrest⟩ := h
  exact ⟨groups, hsame.trans hsegments, hrest⟩

end Contents

section Step
variable {call : Append}

def written (config : SessionWalConfig) (call : Append) (files : WalFiles) : ℕ :=
  match plan config call.record files, call.stop with
  | .write, some n => n
  | .rotate, some n => n - (rotateSegments config files).length
  | _, _ => 0

theorem valid_of_plan {p : Plan} (h : plan config record files = p) (hp : p ≠ .tooLarge) : framing.Valid record := by
  by_contra hlarge
  have htooLarge : plan config record files = .tooLarge := if_pos (Nat.not_le.mp hlarge)
  exact hp (h.symm.trans htooLarge)

theorem free_of_plan (h : plan config record files = .rotate) : files (.sealed config.maxSealedSegments) = none := by
  unfold plan at h
  dsimp only at h
  split_ifs at h with _ _ _ hsome
  simpa using hsome

theorem rotateSegments_segments (hsealed : 0 < config.maxSealedSegments)
    (hfree : files (.sealed config.maxSealedSegments) = none) :
    ∀ files' ∈ files :: rotateSegments config files, segments config files' = segments config files := by
  obtain ⟨n, hn⟩ : ∃ n, config.maxSealedSegments = n + 1 := ⟨_, (Nat.succ_pred_eq_of_pos hsealed).symm⟩
  have hrotate : rotateSegments config files = rotateFrom n files := by
    rw [rotateSegments, hn, Nat.add_sub_cancel]
  rw [hn] at hfree
  have hle : n + 1 ≤ config.maxSealedSegments := hn.ge
  intro files' hmem
  rcases mem_cons.mp hmem with rfl | hmem
  · rfl
  · exact rotateFrom_segments hle hfree files' (hrotate ▸ hmem)

inductive Outcome (config : SessionWalConfig) (record : List UInt8) (bytes : ℕ) (records : List (List UInt8)) :
    Option (Except SessionWalError AppendOutcome) × WalFiles → Prop where
  | appended {files : WalFiles} (h : Whole config files (records ++ [record])) :
      Outcome config record bytes records (some (.ok .appended), files)
  | nothing {reply : Option (Except SessionWalError AppendOutcome)} {files : WalFiles}
      (hreply : reply ≠ some (.ok .appended)) (h : Whole config files records) :
      Outcome config record bytes records (reply, files)
  | torn {files : WalFiles} (hbytes : 0 < bytes) (h : WholeButLast config files records) :
      Outcome config record bytes records (none, files)

theorem writeFrame_stopped {n : ℕ} (h : Whole config files records)
    (hvalid : framing.Valid record) (hshort : n < (frame record).length) :
    Outcome config record n records (writeFrame record (some n) files) := by
  cases n with
  | zero => exact .nothing (by simp) h.extend_nil
  | succ n => exact .torn (Nat.succ_pos n) (h.extend_torn (Framing.torn_take hvalid hshort))

theorem append_outcome (h : Whole config files records)
    (hrotate : plan config call.record files = .rotate → 0 < config.maxSealedSegments)
    (hshort : written config call files < (frame call.record).length) :
    Outcome config call.record (written config call files) records (append config call files) := by
  unfold append
  unfold written at hshort ⊢
  cases hplan : plan config call.record files with
  | tooLarge | compact => exact .nothing (by simp) h
  | write =>
    have hvalid : framing.Valid call.record := valid_of_plan hplan (by simp)
    rw [hplan] at hshort
    cases hstop : call.stop with
    | none => exact .appended (h.extend hvalid)
    | some n =>
      rw [hstop] at hshort
      exact writeFrame_stopped h hvalid hshort
  | rotate =>
    have hvalid : framing.Valid call.record := valid_of_plan hplan (by simp)
    have hsame := rotateSegments_segments (hrotate hplan) (free_of_plan hplan)
    have hrenamed : ∀ files' ∈ files :: rotateSegments config files, Whole config files' records :=
      fun files' hmem => h.of_segments (hsame files' hmem)
    have hlast : Whole config ((rotateSegments config files).getLastD files) records :=
      hrenamed _ (getLastD_mem_cons)
    rw [hplan] at hshort
    cases hstop : call.stop with
    | none => exact .appended (hlast.extend hvalid)
    | some n =>
      rw [hstop] at hshort
      dsimp only
      split_ifs with hn
      · refine .nothing (by simp) (hrenamed _ ?_)
        rcases mem_cons.mp getLastD_mem_cons with
          heq | hmem
        · exact mem_cons.mpr (.inl heq)
        · exact mem_cons_of_mem _ (mem_of_mem_take hmem)
      · exact writeFrame_stopped hlast hvalid hshort

end Step

section Run

/-- A rotation finds a sealed segment to rotate into, and a call that dies has written nothing of its frame, or is the
last one and has not written all of it. -/
def Spared (config : SessionWalConfig) : List Append → WalFiles → Prop
  | [], _ => True
  | call :: calls, files =>
    (plan config call.record files = .rotate → 0 < config.maxSealedSegments) ∧
      (written config call files = 0 ∨ (calls = [] ∧ written config call files < (frame call.record).length)) ∧
        Spared config calls (append config call files).2

theorem run_whole {calls : List Append} (h : Whole config files records) (hspared : Spared config calls files) :
    Whole config (run config calls files) (records ++ appended config calls files) ∨
      WholeButLast config (run config calls files) (records ++ appended config calls files) := by
  induction calls generalizing files records with
  | nil =>
    left
    rwa [run, appended, append_nil]
  | cons call calls ih =>
    obtain ⟨hrotate, hwritten, hrest⟩ := hspared
    have hframe := length_frame call.record
    have houtcome := append_outcome h hrotate (by omega)
    rw [run, appended, ← append_assoc]
    revert hrest houtcome
    generalize append config call files = out
    intro hrest houtcome
    cases houtcome with
    | appended h =>
      exact ih h hrest
    | nothing hreply h =>
      rw [if_neg hreply, append_nil]
      exact ih h hrest
    | torn hbytes h =>
      obtain ⟨rfl, -⟩ : calls = [] ∧ _ := hwritten.resolve_left (by omega)
      rw [if_neg (by simp), appended, append_nil, append_nil]
      exact .inr h

theorem scan_segment {group : List (List UInt8)} (hvalid : ∀ record ∈ group, framing.Valid record)
    {tail : List UInt8} (htail : framing.Torn tail) :
    framing.scan (framing.encodeAll group ++ tail).length (framing.encodeAll group ++ tail) =
      (group, !tail.isEmpty) := by
  apply Framing.scan_encodeAll hvalid htail
  rw [length_append]
  exact Nat.add_le_add_right (Framing.length_le_encodeAll group) _

theorem replaySegments_whole {groups : List (List (List UInt8))} (rest : List (Option (List UInt8))) {remaining : ℕ}
    (before : List (List UInt8)) (hvalid : ∀ record ∈ groups.flatten, framing.Valid record)
    (hbudget : ((groups.map framing.encodeAll).map List.length).sum ≤ remaining) :
    replaySegments ((groups.map framing.encodeAll).map some ++ rest) remaining ⟨before, false⟩ =
      replaySegments rest (remaining - ((groups.map framing.encodeAll).map List.length).sum)
        ⟨before ++ groups.flatten, false⟩ := by
  induction groups generalizing remaining before with
  | nil => simp
  | cons group groups ih =>
    simp only [map_cons, sum_cons, cons_append] at hbudget ⊢
    have hscan : framing.scan (framing.encodeAll group).length (framing.encodeAll group) = (group, false) := by
      have hwhole := scan_segment (fun a ha => hvalid a (mem_append_left _ ha)) (.inl rfl)
      rwa [append_nil] at hwhole
    rw [replaySegments, if_neg (by omega)]
    simp only [decodeFrames, hscan, Bool.or_false, Bool.false_eq_true, if_false]
    rw [ih _ (fun a ha => hvalid a (mem_append_right _ ha)) (by omega), append_assoc, Nat.sub_sub,
      flatten_cons]

theorem replay_records (h : Whole config files records ∨ WholeButLast config files records)
    (hbudget : ((segments config files).map List.length).sum ≤ config.maxReplayBytes) :
    (replay config files).records = records := by
  rw [replay, replaySegments_reduceOption, reduceOption_replayOrder]
  rcases h with ⟨groups, hsegments, rfl, hvalid⟩ | ⟨groups, last, tail, htail, hsegments, rfl, hvalid⟩
  · rw [hsegments] at hbudget ⊢
    have hreplay := replaySegments_whole [] [] hvalid hbudget
    rw [append_nil] at hreplay
    rw [hreplay]
    rfl
  · rw [hsegments, map_append, sum_append, map_singleton, sum_singleton] at hbudget
    rw [hsegments, map_append, replaySegments_whole _ _ (fun a ha => hvalid a (mem_append_left _ ha)) (by omega)]
    rw [map_singleton, replaySegments, if_neg (by omega)]
    simp only [decodeFrames, scan_segment (fun a ha => hvalid a (mem_append_right _ ha)) htail]
    split_ifs <;> rfl

end Run

/-- Every record whose append returned `Appended` comes back, in order and with nothing else, as long as a
rotation has a sealed segment to go to and a call that dies leaves none of its frame, or part of it at the
very end. -/
theorem replay_returns_appended {config : SessionWalConfig} {files : WalFiles} {calls : List Append}
    (hfresh : segments config files = []) (hspared : Spared config calls files)
    (hbudget : ((segments config (run config calls files)).map List.length).sum ≤ config.maxReplayBytes) :
    (replay config (run config calls files)).records = appended config calls files := by
  have hempty : Whole config files [] := ⟨[], hfresh, rfl, fun _ h => (not_mem_nil h).elim⟩
  exact replay_records (run_whole hempty hspared) hbudget

theorem rotated_log_returns :
    (replay ⟨9, 2, 100⟩
      (run ⟨9, 2, 100⟩ [⟨[1], none⟩, ⟨[2], some 0⟩, ⟨[3], none⟩, ⟨[4], some 6⟩] fun _ => none)).records =
      [[1], [3]] := by
  exact replay_returns_appended rfl (by simp only [Spared]; decide) (by decide)

/-- Frames behind a torn one are not read, a rotation without sealed segments puts the records where no replay looks,
and a call that dies after the last byte of its frame is replayed although it returned nothing. -/
theorem appended_records_lost : (appended ⟨64, 4, 100⟩ [⟨[1], some 3⟩, ⟨[2], none⟩] (fun _ => none) = [[2]] ∧
      (replay ⟨64, 4, 100⟩ (run ⟨64, 4, 100⟩ [⟨[1], some 3⟩, ⟨[2], none⟩] fun _ => none)).records = []) ∧
    (appended ⟨9, 0, 100⟩ [⟨[1], none⟩, ⟨[2], none⟩] (fun _ => none) = [[1], [2]] ∧
      (replay ⟨9, 0, 100⟩ (run ⟨9, 0, 100⟩ [⟨[1], none⟩, ⟨[2], none⟩] fun _ => none)).records = [[2]]) ∧
    appended ⟨64, 4, 100⟩ [⟨[1], some 9⟩] (fun _ => none) = [] ∧
      (replay ⟨64, 4, 100⟩ (run ⟨64, 4, 100⟩ [⟨[1], some 9⟩] fun _ => none)).records = [[1]] := by
  decide

end Zero.SessionWal
