import Mathlib.Data.List.Dedup
import ZeroStack.DeltaLog.Recovery
import ZeroStack.GraphStore.Store

/-! What is done to the write-ahead directory. A batch leaves the segments that are there, and new ones follow;
maintenance that gets to its cleanup leaves no segment. -/

open Durable GraphZero.DeltaLog List

namespace GraphZero.Store

section Append
variable {log : Writer} {dir : WalDir} {kept own : List Segment} {batch : List DeltaEntry}

theorem append_extends {entry : DeltaEntry} (hstored : Stored dir.entries (kept ++ own))
    (hlog : Follows log kept own batch) (hpayload : entry.payload.length < 2 ^ 32)
    (hroom : ∀ seg, log.current = some seg → seg.entryCount < maxDeltaSegmentEntries) :
    ∃ own', Stored ((append entry log dir).dir dir).entries (kept ++ own') ∧
      ∀ u, (append entry log dir).result = .ok u → ∃ batch', Follows (append entry log dir).log kept own' batch' ∧
        entriesOf own' ++ batch' = (entriesOf own ++ batch) ++ [entry] ∧
          ∀ seg, (append entry log dir).log.current = some seg →
            seg.entryCount = 1 ∨ ∃ before, log.current = some before ∧ seg.entryCount = before.entryCount + 1 := by
  by_cases hroll : needRoll log entry = true
  · obtain ⟨own', hstored', hentries, hfollows⟩ := (append_leaves_roll hstored hlog hroll hpayload).final
    refine ⟨own', hstored', fun u hok => ?_⟩
    rw [hok] at hfollows
    refine ⟨[entry], hfollows, by rw [hentries], fun seg hseg => .inl ?_⟩
    have hresult : (rollSegment log dir).result = .ok () := by
      cases hrolled : (rollSegment log dir).result with
      | ok v => rfl
      | error e =>
        simp only [append, hroll, if_true, hrolled] at hok
        cases hok
    obtain ⟨id, crc, hcurrent⟩ := rollSegment_current hresult
    simp only [append, hroll, if_true, hresult, hcurrent] at hseg
    cases hseg
    rfl
  · cases hcurrent : log.current with
    | none => exact absurd (by rw [needRoll, hcurrent]) hroll
    | some seg =>
      rw [append_of_open hcurrent hroll]
      refine ⟨own, hstored, fun u _ => ⟨batch ++ [entry], hlog.push hcurrent hpayload (hroom seg hcurrent), ?_, ?_⟩⟩
      · rw [append_assoc]
      · intro seg' hseg'
        cases hseg'
        exact .inr ⟨seg, rfl, rfl⟩

theorem appendAll_extends {steps : List (Option DeltaEntry)} (hstored : Stored dir.entries (kept ++ own))
    (hlog : Follows log kept own batch) (hpayload : ∀ e ∈ steps.reduceOption, e.payload.length < 2 ^ 32)
    (hlength : steps.length ≤ maxDeltaSegmentEntries)
    (hroom : ∀ seg, log.current = some seg → seg.entryCount + steps.length ≤ maxDeltaSegmentEntries) :
    ∃ own', Stored (appendAll steps log dir).2.entries (kept ++ own') ∧
      ∀ log', (appendAll steps log dir).1 = .ok log' → ∃ batch', Follows log' kept own' batch' ∧
        entriesOf own' ++ batch' = (entriesOf own ++ batch) ++ steps.reduceOption := by
  induction steps generalizing log dir own batch with
  | nil =>
    refine ⟨own, hstored, fun log' hok => ?_⟩
    cases hok
    exact ⟨batch, hlog, (append_nil _).symm⟩
  | cons step steps ih =>
    cases step with
    | none =>
      refine ⟨own, hstored, fun log' hok => ?_⟩
      cases hok
    | some entry =>
      rw [reduceOption_cons_of_some, forall_mem_cons] at hpayload
      rw [length_cons] at hlength hroom
      have hfirst : ∀ seg, log.current = some seg → seg.entryCount < maxDeltaSegmentEntries := by
        intro seg hseg
        have hseg' := hroom seg hseg
        omega
      obtain ⟨own', hstored', hok'⟩ := append_extends hstored hlog hpayload.1 hfirst
      rw [appendAll]
      cases hresult : (append entry log dir).result with
      | error error =>
        refine ⟨own', hstored', fun log' hok => ?_⟩
        cases hok
      | ok u =>
        obtain ⟨batch', hlog', hentries, hcount⟩ := hok' u hresult
        have hnext : ∀ seg, (append entry log dir).log.current = some seg →
            seg.entryCount + steps.length ≤ maxDeltaSegmentEntries := by
          intro seg hseg
          rcases hcount seg hseg with hone | ⟨before, hbefore, hmore⟩
          · omega
          · have hroom' := hroom before hbefore
            omega
        obtain ⟨own'', hstored'', hrest⟩ := ih hstored' hlog' hpayload.2 (by omega) hnext
        refine ⟨own'', hstored'', fun log' hok => ?_⟩
        obtain ⟨batch'', hlog'', hentries''⟩ := hrest log' hok
        refine ⟨batch'', hlog'', ?_⟩
        rw [hentries'', hentries, reduceOption_cons_of_some, append_assoc, singleton_append]

theorem appendBatch_extends {steps : List (Option DeltaEntry)} {segments : List Segment}
    (hstored : Stored dir.entries segments)
    (hpayload : ∀ e ∈ steps.reduceOption, e.payload.length < 2 ^ 32) (hlength : steps.length ≤ maxDeltaSegmentEntries) :
    ∃ own, Stored (appendBatch steps dir).2.entries (segments ++ own) ∧
      ((appendBatch steps dir).1 = .ok () → entriesOf own = steps.reduceOption) := by
  have hopen : openDir dir = .ok ⟨none, tip segments⟩ := hstored.openDir_eq
  have hkept : Stored dir.entries (segments ++ []) := by rwa [append_nil]
  have hfollows : Follows ⟨none, tip segments⟩ segments [] [] := .of_closed (by rw [append_nil]) rfl
  obtain ⟨own, hstored', hok⟩ := appendAll_extends hkept hfollows hpayload hlength (fun seg hseg => nomatch hseg)
  unfold appendBatch
  rw [hopen]
  dsimp only
  cases happend : appendAll steps ⟨none, tip segments⟩ dir with
  | mk result dir' =>
    rw [happend] at hstored' hok
    cases result with
    | error error =>
      refine ⟨own, hstored', fun h => ?_⟩
      cases h
    | ok log =>
      obtain ⟨batch, hlog, hentries⟩ := hok log rfl
      obtain ⟨own', hfinal, hcommitted, -⟩ := (commit_leaves hstored' hlog).final
      refine ⟨own', hfinal, fun _ => ?_⟩
      rw [hcommitted, hentries]
      rfl

end Append

theorem own_above {dir : WalDir} {segments own : List Segment} (h : Stored dir.entries (segments ++ own)) :
    ∀ s ∈ segments, ∀ t ∈ own, s.id < t.id := by
  have hsorted : ((segments ++ own).map Segment.file).Pairwise fun a b => a.1 < b.1 := by
    rw [← h.files_eq]
    exact dir.sorted
  rw [map_append, pairwise_append] at hsorted
  exact fun s hs t ht => hsorted.2.2 _ (mem_map_of_mem hs) _ (mem_map_of_mem ht)

theorem mem_folded_and_new {folded ids : List ℕ} {id : ℕ} (hid : id ∈ ids) :
    id ∈ ((folded ++ ids.filter (· ∉ folded)).insertionSort (· ≤ ·)).dedup := by
  rw [mem_dedup, (perm_insertionSort ..).mem_iff, mem_append, mem_filter]
  by_cases hfolded : id ∈ folded
  · exact .inl hfolded
  · exact .inr ⟨hid, decide_eq_true hfolded⟩

end GraphZero.Store
