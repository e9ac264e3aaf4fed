import Mathlib.Data.List.Nodup

/-! Collecting values in the order of their first occurrence, up to a cap. -/

namespace Tracing
open List
variable {α ε : Type*} [DecidableEq α]

def note (cap : ℕ) (full : ε) (found : List α) (a : α) : Except ε (List α) :=
  if a ∈ found then .ok found
  else if cap ≤ found.length then .error full
  else .ok (found ++ [a])

def noteAll (cap : ℕ) (full : ε) : List α → List α → Except ε (List α)
  | found, [] => .ok found
  | found, a :: as => do
    let found ← note cap full found a
    noteAll cap full found as

variable {cap : ℕ} {full : ε} {found found' as bs : List α} {a : α}

theorem noteAll_append :
    noteAll cap full found (as ++ bs) = noteAll cap full found as >>= fun found => noteAll cap full found bs := by
  induction as generalizing found with
  | nil => rfl
  | cons a as ih =>
    simp only [cons_append, noteAll]
    cases note cap full found a with
    | error e => rfl
    | ok next => exact ih

theorem mem_note {b : α} (h : note cap full found a = .ok found') : b ∈ found' ↔ b ∈ found ∨ b = a := by
  unfold note at h
  split_ifs at h with hmem hfull
  · cases h
    exact (or_iff_left_of_imp fun hb => hb ▸ hmem).symm
  · cases h
    simp

theorem eraseDups_of_nodup (h : as.Nodup) : as.eraseDups = as := by
  induction as with
  | nil => rfl
  | cons a as ih =>
    obtain ⟨ha, has⟩ := nodup_cons.mp h
    have hfilter : as.filter (fun b => !b == a) = as := by
      apply filter_eq_self.mpr
      intro b hb
      simpa using fun hba : b = a => ha (hba ▸ hb)
    rw [eraseDups_cons, hfilter, ih has]

theorem eraseDups_append_cons_of_mem (h : a ∈ found) : (found ++ a :: as).eraseDups = (found ++ as).eraseDups := by
  simp [eraseDups_append, List.removeAll, h]

theorem length_lt_eraseDups_append (hnodup : found.Nodup) (h : a ∉ found) :
    found.length < (found ++ a :: as).eraseDups.length := by
  have hmem : a ∈ ((a :: as).removeAll found).eraseDups := by
    simp [List.removeAll, h]
  rw [eraseDups_append, eraseDups_of_nodup hnodup, length_append]
  have hpos := length_pos_of_mem hmem
  omega

theorem noteAll_eq (hnodup : found.Nodup) (hcap : found.length ≤ cap) : noteAll cap full found as =
      if (found ++ as).eraseDups.length ≤ cap then .ok (found ++ as).eraseDups else .error full := by
  induction as generalizing found with
  | nil => rw [append_nil, eraseDups_of_nodup hnodup, if_pos hcap, noteAll]
  | cons a as ih =>
    rw [noteAll, note]
    by_cases hmem : a ∈ found
    · rw [if_pos hmem, eraseDups_append_cons_of_mem hmem]
      exact ih hnodup hcap
    · rw [if_neg hmem]
      by_cases hfull : cap ≤ found.length
      · have hlong : found.length < (found ++ a :: as).eraseDups.length :=
          length_lt_eraseDups_append hnodup hmem
        rw [if_pos hfull, if_neg (by omega)]
        rfl
      · have hnext : (found ++ [a]).Nodup := by
          rw [← concat_eq_append]
          exact hnodup.concat hmem
        have hroom : (found ++ [a]).length ≤ cap := by
          rw [length_append, length_singleton]
          omega
        have hrest := ih hnext hroom
        rw [append_assoc] at hrest
        rw [if_neg hfull]
        exact hrest

end Tracing
