import Mathlib.Data.List.Induction
import Std.Data.TreeMap

/-! A log of records in which a later record replaces the earlier ones with its key. -/

namespace Sorted
variable {κ ρ : Type} [Ord κ] (key : ρ → κ)

def lastWrites (records : List ρ) : Std.TreeMap κ ρ := records.foldl (fun tip r => tip.insert (key r) r) ∅

theorem lastWrites_concat (records : List ρ) (r : ρ) :
    lastWrites key (records ++ [r]) = (lastWrites key records).insert (key r) r := by
  rw [lastWrites, List.foldl_append]
  rfl

variable [Std.TransOrd κ] {key}

variable [Std.LawfulEqOrd κ]

theorem of_getElem?_lastWrites {records : List ρ} {k : κ} {r : ρ} (h : (lastWrites key records)[k]? = some r) :
    key r = k := by
  induction records using List.reverseRecOn with
  | nil =>
    cases h
  | append_singleton records last ih =>
    rw [lastWrites_concat, Std.TreeMap.getElem?_insert] at h
    split_ifs at h with hkey
    · cases h
      exact Std.LawfulEqOrd.eq_of_compare hkey
    · exact ih h

def tips (tip : Std.TreeMap κ ρ) : List ρ := tip.toList.map Prod.snd

theorem mem_tips {tip : Std.TreeMap κ ρ} {r : ρ} : r ∈ tips tip ↔ ∃ k : κ, tip[k]? = some r := by
  rw [tips, List.mem_map]
  constructor
  · rintro ⟨⟨k, r⟩, hmem, rfl⟩
    exact ⟨k, Std.TreeMap.mem_toList_iff_getElem?_eq_some.mp hmem⟩
  · rintro ⟨k, hk⟩
    exact ⟨(k, r), Std.TreeMap.mem_toList_iff_getElem?_eq_some.mpr hk, rfl⟩

theorem mem_tips_concat {records : List ρ} {r s : ρ} :
    s ∈ tips (lastWrites key (records ++ [r])) ↔ s = r ∨ (key s ≠ key r ∧ s ∈ tips (lastWrites key records)) := by
  rw [mem_tips, mem_tips, lastWrites_concat]
  constructor
  · rintro ⟨k, hk⟩
    rw [Std.TreeMap.getElem?_insert] at hk
    split_ifs at hk with hkey
    · cases hk
      exact .inl rfl
    · have hs : key s = k := of_getElem?_lastWrites hk
      refine .inr ⟨fun heq => hkey ?_, k, hk⟩
      rw [← heq, hs]
      exact Std.ReflCmp.compare_self
  · rintro (rfl | ⟨hne, k, hk⟩)
    · exact ⟨key s, Std.TreeMap.getElem?_insert_self⟩
    · have hs : key s = k := of_getElem?_lastWrites hk
      refine ⟨k, ?_⟩
      rw [Std.TreeMap.getElem?_insert, if_neg, hk]
      intro heq
      exact hne (hs.trans (Std.LawfulEqOrd.eq_of_compare heq).symm)

end Sorted
