import ZeroStack.Kernel.Response
import ZeroStack.Wire.Search

/-! The edits that ask for a unique match, of the file engine, of the host and of fszero. Each counts the matches of a
scan that goes on behind a match. -/

open Wire

namespace Zero.Edits
open Kernel

def replaceAt (text : List UInt8) (start : ℕ) (old new : List UInt8) : List UInt8 :=
  text.take start ++ new ++ text.drop (start + old.length)

def notUnique : EngineError := ⟨.invalidInput, "patch is not a unique match", false⟩

def uniqueReplaceBytes (source old new : List UInt8) : Except EngineError (List UInt8) :=
  if old = [] then .error ⟨.invalidInput, "patch find must be non-empty", false⟩
  else match position old source with
    | none => .error notUnique
    | some start =>
      let pos := start + old.length
      -- the second round of the loop ends it, with or without a match
      if pos < source.length ∧ (position old (source.drop pos)).isSome then .error notUnique
      else .ok (replaceAt source start old new)

def exactlyOneSpan (text needle : List UInt8) (label : String) : Except HostError (ℕ × ℕ) :=
  if needle = [] then .error (.invalidRequest s!"{label} must not be empty")
  else match matchIndices needle text with
    | [] => .error (.invalidRequest s!"{label} did not match")
    | [first] => .ok (first, first + needle.length)
    | _ => .error (.invalidRequest s!"{label} is ambiguous")

def replacen (text old new : List UInt8) : List UInt8 :=
  match position old text with
  | none => text
  | some i => replaceAt text i old new

def applyUniqueReplace (text old new : List UInt8) : Except String (List UInt8) :=
  if (position old text).isNone then .error "no match"
  else if (matchIndices old text).length ≠ 1 then .error "ambiguous match"
  else .ok (replacen text old new)

section
variable {text old new out : List UInt8} {label : String} {span : ℕ × ℕ}

theorem uniqueReplaceBytes_ok (hold : old ≠ []) : uniqueReplaceBytes text old new = .ok out ↔
    ∃ i, matchIndices old text = [i] ∧ out = replaceAt text i old new := by
  simp only [uniqueReplaceBytes, if_neg hold, matchIndices_eq_singleton hold]
  cases position old text with
  | none => simp
  | some start =>
    have hend : (start + old.length < text.length ∧ (position old (text.drop (start + old.length))).isSome) ↔
        position old (text.drop (start + old.length)) ≠ none := by
      rw [← Option.isSome_iff_ne_none, and_iff_right_iff_imp]
      intro hnext
      obtain ⟨next, hnext⟩ := Option.isSome_iff_exists.mp hnext
      have hlt := (occurs_drop.mp ((position_eq_some hold).mp hnext).1).lt_length hold
      omega
    simp only [hend]
    split_ifs with hnext
    · simp [hnext]
    · simp [not_not.mp hnext, eq_comm]

theorem exactlyOneSpan_ok (hold : old ≠ []) : exactlyOneSpan text old label = .ok span ↔
    ∃ i, matchIndices old text = [i] ∧ span = (i, i + old.length) := by
  rw [exactlyOneSpan, if_neg hold]
  rcases matchIndices old text with _ | ⟨first, _ | ⟨second, rest⟩⟩
  · simp
  · simp [eq_comm]
  · simp

theorem applyUniqueReplace_ok (hold : old ≠ []) : applyUniqueReplace text old new = .ok out ↔
    ∃ i, matchIndices old text = [i] ∧ out = replaceAt text i old new := by
  rw [applyUniqueReplace, replacen]
  cases hfirst : position old text with
  | none => simp [matchIndices_eq_nil.mpr hfirst]
  | some first =>
    rw [if_neg (by simp)]
    split_ifs with hcount
    · constructor
      · intro h
        cases h
      · rintro ⟨i, hi, -⟩
        exact absurd (List.length_eq_one_iff.mpr ⟨i, hi⟩) hcount
    · obtain ⟨i, hi⟩ := List.length_eq_one_iff.mp (not_not.mp hcount)
      obtain ⟨hsame, -⟩ := (matchIndices_eq_singleton hold).mp hi
      rw [hfirst] at hsame
      cases hsame
      simp [hi, eq_comm]

end

/-- Each of the three edits is accepted exactly if the old text stands at exactly one place, and replaces that place, if
and only if several places of the old text do not all overlap. -/
theorem unique_edits_exact (text old new : List UInt8) (label : String) (hold : old ≠ []) :
    ((∀ out, uniqueReplaceBytes text old new = .ok out ↔
      ∃ i, OccursOnce old text i ∧ out = replaceAt text i old new) ↔ TwoApart old text) ∧
    ((∀ span, exactlyOneSpan text old label = .ok span ↔
      ∃ i, OccursOnce old text i ∧ span = (i, i + old.length)) ↔ TwoApart old text) ∧
    ((∀ out, applyUniqueReplace text old new = .ok out ↔
      ∃ i, OccursOnce old text i ∧ out = replaceAt text i old new) ↔ TwoApart old text) := by
  simp only [uniqueReplaceBytes_ok hold, exactlyOneSpan_ok hold, applyUniqueReplace_ok hold]
  exact ⟨unique_match_iff hold _, unique_match_iff hold _, unique_match_iff hold _⟩

theorem unique_edits_exact_apart :
    TwoApart [97, 98, 97] [97, 98, 97, 32, 97, 98, 97, 98, (97 : UInt8)] ∧
    ¬∃ i, OccursOnce [97, 98, 97] [97, 98, 97, 32, 97, 98, 97, 98, (97 : UInt8)] i := by
  have hapart : TwoApart [97, 98, 97] [97, 98, 97, 32, 97, 98, 97, 98, (97 : UInt8)] :=
    fun _ _ _ _ _ => ⟨0, 4, by unfold Occurs; decide, by unfold Occurs; decide, by decide⟩
  refine ⟨hapart, fun ⟨i, hi⟩ => ?_⟩
  have hedit := (unique_edits_exact _ _ [] "find" (by decide)).1.mpr hapart
  exact absurd ((hedit _).mpr ⟨i, hi, rfl⟩) (by rw [show uniqueReplaceBytes _ _ _ = .error notUnique by decide]; nofun)

/-- The old text `aba` stands in `ababa` at 0 and at 2. -/
theorem overlapping_match_replaced :
    Occurs [97, 98, 97] [97, 98, 97, 98, 97] 0 ∧ Occurs [97, 98, 97] [97, 98, 97, 98, 97] 2 ∧
    uniqueReplaceBytes [97, 98, 97, 98, 97] [97, 98, 97] [] = .ok [98, 97] ∧
    exactlyOneSpan [97, 98, 97, 98, 97] [97, 98, 97] "find" = .ok (0, 3) ∧
    applyUniqueReplace [97, 98, 97, 98, 97] [97, 98, 97] [] = .ok [98, 97] := by
  unfold Occurs
  decide

end Zero.Edits
