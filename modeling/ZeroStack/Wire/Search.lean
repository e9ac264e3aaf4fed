import Mathlib.Data.List.Infix

/-! Searching a text for a word: the offsets at which it stands, and the matches met by a scan that goes on behind
each match. -/

namespace Wire
open List
variable {α : Type} {word text : List α} {i k : ℕ}

def Occurs (word text : List α) (i : ℕ) : Prop := word <+: text.drop i

def OccursOnce (word text : List α) (i : ℕ) : Prop := ∀ j, Occurs word text j ↔ j = i

/-- If the word stands at several places, two of them share no letter. -/
def TwoApart (word text : List α) : Prop := ∀ i j, Occurs word text i → Occurs word text j → i < j →
  ∃ k l, Occurs word text k ∧ Occurs word text l ∧ k + word.length ≤ l

theorem occurs_drop : Occurs word (text.drop k) i ↔ Occurs word text (k + i) := by
  rw [Occurs, Occurs, drop_drop]

theorem Occurs.lt_length (h : Occurs word text i) (hword : word ≠ []) : i < text.length := by
  have hlen := h.length_le
  have hpos := length_pos_iff.mpr hword
  rw [length_drop] at hlen
  omega

section Scan
variable [DecidableEq α]

def position (word text : List α) : Option ℕ := text.tails.findIdx? (word.isPrefixOf ·)

def matchesFrom (word text : List α) : (rounds pos : ℕ) → List ℕ
  | 0, _ => []
  | rounds + 1, pos =>
    match position word (text.drop pos) with
    | none => []
    | some rel => (pos + rel) :: matchesFrom word text rounds (pos + rel + word.length)

/-- The matches of a scan. There is at most one for each letter of the text, and of the empty word one more. -/
def matchIndices (word text : List α) : List ℕ := matchesFrom word text (text.length + 1) 0

theorem position_eq_some (hword : word ≠ []) :
    position word text = some i ↔ Occurs word text i ∧ ∀ j < i, ¬Occurs word text j := by
  rw [position, List.findIdx?_eq_some_iff_getElem]
  simp only [getElem_tails, isPrefixOf_iff_prefix, length_tails]
  constructor
  · rintro ⟨-, hi, hbefore⟩
    exact ⟨hi, hbefore⟩
  · rintro ⟨hi, hbefore⟩
    exact ⟨Nat.lt_succ_of_lt (Occurs.lt_length hi hword), hi, hbefore⟩

theorem position_eq_none : position word text = none ↔ ∀ i, ¬Occurs word text i := by
  rw [position, List.findIdx?_eq_none_iff]
  constructor
  · intro h i hi
    have hfalse := h _ ((mem_tails _ _).mpr (drop_suffix i text))
    rw [List.isPrefixOf_iff_prefix.mpr hi] at hfalse
    cases hfalse
  · intro h tail htail
    obtain ⟨front, rfl⟩ := (mem_tails _ _).mp htail
    have hnot := h front.length
    rw [Occurs, drop_left, ← isPrefixOf_iff_prefix] at hnot
    exact Bool.eq_false_iff.mpr hnot

theorem matchIndices_eq_nil : matchIndices word text = [] ↔ position word text = none := by
  rw [matchIndices, matchesFrom, drop_zero]
  cases position word text <;> simp

section Nonempty
variable (hword : word ≠ [])
include hword

theorem matchIndices_eq_singleton :
    matchIndices word text = [i] ↔
      position word text = some i ∧ position word (text.drop (i + word.length)) = none := by
  rw [matchIndices, matchesFrom, drop_zero]
  cases hfirst : position word text with
  | none => simp
  | some rel =>
    obtain ⟨rounds, hrounds⟩ :=
      Nat.exists_eq_add_one_of_ne_zero (Nat.ne_zero_of_lt (((position_eq_some hword).mp hfirst).1.lt_length hword))
    simp only [hrounds, matchesFrom, Nat.zero_add]
    constructor
    · intro h
      obtain ⟨rfl, hrest⟩ := List.cons.inj h
      refine ⟨rfl, ?_⟩
      cases hnext : position word (text.drop (rel + word.length)) with
      | none => rfl
      | some next =>
        rw [hnext] at hrest
        cases hrest
    · rintro ⟨hrel, hnext⟩
      cases hrel
      simp only [hnext]

theorem matchesFrom_of_length_le {rounds pos : ℕ} (h : text.length ≤ pos) : matchesFrom word text rounds pos = [] := by
  cases rounds with
  | zero => rfl
  | succ rounds =>
    have hnone : position word (text.drop pos) = none :=
      position_eq_none.mpr fun i hi => by simpa [drop_of_length_le h] using hi.lt_length hword
    rw [matchesFrom, hnone]

theorem occurs_of_mem_matchIndices (h : i ∈ matchIndices word text) : Occurs word text i := by
  unfold matchIndices at h
  generalize text.length + 1 = rounds, 0 = pos at h
  induction rounds generalizing pos with
  | zero => cases h
  | succ rounds ih =>
    rw [matchesFrom] at h
    cases hnext : position word (text.drop pos) with
    | none => simp [hnext] at h
    | some rel =>
      rw [hnext] at h
      rcases mem_cons.mp h with rfl | h
      · exact occurs_drop.mp ((position_eq_some hword).mp hnext).1
      · exact ih _ h

theorem mem_or_overlaps (h : Occurs word text i) :
    i ∈ matchIndices word text ∨ ∃ j ∈ matchIndices word text, j < i ∧ i < j + word.length := by
  have hpos := length_pos_iff.mpr hword
  have hfrom : ∀ rounds pos, pos ≤ i → text.length < pos + rounds → i ∈ matchesFrom word text rounds pos ∨
      ∃ j ∈ matchesFrom word text rounds pos, j < i ∧ i < j + word.length := by
    intro rounds
    induction rounds with
    | zero =>
      intro pos hle hrounds
      have hlt := h.lt_length hword
      omega
    | succ rounds ih =>
      intro pos hle hrounds
      obtain ⟨k, rfl⟩ := Nat.exists_eq_add_of_le hle
      rw [matchesFrom]
      cases hnext : position word (text.drop pos) with
      | none => exact absurd (occurs_drop.mpr h) (position_eq_none.mp hnext k)
      | some rel =>
        have hrel : rel ≤ k := Nat.not_lt.mp fun hlt =>
          ((position_eq_some hword).mp hnext).2 k hlt (occurs_drop.mpr h)
        simp only [mem_cons, exists_eq_or_imp]
        by_cases hbehind : pos + rel + word.length ≤ pos + k
        · exact (ih _ hbehind (by omega)).imp .inr .inr
        · omega
  exact hfrom (text.length + 1) 0 (Nat.zero_le i) (by omega)

theorem OccursOnce.matchIndices_eq (h : OccursOnce word text i) : matchIndices word text = [i] := by
  rw [matchIndices_eq_singleton hword, position_eq_some hword, position_eq_none]
  refine ⟨⟨(h i).mpr rfl, fun j hlt hj => hlt.ne ((h j).mp hj)⟩, fun j hj => ?_⟩
  have hsame := (h _).mp (occurs_drop.mp hj)
  have hpos := length_pos_iff.mpr hword
  omega

theorem TwoApart.occursOnce (hapart : TwoApart word text) (h : matchIndices word text = [i]) :
    OccursOnce word text i := by
  rw [matchIndices_eq_singleton hword, position_eq_some hword, position_eq_none] at h
  obtain ⟨⟨hi, hbefore⟩, hafter⟩ := h
  refine fun j => ⟨fun hj => ?_, fun hj => hj ▸ hi⟩
  rcases Nat.lt_trichotomy j i with hlt | heq | hgt
  · exact absurd hj (hbefore j hlt)
  · exact heq
  · obtain ⟨k, l, hk, hl, hle⟩ := hapart i j hi hj hgt
    have hfirst : i ≤ k := Nat.not_lt.mp fun hlt => hbefore k hlt hk
    obtain ⟨later, rfl⟩ := Nat.exists_eq_add_of_le ((Nat.add_le_add_right hfirst _).trans hle)
    exact absurd (occurs_drop.mpr hl) (hafter later)

theorem twoApart_of_occursOnce (h : ∀ i, matchIndices word text = [i] → ∃ j, OccursOnce word text j) :
    TwoApart word text := by
  intro i j hi hj hlt
  cases hfirst : position word text with
  | none => exact absurd hi (position_eq_none.mp hfirst i)
  | some first =>
    have hplace := ((position_eq_some hword).mp hfirst).1
    cases hnext : position word (text.drop (first + word.length)) with
    | some next =>
      have hlater := occurs_drop.mp ((position_eq_some hword).mp hnext).1
      exact ⟨first, _, hplace, hlater, Nat.le_add_right _ _⟩
    | none =>
      obtain ⟨k, hk⟩ := h first ((matchIndices_eq_singleton hword).mpr ⟨hfirst, hnext⟩)
      exact absurd (((hk i).mp hi).trans ((hk j).mp hj).symm) hlt.ne

theorem unique_match_iff {β : Type} (f : ℕ → β) :
    (∀ out, (∃ i, matchIndices word text = [i] ∧ out = f i) ↔ ∃ i, OccursOnce word text i ∧ out = f i) ↔
      TwoApart word text := by
  constructor
  · intro h
    refine twoApart_of_occursOnce hword fun i hi => ?_
    obtain ⟨j, hj, -⟩ := (h (f i)).mp ⟨i, hi, rfl⟩
    exact ⟨j, hj⟩
  · intro hapart out
    refine exists_congr fun i => and_congr_left' ⟨hapart.occursOnce hword, fun h => h.matchIndices_eq hword⟩

end Nonempty

end Scan

end Wire
