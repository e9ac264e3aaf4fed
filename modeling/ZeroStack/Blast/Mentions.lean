import ZeroStack.Wire.Search

/-! How a blast query looks for symbols in the text of a test: plain identifiers in one pass over the words of the text,
other symbols by a scan that goes on behind a rejected match. -/

open Wire List

namespace GraphZero.Blast

class Unicode where
  isAlphanumeric : Char → Bool

section Test
variable [Unicode]

def isIdentChar (c : Char) : Bool := Unicode.isAlphanumeric c || c == '_'

def isBoundary (c : Option Char) : Bool := c.all (!isIdentChar ·)

def standsAlone (text symbol : List Char) (i : ℕ) : Bool :=
  isBoundary (text.take i).getLast? && isBoundary text[i + symbol.length]?

/-- The scan from an offset on. It has no answer where the source cuts the text inside a character. -/
def mentionsFrom (text symbol : List Char) : (rounds start : ℕ) → Option Bool
  | 0, _ => some false
  | rounds + 1, start =>
    match position symbol (text.drop start) with
    | none => some false
    | some rel =>
      if standsAlone text symbol (start + rel) then some true
      -- behind an empty symbol the scan goes on by one byte
      else if symbol = [] ∧ text[start + rel]?.any (1 < ·.utf8Size) then none
      else if text.length ≤ start + rel + max symbol.length 1 then some false
      else mentionsFrom text symbol rounds (start + rel + max symbol.length 1)

def textMentionsSymbol (text symbol : List Char) : Option Bool := mentionsFrom text symbol (text.length + 1) 0

def textMentionsAnySimple (needles : List (List Char)) : List Char → Bool
  | [] => false
  | c :: rest =>
    if isIdentChar c then
      needles.contains (c :: rest.takeWhile isIdentChar) || textMentionsAnySimple needles (rest.dropWhile isIdentChar)
    else textMentionsAnySimple needles rest
termination_by text => text.length
decreasing_by
  · exact Nat.lt_succ_of_le (dropWhile_sublist _).length_le
  · exact Nat.lt_succ_self _

def Simple (needle : List Char) : Prop := needle ≠ [] ∧ needle.all isIdentChar = true

instance : DecidablePred Simple := fun _ => inferInstanceAs (Decidable (_ ∧ _))

def partitionCoveringNeedles (needles : List (List Char)) : List (List Char) × List (List Char) :=
  needles.partition (Simple ·)

def textMentionsAnyNeedle (text : List Char) (simple complex : List (List Char)) : Option Bool :=
  if !simple.isEmpty && textMentionsAnySimple simple text then some true else complex.anyM (textMentionsSymbol text)

def Mentions (text symbol : List Char) : Prop := ∃ i, Occurs symbol text i ∧ standsAlone text symbol i = true

def Decides (test : Option Bool) (p : Prop) : Prop := ∃ answer, test = some answer ∧ (answer = true ↔ p)

variable {text symbol : List Char} {needles : List (List Char)}

omit [Unicode] in
theorem Decides.no {p : Prop} (h : ¬p) : Decides (some false) p := ⟨false, rfl, nofun, fun hp => absurd hp h⟩

/-- The symbol stands alone at a place that a search from left to right, without overlaps, meets. -/
def Met (text symbol : List Char) : Prop := ∃ i ∈ matchIndices symbol text, standsAlone text symbol i = true

section Scan
variable (hsymbol : symbol ≠ [])
include hsymbol

theorem mentionsFrom_eq (rounds start : ℕ) : mentionsFrom text symbol rounds start =
    some ((matchesFrom symbol text rounds start).any (standsAlone text symbol)) := by
  have hpos := length_pos_iff.mpr hsymbol
  induction rounds generalizing start with
  | zero => rfl
  | succ rounds ih =>
    rw [mentionsFrom, matchesFrom, max_eq_left hpos]
    cases position symbol (text.drop start) with
    | none => rfl
    | some rel =>
      simp only [hsymbol, false_and, if_false, any_cons, ih]
      split_ifs with halone hend
      · rw [halone, Bool.true_or]
      · -- behind the end of the text there is no match
        rw [Bool.eq_false_iff.mpr halone, matchesFrom_of_length_le hsymbol hend]
        rfl
      · rw [Bool.eq_false_iff.mpr halone, Bool.false_or]

theorem textMentionsSymbol_exact : Decides (textMentionsSymbol text symbol) (Met text symbol) :=
  ⟨_, mentionsFrom_eq hsymbol _ _, any_eq_true⟩

theorem Met.mentions (h : Met text symbol) : Mentions text symbol := by
  obtain ⟨i, hi, halone⟩ := h
  exact ⟨i, occurs_of_mem_matchIndices hsymbol hi, halone⟩

end Scan

theorem Simple.met_iff (hsimple : Simple symbol) : Met text symbol ↔ Mentions text symbol := by
  refine ⟨fun h => h.mentions hsimple.1, fun ⟨j, hj, halone⟩ => ⟨j, ?_, halone⟩⟩
  rcases mem_or_overlaps hsimple.1 hj with hmem | ⟨i, hi, hlt, hover⟩
  · exact hmem
  · have hin : j - 1 - i < symbol.length := by omega
    have hbefore := prefix_iff_getElem?.mp (occurs_of_mem_matchIndices hsimple.1 hi) _ hin
    rw [List.getElem?_drop, show i + (j - 1 - i) = j - 1 by omega] at hbefore
    rw [standsAlone, Bool.and_eq_true, List.getLast?_take, if_neg (by omega), hbefore] at halone
    simp [isBoundary, all_eq_true.mp hsimple.2 _ (getElem_mem hin)] at halone

theorem anyM_exact (h : ∀ n ∈ needles, n ≠ []) :
    Decides (needles.anyM (textMentionsSymbol text)) (∃ n ∈ needles, Met text n) := by
  induction needles with
  | nil => exact .no fun ⟨n, hn, _⟩ => not_mem_nil hn
  | cons n needles ih =>
    rw [forall_mem_cons] at h
    obtain ⟨answer, hanswer, hiff⟩ := @textMentionsSymbol_exact _ text _ h.1
    rw [List.anyM, hanswer]
    simp only [exists_mem_cons_iff, ← hiff]
    cases answer with
    | true => exact ⟨true, rfl, by simp⟩
    | false => simpa using ih h.2

section Words
variable {before : Option Char} {c : Char} {rest : List Char}

def MentionsAfter (before : Option Char) (text symbol : List Char) (i : ℕ) : Prop :=
  Occurs symbol text i ∧ isBoundary ((text.take i).getLast?.or before) = true ∧
    isBoundary text[i + symbol.length]? = true

theorem mentions_iff : Mentions text symbol ↔ ∃ i, MentionsAfter none text symbol i := by
  simp only [Mentions, MentionsAfter, standsAlone, Option.or_none, Bool.and_eq_true]

theorem mentionsAfter_cons : (∃ i, MentionsAfter before (c :: rest) symbol i) ↔
    MentionsAfter before (c :: rest) symbol 0 ∨ ∃ i, MentionsAfter (some c) rest symbol i := by
  have hnext : ∀ i, MentionsAfter before (c :: rest) symbol (i + 1) ↔ MentionsAfter (some c) rest symbol i := by
    intro i
    have hlast : (c :: rest.take i).getLast?.or before = (rest.take i).getLast?.or (some c) := by
      rw [List.getLast?_cons]
      cases (rest.take i).getLast? <;> rfl
    rw [MentionsAfter, MentionsAfter, take_succ_cons, hlast, Nat.add_right_comm, List.getElem?_cons_succ]
    rfl
  rw [← Nat.or_exists_add_one]
  simp only [hnext]

section Plain
variable (hsimple : Simple symbol)
include hsimple

theorem mentionsAfter_zero : MentionsAfter before text symbol 0 ↔
    isBoundary before = true ∧ symbol = text.takeWhile isIdentChar := by
  have hsplit := congrArg (·[(text.takeWhile isIdentChar).length]?)
    (takeWhile_append_dropWhile (p := isIdentChar) (l := text))
  constructor
  · rintro ⟨⟨tail, rfl⟩, hbefore, hafter⟩
    refine ⟨hbefore, ?_⟩
    rw [takeWhile_append_of_pos (all_eq_true.mp hsimple.2)]
    cases tail with
    | nil => simp
    | cons x tail =>
      have hx : ¬isIdentChar x = true := by simpa [isBoundary] using hafter
      rw [takeWhile_cons_of_neg hx, append_nil]
  · rintro ⟨hbefore, rfl⟩
    refine ⟨List.takeWhile_prefix _, hbefore, ?_⟩
    have hstop := List.head?_dropWhile_not isIdentChar text
    rw [List.getElem?_append_right le_rfl, Nat.sub_self, ← List.head?_eq_getElem?] at hsplit
    rw [Nat.zero_add, ← hsplit]
    cases hhead : (text.dropWhile isIdentChar).head? with
    | none => rfl
    | some c => simpa [isBoundary, hhead] using hstop

theorem mentionsAfter_dropWhile (hc : isIdentChar c = true) :
    (∃ i, MentionsAfter (some c) text symbol i) ↔ ∃ i, MentionsAfter none (text.dropWhile isIdentChar) symbol i := by
  induction text generalizing c with
  | nil => simp [MentionsAfter, Occurs, hsimple.1]
  | cons d rest ih =>
    by_cases hd : isIdentChar d = true
    · rw [dropWhile_cons_of_pos hd, mentionsAfter_cons, mentionsAfter_zero hsimple, ih hd]
      simp [isBoundary, hc]
    · rw [dropWhile_cons_of_neg hd, mentionsAfter_cons, mentionsAfter_cons, mentionsAfter_zero hsimple,
        mentionsAfter_zero hsimple, takeWhile_cons_of_neg hd]
      simp [hsimple.1]

end Plain

theorem textMentionsAnySimple_exact (hneedles : ∀ n ∈ needles, Simple n) :
    textMentionsAnySimple needles text = true ↔ ∃ n ∈ needles, Mentions text n := by
  simp only [mentions_iff]
  fun_induction textMentionsAnySimple needles text with
  | case1 =>
    simp only [Bool.false_eq_true, false_iff]
    rintro ⟨n, hn, i, hi, -⟩
    exact absurd (hi.lt_length (hneedles n hn).1) (Nat.not_lt_zero i)
  | case2 c rest hc ih =>
    have hsplit : ∀ n ∈ needles, (∃ i, MentionsAfter none (c :: rest) n i) ↔ n = c :: rest.takeWhile isIdentChar ∨
        ∃ i, MentionsAfter none (rest.dropWhile isIdentChar) n i := by
      intro n hn
      rw [mentionsAfter_cons, mentionsAfter_zero (hneedles n hn), mentionsAfter_dropWhile (hneedles n hn) hc,
        takeWhile_cons_of_pos hc]
      simp [isBoundary]
    rw [Bool.or_eq_true, ih, contains_iff_mem]
    grind
  | case3 c rest hc ih =>
    have hsame : ∀ o : Option Char, isBoundary (o.or (some c)) = isBoundary o := by
      rintro (_ | x)
      · simpa [isBoundary] using hc
      · rfl
    rw [ih]
    refine exists_congr fun n => and_congr_right fun hn => ?_
    rw [mentionsAfter_cons, mentionsAfter_zero (hneedles n hn), takeWhile_cons_of_neg hc]
    simp only [MentionsAfter, hsame, (hneedles n hn).1, and_false, false_or, Option.or_none]

end Words

theorem textMentionsAnyNeedle_exact (hneedles : ∀ n ∈ needles, n ≠ []) : Decides (textMentionsAnyNeedle text
    (partitionCoveringNeedles needles).1 (partitionCoveringNeedles needles).2) (∃ n ∈ needles, Met text n) := by
  have hsimple : ∀ n, n ∈ (partitionCoveringNeedles needles).1 ↔ n ∈ needles ∧ Simple n := by
    simp [partitionCoveringNeedles]
  have hcomplex : ∀ n, n ∈ (partitionCoveringNeedles needles).2 ↔ n ∈ needles ∧ ¬Simple n := by
    simp [partitionCoveringNeedles]
  generalize partitionCoveringNeedles needles = parts at hsimple hcomplex
  have hfast := @textMentionsAnySimple_exact _ text _ fun n hn => ((hsimple n).mp hn).2
  obtain ⟨answer, hanswer, hiff⟩ := @anyM_exact _ text _ fun n hn => hneedles n ((hcomplex n).mp hn).1
  unfold textMentionsAnyNeedle
  split_ifs with hfound
  · rw [Bool.and_eq_true] at hfound
    obtain ⟨n, hn, hmentions⟩ := hfast.mp hfound.2
    have hplain := (hsimple n).mp hn
    exact ⟨true, rfl, fun _ => ⟨n, hplain.1, hplain.2.met_iff.mpr hmentions⟩, fun _ => rfl⟩
  · refine ⟨answer, hanswer, hiff.trans ⟨?_, ?_⟩⟩
    · rintro ⟨n, hn, hmet⟩
      exact ⟨n, ((hcomplex n).mp hn).1, hmet⟩
    · rintro ⟨n, hn, hmet⟩
      refine ⟨n, (hcomplex n).mpr ⟨hn, fun hplain => hfound ?_⟩, hmet⟩
      have hin := (hsimple n).mpr ⟨hn, hplain⟩
      simp [hfast.mpr ⟨n, hin, hplain.met_iff.mp hmet⟩, ne_nil_of_mem hin]

/-- The test answers whether some needle stands alone in the text, if and only if, where one does, one stands alone at a
place that a search without overlaps meets. For plain identifiers the pass over the words agrees with the scans. -/
theorem mention_test_exact (text : List Char) (needles : List (List Char)) (hneedles : ∀ n ∈ needles, n ≠ []) :
    (Decides (textMentionsAnyNeedle text (partitionCoveringNeedles needles).1 (partitionCoveringNeedles needles).2)
      (∃ n ∈ needles, Mentions text n) ↔ ((∃ n ∈ needles, Mentions text n) → ∃ n ∈ needles, Met text n)) ∧
    ∀ simple : List (List Char), (∀ n ∈ simple, Simple n) →
      simple.anyM (textMentionsSymbol text) = some (textMentionsAnySimple simple text) := by
  have hmentions : (∃ n ∈ needles, Met text n) → ∃ n ∈ needles, Mentions text n :=
    fun ⟨n, hn, hmet⟩ => ⟨n, hn, hmet.mentions (hneedles n hn)⟩
  constructor
  · obtain ⟨answer, hanswer, hiff⟩ := @textMentionsAnyNeedle_exact _ text _ hneedles
    rw [hanswer]
    constructor
    · rintro ⟨_, ⟨⟩, hmention⟩ hsome
      exact hiff.mp (hmention.mpr hsome)
    · intro hmet
      exact ⟨answer, rfl, hiff.trans ⟨hmentions, hmet⟩⟩
  · intro simple hsimple
    obtain ⟨answer, hanswer, hiff⟩ := @anyM_exact _ text _ fun n hn => (hsimple n hn).1
    have hsame : (∃ n ∈ simple, Met text n) ↔ ∃ n ∈ simple, Mentions text n :=
      exists_congr fun n => and_congr_right fun hn => (hsimple n hn).met_iff
    rw [hanswer, Option.some.injEq, Bool.eq_iff_iff, hiff, hsame, textMentionsAnySimple_exact hsimple]

end Test

instance ascii : Unicode := ⟨Char.isAlphanum⟩

theorem mention_test_sample : ∃ answer, textMentionsAnyNeedle "a::a::a".toList [] ["a::a".toList] = some answer ∧
    (answer = true ↔ ∃ n ∈ ["a::a".toList], Mentions "a::a::a".toList n) := by
  have hmet : ∃ n ∈ ["a::a".toList], Met "a::a::a".toList n := ⟨_, mem_singleton_self _, 0, by decide, by decide⟩
  exact (mention_test_exact "a::a::a".toList ["a::a".toList] (by decide)).1.mpr fun _ => hmet

/-- The place of the symbol at which it stands alone begins inside the place that was rejected. -/
theorem overlapping_mention_missed :
    textMentionsAnyNeedle "xa::a::a".toList [] ["a::a".toList] = some false ∧
      Mentions "xa::a::a".toList "a::a".toList :=
  ⟨by decide, 4, prefix_rfl, by decide⟩

end GraphZero.Blast
