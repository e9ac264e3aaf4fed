import Mathlib.Data.List.Basic

/-! A sequence cut behind each of its terminators, or at the first occurrence of a separator. The pieces keep their
terminators, so that they join to the sequence again, and a piece is found by the offset at which it begins. -/

namespace Wire

open List

variable {α β : Type}

def splitInclusive (p : α → Bool) : List α → List (List α)
  | [] => []
  | x :: s =>
    if p x then [x] :: splitInclusive p s
    else match splitInclusive p s with
      | [] => [[x]]
      | piece :: rest => (x :: piece) :: rest

def startsFrom : ℕ → List (List α) → List ℕ
  | _, [] => []
  | k, piece :: rest => k :: startsFrom (k + piece.length) rest

def offsetsBehind (p : α → Bool) (s : List α) : List ℕ :=
  s.zipIdx.filterMap fun (x, i) => if p x ∧ i + 1 < s.length then some (i + 1) else none

variable {s : List α}

section Split
variable {p : α → Bool}

theorem splitInclusive_eq_nil (h : splitInclusive p s = []) : s = [] := by
  cases s with
  | nil => rfl
  | cons x s =>
    rw [splitInclusive] at h
    split_ifs at h
    split at h <;> cases h

theorem flatten_splitInclusive (p : α → Bool) (s : List α) : (splitInclusive p s).flatten = s := by
  induction s with
  | nil => rfl
  | cons x s ih =>
    rw [splitInclusive]
    split
    · rw [flatten_cons, ih, singleton_append]
    · cases hs : splitInclusive p s with
      | nil =>
        rw [splitInclusive_eq_nil hs]
        rfl
      | cons piece rest =>
        rw [hs] at ih
        simpa using ih

theorem splitInclusive_append {a : List α} (ha : a ≠ []) (h : ∀ x ∈ a, p x = false) (s : List α) :
    splitInclusive p (a ++ s) = match splitInclusive p s with
      | [] => [a]
      | piece :: rest => (a ++ piece) :: rest := by
  induction a with
  | nil => exact absurd rfl ha
  | cons x a ih =>
    obtain ⟨hx, hrest⟩ := forall_mem_cons.mp h
    rw [cons_append, splitInclusive, if_neg (by simp [hx])]
    by_cases hnil : a = []
    · subst hnil
      rw [nil_append]
      cases splitInclusive p s <;> rfl
    · rw [ih hnil hrest]
      cases splitInclusive p s <;> rfl

theorem splitInclusive_append_end {x : α} (hx : p x = true) (a s : List α) :
    splitInclusive p (a ++ x :: s) = splitInclusive p (a ++ [x]) ++ splitInclusive p s := by
  induction a with
  | nil => simp [splitInclusive, hx]
  | cons y a ih =>
    rw [cons_append, cons_append, splitInclusive, splitInclusive, ih]
    split_ifs
    · rfl
    · cases hpieces : splitInclusive p (a ++ [x]) with
      | nil => exact absurd (splitInclusive_eq_nil hpieces) (by simp)
      | cons piece rest => rfl

theorem not_of_mem_dropLast {piece : List α} (h : piece ∈ splitInclusive p s) : ∀ x ∈ piece.dropLast, p x = false := by
  induction s generalizing piece with
  | nil => exact (not_mem_nil h).elim
  | cons y s ih =>
    rw [splitInclusive] at h
    split_ifs at h with hy
    · rcases mem_cons.mp h with rfl | hlater
      · exact fun x hx => (not_mem_nil hx).elim
      · exact ih hlater
    · cases hpieces : splitInclusive p s with
      | nil =>
        rw [hpieces, mem_singleton] at h
        subst h
        exact fun x hx => (not_mem_nil hx).elim
      | cons first rest =>
        rw [hpieces] at h ih
        rcases mem_cons.mp h with rfl | hlater
        · intro x hx
          have hcases : x = y ∨ x ∈ first.dropLast := by
            cases first with
            | nil => exact (not_mem_nil hx).elim
            | cons z first => exact mem_cons.mp hx
          rcases hcases with rfl | hinner
          · simpa using hy
          · exact ih mem_cons_self x hinner
        · exact ih (mem_cons_of_mem _ hlater)

theorem splitInclusive_flatMap {q : β → Bool} {code : α → List β}
    (hend : ∀ x, p x = true → ∃ y, code x = [y] ∧ q y = true)
    (hinner : ∀ x, p x = false → code x ≠ [] ∧ ∀ y ∈ code x, q y = false) (s : List α) :
    splitInclusive q (s.flatMap code) = (splitInclusive p s).map fun piece => piece.flatMap code := by
  induction s with
  | nil => rfl
  | cons x s ih =>
    rw [flatMap_cons]
    cases hx : p x with
    | true =>
      obtain ⟨y, hcode, hy⟩ := hend x hx
      rw [hcode, singleton_append, splitInclusive, if_pos hy, ih, splitInclusive, if_pos hx]
      simp [hcode]
    | false =>
      obtain ⟨hne, hnone⟩ := hinner x hx
      rw [splitInclusive_append hne hnone, ih, splitInclusive, if_neg (by simp [hx])]
      cases splitInclusive p s <;> simp

end Split

section Lines

/-- What `str::lines` leaves of a piece: the newline goes, and a carriage return before it. -/
def lineText (piece : List Char) : List Char :=
  if piece.getLast? = some '\n' then
    if piece.dropLast.getLast? = some '\r' then piece.dropLast.dropLast else piece.dropLast
  else piece

def textLines (text : List Char) : List (List Char) := (splitInclusive (· = '\n') text).map lineText

theorem textLines_append (a b : List Char) :
    textLines (a ++ '\n' :: b) = textLines (a ++ ['\n']) ++ textLines b := by
  have hsplit := @splitInclusive_append_end Char (fun c => decide (c = '\n')) '\n' rfl a b
  rw [textLines, hsplit, map_append]
  rfl

theorem newline_notMem_of_mem_textLines {text line : List Char} (h : line ∈ textLines text) : '\n' ∉ line := by
  obtain ⟨piece, hpiece, rfl⟩ := mem_map.mp h
  have hinner : '\n' ∉ piece.dropLast := fun hmem => by simpa using not_of_mem_dropLast hpiece _ hmem
  unfold lineText
  split_ifs with hend hreturn
  · exact fun hmem => hinner (dropLast_subset _ hmem)
  · exact hinner
  · intro hmem
    cases hlast : piece.getLast? with
    | none =>
      rw [List.getLast?_eq_none_iff.mp hlast] at hmem
      exact not_mem_nil hmem
    | some c =>
      obtain ⟨front, rfl⟩ := List.getLast?_eq_some_iff.mp hlast
      rw [dropLast_concat] at hinner
      rcases mem_append.mp hmem with hfront | hc
      · exact hinner hfront
      · rw [mem_singleton.mp hc] at hend
        exact hend hlast

theorem lineText_append {head : List Char} (hfree : '\n' ∉ head) (hlast : head.getLast? ≠ some '\r')
    (piece : List Char) : lineText (head ++ piece) = head ++ lineText piece := by
  rcases eq_nil_or_concat piece with rfl | ⟨body, c, rfl⟩
  · have hend : ¬ head.getLast? = some '\n' := fun h => hfree (mem_of_getLast? h)
    rw [append_nil, lineText, if_neg hend]
    exact (append_nil head).symm
  · have hbody : (head ++ body).getLast? = some '\r' ↔ body.getLast? = some '\r' := by
      rw [List.getLast?_append]
      cases body.getLast? with
      | none => simpa using hlast
      | some x => simp
    rw [concat_eq_append, ← append_assoc, lineText, lineText, List.getLast?_concat, List.getLast?_concat,
      dropLast_concat,
      dropLast_concat]
    simp only [hbody]
    split_ifs with hnewline hreturn
    · rw [dropLast_append_of_ne_nil]
      rintro rfl
      cases hreturn
    · rfl
    · rw [append_assoc]

theorem textLines_head {head : List Char} (hne : head ≠ []) (hfree : '\n' ∉ head) (hlast : head.getLast? ≠ some '\r')
    (text : List Char) : ∃ first rest, textLines (text ++ ['\n']) = first :: rest ∧
      textLines (head ++ (text ++ ['\n'])) = (head ++ first) :: rest := by
  have hhead : ∀ c ∈ head, decide (c = '\n') = false := by
    intro c hc
    apply decide_eq_false
    rintro rfl
    exact hfree hc
  unfold textLines
  rw [splitInclusive_append hne hhead]
  cases hpieces : splitInclusive (fun c => decide (c = '\n')) (text ++ ['\n']) with
  | nil => exact absurd (splitInclusive_eq_nil hpieces) (by simp)
  | cons piece rest =>
    exact ⟨lineText piece, rest.map lineText, rfl, congrArg (· :: _) (lineText_append hfree hlast piece)⟩

end Lines

section Starts
variable {pieces : List (List α)}

theorem length_startsFrom (k : ℕ) (pieces : List (List α)) : (startsFrom k pieces).length = pieces.length := by
  induction pieces generalizing k with
  | nil => rfl
  | cons piece rest ih => rw [startsFrom, length_cons, ih, length_cons]

def pieceOffset (pieces : List (List α)) (i : ℕ) : ℕ := (pieces.take i).flatten.length

theorem getElem?_startsFrom (k : ℕ) {i : ℕ} (h : i < pieces.length) :
    (startsFrom k pieces)[i]? = some (k + pieceOffset pieces i) := by
  induction pieces generalizing k i with
  | nil => simp at h
  | cons piece rest ih =>
    cases i with
    | zero => simp [startsFrom, pieceOffset]
    | succ i =>
      have hi : i < rest.length := by simpa using h
      rw [startsFrom, List.getElem?_cons_succ, ih _ hi, pieceOffset, pieceOffset, take_succ_cons,
        flatten_cons, length_append, Nat.add_assoc]

theorem getD_startsFrom (pieces : List (List α)) (j : ℕ) :
    (startsFrom 0 pieces)[j]?.getD pieces.flatten.length = pieceOffset pieces j := by
  by_cases hj : j < pieces.length
  · rw [getElem?_startsFrom 0 hj, Option.getD_some, Nat.zero_add]
  · have hle : pieces.length ≤ j := Nat.le_of_not_lt hj
    have hbeyond : (startsFrom 0 pieces)[j]? = none :=
      List.getElem?_eq_none (by rw [length_startsFrom]; exact hle)
    rw [hbeyond, Option.getD_none, pieceOffset, take_of_length_le hle]

theorem take_append_extract {i j : ℕ} (h : i ≤ j) : s.take i ++ s.extract i j = s.take j := by
  have hsum : i + (j - i) = j := Nat.add_sub_cancel' h
  rw [← take_add, hsum]

theorem extract_append_extract {i j k : ℕ} (hij : i ≤ j) (hjk : j ≤ k) :
    s.extract i j ++ s.extract j k = s.extract i k := by
  apply (append_right_inj (s.take i)).mp
  rw [← append_assoc, take_append_extract hij, take_append_extract hjk, take_append_extract (Nat.le_trans hij hjk)]

theorem extract_min_length (s : List α) (i j : ℕ) : s.extract i (min j s.length) = s.extract i j := by
  rw [take_eq_take_iff, length_drop]
  omega

variable (pieces)

theorem flatten_take_append_extract {i j : ℕ} (h : i ≤ j) :
    (pieces.take i).flatten ++ (pieces.extract i j).flatten = (pieces.take j).flatten := by
  rw [← flatten_append, take_append_extract h]

theorem pieceOffset_add_length {i j : ℕ} (h : i ≤ j) :
    pieceOffset pieces i + (pieces.extract i j).flatten.length = pieceOffset pieces j := by
  rw [pieceOffset, pieceOffset, ← flatten_take_append_extract pieces h, length_append]

theorem pieceOffset_mono {i j : ℕ} (h : i ≤ j) : pieceOffset pieces i ≤ pieceOffset pieces j := by
  rw [← pieceOffset_add_length pieces h]
  exact Nat.le_add_right _ _

theorem pieceOffset_le_length (i : ℕ) : pieceOffset pieces i ≤ pieces.flatten.length := by
  have hall : pieceOffset pieces (i + pieces.length) = pieces.flatten.length := by
    rw [pieceOffset, take_of_length_le (Nat.le_add_left _ _)]
  rw [← hall]
  exact pieceOffset_mono pieces (Nat.le_add_right _ _)

theorem extract_pieceOffset {i j : ℕ} (h : i ≤ j) :
    pieces.flatten.extract (pieceOffset pieces i) (pieceOffset pieces j) = (pieces.extract i j).flatten := by
  have hall : pieces.flatten =
      (pieces.take i).flatten ++ ((pieces.extract i j).flatten ++ (pieces.drop j).flatten) := by
    rw [← append_assoc, flatten_take_append_extract pieces h, ← flatten_append, take_append_drop]
  rw [extract_eq_take_drop, ← pieceOffset_add_length pieces h, Nat.add_sub_cancel_left, pieceOffset, hall,
    drop_left, take_left]

theorem cons_filterMap_eq_startsFrom (p : α → Bool) (k : ℕ) (hs : s ≠ []) :
    (k :: (s.zipIdx k).filterMap fun (x, i) => if p x ∧ i + 1 < k + s.length then some (i + 1) else none) =
      startsFrom k (splitInclusive p s) := by
  induction s generalizing k with
  | nil => exact absurd rfl hs
  | cons x s ih =>
    have htotal : k + (x :: s).length = k + 1 + s.length := by
      rw [length_cons]
      omega
    rw [zipIdx_cons, filterMap_cons, htotal, splitInclusive]
    by_cases hnil : s = []
    · subst hnil
      cases p x <;> simp [splitInclusive, startsFrom]
    · have hlater := ih (k + 1) hnil
      have hlength : 0 < s.length := length_pos_iff.mpr hnil
      cases hx : p x with
      | true =>
        have hinner : k + 1 < k + 1 + s.length := by omega
        simp only [hx, hinner, and_self, if_true, startsFrom, length_singleton, ← hlater]
      | false =>
        cases hpieces : splitInclusive p s with
        | nil => exact absurd (splitInclusive_eq_nil hpieces) hnil
        | cons piece rest =>
          rw [hpieces, startsFrom, List.cons.injEq] at hlater
          have hnext : k + 1 + piece.length = k + (x :: piece).length := by
            rw [length_cons]
            omega
          simp only [hx, Bool.false_eq_true, false_and, if_false, startsFrom, hlater.2, hnext]

theorem cons_offsetsBehind (p : α → Bool) (hs : s ≠ []) :
    0 :: offsetsBehind p s = startsFrom 0 (splitInclusive p s) := by
  have h := cons_filterMap_eq_startsFrom p 0 hs
  rwa [Nat.zero_add] at h

end Starts

section Once
variable [DecidableEq α] {sep a b : List α} {c : α}

def splitOnce (sep : List α) : List α → Option (List α × List α)
  | [] => if sep = [] then some ([], []) else none
  | x :: s =>
    if sep.isPrefixOf (x :: s) then some ([], (x :: s).drop sep.length)
    else (splitOnce sep s).map fun parts => (x :: parts.1, parts.2)

theorem eq_of_splitOnce (h : splitOnce sep s = some (a, b)) : s = a ++ (sep ++ b) := by
  induction s generalizing a b with
  | nil =>
    rw [splitOnce] at h
    split_ifs at h with hsep
    cases h
    rw [hsep]
    rfl
  | cons x s ih =>
    rw [splitOnce] at h
    split_ifs at h with hhere
    · cases h
      obtain ⟨rest, hrest⟩ := isPrefixOf_iff_prefix.mp hhere
      rw [← hrest, drop_left, nil_append]
    · obtain ⟨parts, hparts, heq⟩ := Option.map_eq_some_iff.mp h
      cases heq
      rw [cons_append, ← ih hparts]

theorem splitOnce_append_cons (h : c ∉ a) : splitOnce [c] (a ++ c :: b) = some (a, b) := by
  induction a with
  | nil => simp [splitOnce]
  | cons x a ih =>
    have hx : c ≠ x := fun heq => h (heq ▸ mem_cons_self)
    have ha : c ∉ a := fun hmem => h (mem_cons_of_mem x hmem)
    simp [splitOnce, List.isPrefixOf, hx, ih ha]

theorem splitOnce_of_notMem (h : c ∉ s) : splitOnce [c] s = none := by
  induction s with
  | nil => rfl
  | cons x s ih =>
    have hx : c ≠ x := fun heq => h (heq ▸ mem_cons_self)
    have hs : c ∉ s := fun hmem => h (mem_cons_of_mem x hmem)
    simp [splitOnce, List.isPrefixOf, hx, ih hs]

end Once

end Wire
