import ZeroStack.Mmr.Log

/-! What an accepted inclusion proof says. The bagged peaks are siblings on a longer path to the root; the index that
the proof names is not part of the path. -/

open Hashed List

namespace GraphZero.Mmr

variable {α D : Type}

section Bagging
variable {digests : Digests D}

theorem bagPeaks_cons {peak : D} {peaks : List D} (h : peaks ≠ []) :
    bagPeaks digests (peak :: peaks) = digests.hashPair peak (bagPeaks digests peaks) := by
  have hreverse : peaks.reverse ≠ [] := fun hnil => h (reverse_eq_nil_iff.mp hnil)
  obtain ⟨last, rest, hlast⟩ := exists_cons_of_ne_nil hreverse
  rw [bagPeaks, bagPeaks, reverse_cons, hlast]
  exact foldl_append

def bagPath (digests : Digests D) (before after : List D) : List (Step D) :=
  (if after = [] then [] else [⟨true, bagPeaks digests after⟩]) ++ before.reverse.map (⟨false, ·⟩)

theorem walk_bagPath (before after : List D) (peak : D) :
    walk digests.hashPair peak (bagPath digests before after) = bagPeaks digests (before ++ peak :: after) := by
  induction before with
  | nil =>
    rw [bagPath, nil_append]
    split_ifs with hafter
    · rw [hafter]
      rfl
    · rw [bagPeaks_cons hafter]
      rfl
  | cons first before ih =>
    have hpath : bagPath digests (first :: before) after = bagPath digests before after ++ [⟨false, first⟩] := by
      simp only [bagPath, reverse_cons, map_append, map_cons, map_nil, append_assoc]
    have hne : before ++ peak :: after ≠ [] := append_ne_nil_of_right_ne_nil _ (cons_ne_nil _ _)
    rw [hpath, walk_append, ih, cons_append, bagPeaks_cons hne]
    rfl

def InclusionProof.fullPath (digests : Digests D) (p : InclusionProof D) : List (Step D) :=
  let i := min p.peakIndex.toNat p.otherPeaks.length
  p.path ++ bagPath digests (p.otherPeaks.take i) (p.otherPeaks.drop i)

theorem insertIdx_eq_take_append {peaks : List D} {i : ℕ} (h : i ≤ peaks.length) (peak : D) :
    peaks.insertIdx i peak = peaks.take i ++ peak :: peaks.drop i := by
  induction peaks generalizing i with
  | nil =>
    rw [length_nil, Nat.le_zero] at h
    rw [h]
    rfl
  | cons first peaks ih =>
    cases i with
    | zero => rfl
    | succ i =>
      rw [insertIdx_succ_cons, ih (Nat.le_of_succ_le_succ h)]
      rfl

theorem verify_iff_walk [DecidableEq D] {leafHash root : D} {p : InclusionProof D} :
    verify digests leafHash p root = true ↔
      p.leafHash = leafHash ∧ walk digests.hashPair leafHash (p.fullPath digests) = root := by
  rw [InclusionProof.fullPath, walk_append, walk_bagPath, ← insertIdx_eq_take_append (min_le_right _ _), verify]
  split_ifs with hother
  · simp [hother]
  · rw [decide_eq_true_eq]
    exact (and_iff_right (not_not.mp hother)).symm

end Bagging

section Binding
variable (digests : Digests D)

def bagPairs : List D → List (D × D)
  | peak :: next :: rest => (peak, bagPeaks digests (next :: rest)) :: bagPairs (next :: rest)
  | _ => []

namespace TransparencyLog
variable (log : TransparencyLog D)

def rangePairs (start : ℕ) : ℕ → List (D × D)
  | 0 => []
  | h + 1 => (log.computeRangeHash digests start h, log.computeRangeHash digests (start + 2 ^ h) h) ::
      (rangePairs start h ++ rangePairs (start + 2 ^ h) h)

def rootPairs : List (D × D) :=
  bagPairs digests (log.peaks digests) ++
    (mountainRanges log.countU32).flatMap fun range => log.rangePairs digests range.1 range.2

end TransparencyLog

def Collide (pairs pairs' : List (D × D)) : Prop :=
  ∃ x ∈ pairs, ∃ y ∈ pairs', x ≠ y ∧ digests.hashPair x.1 x.2 = digests.hashPair y.1 y.2

variable {digests} {a b : TransparencyLog D}

theorem Collide.mono {pairs pairs' more more' : List (D × D)} (h : Collide digests pairs pairs')
    (hsub : pairs ⊆ more) (hsub' : pairs' ⊆ more') : Collide digests more more' := by
  obtain ⟨x, hx, y, hy, hne, hhash⟩ := h
  exact ⟨x, hsub hx, y, hsub' hy, hne, hhash⟩

theorem eq_or_collide {x y : D × D} {pairs pairs' : List (D × D)}
    (h : digests.hashPair x.1 x.2 = digests.hashPair y.1 y.2) : x = y ∨ Collide digests (x :: pairs) (y :: pairs') := by
  by_cases heq : x = y
  · exact .inl heq
  · exact .inr ⟨x, mem_cons_self, y, mem_cons_self, heq, h⟩

theorem bagPeaks_binds {peaks peaks' : List D} (hlength : peaks.length = peaks'.length)
    (h : bagPeaks digests peaks = bagPeaks digests peaks') :
    peaks = peaks' ∨ Collide digests (bagPairs digests peaks) (bagPairs digests peaks') := by
  induction peaks generalizing peaks' with
  | nil => exact .inl (length_eq_zero_iff.mp hlength.symm).symm
  | cons peak rest ih =>
    obtain ⟨peak', rest', rfl⟩ := exists_cons_of_length_eq_add_one hlength.symm
    have hrest : rest.length = rest'.length := Nat.succ.inj hlength
    cases rest with
    | nil =>
      rw [length_eq_zero_iff.mp hrest.symm] at h ⊢
      exact .inl (congrArg ([·]) h)
    | cons next rest =>
      obtain ⟨next', rest', rfl⟩ := exists_cons_of_length_eq_add_one hrest.symm
      rw [bagPeaks_cons (cons_ne_nil _ _), bagPeaks_cons (cons_ne_nil _ _)] at h
      rcases eq_or_collide (x := (peak, _)) (y := (peak', _)) h with heq | hcollide
      · obtain ⟨hpeak, hbagged⟩ := Prod.mk.inj heq
        rcases ih hrest hbagged with hsame | hcollide
        · exact .inl (by rw [hpeak, hsame])
        · exact .inr (hcollide.mono (subset_cons_self _ _) (subset_cons_self _ _))
      · exact .inr hcollide

theorem computeRangeHash_binds {start height i : ℕ}
    (h : a.computeRangeHash digests start height = b.computeRangeHash digests start height) (hstart : start ≤ i)
    (hend : i < start + 2 ^ height) : a.leaves.getD i digests.zero = b.leaves.getD i digests.zero ∨
      Collide digests (a.rangePairs digests start height) (b.rangePairs digests start height) := by
  induction height generalizing start with
  | zero =>
    obtain rfl : start = i := by omega
    exact .inl h
  | succ height ih =>
    rcases eq_or_collide (x := (_, _)) (y := (_, _)) h with heq | hcollide
    · obtain ⟨hleft, hright⟩ := Prod.mk.inj heq
      -- the leaf is under one of the two halves
      by_cases hhalf : i < start + 2 ^ height
      · refine (ih hleft hstart hhalf).imp_right fun hcollide => hcollide.mono ?_ ?_ <;>
          exact subset_cons_of_subset _ (subset_append_left _ _)
      · refine (ih hright (Nat.not_lt.mp hhalf) (by omega)).imp_right fun hcollide => hcollide.mono ?_ ?_ <;>
          exact subset_cons_of_subset _ (subset_append_right _ _)
    · exact .inr hcollide

/-- The root commits to the whole log, given how many leaves it has: for another log with the same root, two of the
pairs that are hashed for the two roots collide. -/
theorem root_binds_leaves (hlength : a.leaves.length = b.leaves.length) (hcounted : a.leaves.length < 2 ^ 32)
    (hroot : a.root digests = b.root digests) :
    a = b ∨ Collide digests (a.rootPairs digests) (b.rootPairs digests) := by
  rw [or_iff_not_imp_right]
  intro hnone
  have hcount : a.countU32 = b.countU32 := congrArg (· % 2 ^ 32) hlength
  have hpeaks : a.peaks digests = b.peaks digests := by
    refine (bagPeaks_binds (by simp [TransparencyLog.peaks, hcount]) hroot).resolve_right fun hcollide => hnone ?_
    exact hcollide.mono (subset_append_left _ _) (subset_append_left _ _)
  rw [TransparencyLog.peaks, TransparencyLog.peaks, hcount, map_inj_left] at hpeaks
  have hleaf : ∀ i < b.leaves.length, a.leaves.getD i digests.zero = b.leaves.getD i digests.zero := by
    intro i hi
    have hend : i < 0 + ((mountainHeights b.countU32).map (2 ^ ·)).sum := by
      rwa [sum_mountainHeights, Nat.zero_add, TransparencyLog.countU32, Nat.mod_eq_of_lt (hlength ▸ hcounted)]
    obtain ⟨j, start, height, -, hrange, hle, hlt⟩ := exists_findMountain (i := 0) (Nat.zero_le i) hend
    have hmem : (start, height) ∈ mountainRanges b.countU32 := mem_of_getElem? hrange
    refine (computeRangeHash_binds (hpeaks _ hmem) hle hlt).resolve_right fun hcollide => hnone ?_
    refine hcollide.mono ?_ ?_ <;> intro x hx <;> refine mem_append_right _ (mem_flatMap.mpr ⟨_, ?_, hx⟩)
    · rwa [hcount]
    · exact hmem
  have hleaves : a.leaves = b.leaves := by
    refine ext_getElem hlength fun i hi hi' => ?_
    simpa [List.getD_eq_getElem?_getD, hi, hi'] using hleaf i hi'
  cases a
  exact congrArg TransparencyLog.mk hleaves

theorem root_binds_leaves_sum : Collide (⟨fun m n => m + n, 0⟩ : Digests ℕ)
    [(1 + 2, 3), (1, 2)] [(2 + 1, 3), (2, 1)] := by
  have hbinds := @root_binds_leaves ℕ ⟨fun m n => m + n, 0⟩ ⟨[1, 2, 3]⟩ ⟨[2, 1, 3]⟩ rfl (by decide) rfl
  exact hbinds.resolve_left (by decide)

end Binding

variable {H : Hashing α D} {zero : D}

def digestsOf (H : Hashing α D) (zero : D) : Digests D := ⟨H.pair, zero⟩

def logOf (H : Hashing α D) (contents : List α) : TransparencyLog D := ⟨contents.map H.leaf⟩

variable [DecidableEq D]

section Tree
variable (contents : List α) (hne : contents ≠ [])

def logTree : Hashed.Tree α :=
  (logOf (Hashing.free α) contents).root (digestsOf (Hashing.free α) (.leaf (contents.head hne)))

omit [DecidableEq D] in
theorem digest_bagPeaks (z : Hashed.Tree α) (peaks : List (Hashed.Tree α)) :
    (bagPeaks (digestsOf (Hashing.free α) z) peaks).digest H =
      bagPeaks (digestsOf H (z.digest H)) (peaks.map (Tree.digest H)) := by
  induction peaks with
  | nil => rfl
  | cons peak rest ih =>
    by_cases hrest : rest = []
    · subst hrest
      rfl
    · rw [map_cons, bagPeaks_cons hrest, bagPeaks_cons (mt map_eq_nil_iff.mp hrest), ← ih]
      rfl

omit [DecidableEq D] in
theorem digest_computeRangeHash (z : Hashed.Tree α) (start height : ℕ) :
    ((logOf (Hashing.free α) contents).computeRangeHash (digestsOf (Hashing.free α) z) start height).digest H =
      (logOf H contents).computeRangeHash (digestsOf H (z.digest H)) start height := by
  induction height generalizing start with
  | zero =>
    show (((contents.map Tree.leaf).getD start z).digest H) = (contents.map H.leaf).getD start (z.digest H)
    cases hstart : contents[start]? <;> simp [hstart, Tree.digest]
  | succ height ih =>
    rw [TransparencyLog.computeRangeHash, TransparencyLog.computeRangeHash, ← ih, ← ih]
    rfl

omit [DecidableEq D] in
theorem digest_peaks (z : Hashed.Tree α) :
    ((logOf (Hashing.free α) contents).peaks (digestsOf (Hashing.free α) z)).map (Tree.digest H) =
      (logOf H contents).peaks (digestsOf H (z.digest H)) := by
  rw [TransparencyLog.peaks, TransparencyLog.peaks, map_map, TransparencyLog.countU32, TransparencyLog.countU32, logOf,
    logOf, length_map, length_map]
  exact map_congr_left fun range _ => digest_computeRangeHash contents _ _ _

variable {contents}

omit [DecidableEq D] in
theorem computeRangeHash_congr (zero' : D) {start height : ℕ} (h : start + 2 ^ height ≤ contents.length) :
    (logOf H contents).computeRangeHash (digestsOf H zero) start height =
      (logOf H contents).computeRangeHash (digestsOf H zero') start height := by
  induction height generalizing start with
  | zero =>
    have hin : start < (logOf H contents).leaves.length := by
      rw [logOf, length_map]
      omega
    simp only [TransparencyLog.computeRangeHash, getD_eq_getElem?_getD, List.getElem?_eq_getElem hin, Option.getD_some]
  | succ height ih =>
    have hpow : 2 ^ (height + 1) = 2 ^ height + 2 ^ height := Nat.two_pow_succ height
    have hpos : 0 < 2 ^ height := Nat.two_pow_pos height
    rw [TransparencyLog.computeRangeHash, TransparencyLog.computeRangeHash, ih (by omega), ih (by omega)]
    rfl

theorem mountainRanges_le {n start height : ℕ} (h : (start, height) ∈ mountainRanges n) : start + 2 ^ height ≤ n := by
  have hranges : ∀ (heights : List ℕ) (first : ℕ), (start, height) ∈ rangesFrom first heights →
      start + 2 ^ height ≤ first + (heights.map (2 ^ ·)).sum := by
    intro heights
    induction heights with
    | nil => exact nofun
    | cons height' heights ih =>
      intro first hmem
      rw [map_cons, sum_cons]
      rcases mem_cons.mp hmem with heq | hlater
      · cases heq
        omega
      · have hle := ih _ hlater
        omega
  have hle := hranges _ _ h
  rwa [sum_mountainHeights, Nat.zero_add] at hle

omit [DecidableEq D] in
theorem root_eq_digest (hcount : contents.length % 2 ^ 32 ≠ 0) :
    (logOf H contents).root (digestsOf H zero) = (logTree contents hne).digest H := by
  have hlength : (logOf H contents).countU32 = contents.length % 2 ^ 32 := by
    rw [TransparencyLog.countU32, logOf, length_map]
  have hranges : mountainRanges (logOf H contents).countU32 ≠ [] := by
    intro hnil
    have hsum := sum_mountainHeights (logOf H contents).countU32
    rw [← length_eq_zero_iff, mountainRanges, length_rangesFrom, length_eq_zero_iff] at hnil
    rw [hnil, hlength] at hsum
    exact hcount hsum.symm
  have hpeaks : (logOf H contents).peaks (digestsOf H zero) =
      (logOf H contents).peaks (digestsOf H (H.leaf (contents.head hne))) := by
    refine map_congr_left fun range hrange => computeRangeHash_congr _ ?_
    exact (mountainRanges_le hrange).trans (hlength.trans_le (Nat.mod_le _ _))
  have hbag : ∀ {peaks : List D}, peaks ≠ [] → ∀ zero', bagPeaks (digestsOf H zero) peaks =
      bagPeaks (digestsOf H zero') peaks := by
    intro peaks hne zero'
    unfold bagPeaks
    cases hreverse : peaks.reverse with
    | nil => exact absurd (reverse_eq_nil_iff.mp hreverse) hne
    | cons last rest => rfl
  unfold logTree TransparencyLog.root
  rw [digest_bagPeaks, digest_peaks, hpeaks]
  exact hbag (mt map_eq_nil_iff.mp hranges) _

/-- The proof is the path of the subtree, with the digests of the siblings in the tree of the log. -/
structure InclusionProof.PathOf (H : Hashing α D) (zero : D) (tree : Hashed.Tree α) (p : InclusionProof D)
    (t : Hashed.Tree α) : Prop where
  leafHash : p.leafHash = t.digest H
  siblings : tree.follow H (p.fullPath (digestsOf H zero)).reverse = some t

theorem verify_iff_pathOf (hcount : contents.length % 2 ^ 32 ≠ 0) {leafHash : D} {p : InclusionProof D} :
    verify (digestsOf H zero) leafHash p ((logOf H contents).root (digestsOf H zero)) = true ↔
      ∃ t, p.PathOf H zero (logTree contents hne) t ∧ t.digest H = leafHash := by
  have hwalk := @Tree.walk_eq_digest_iff α D H _ (logTree contents hne) (p.fullPath (digestsOf H zero)).reverse leafHash
  rw [reverse_reverse] at hwalk
  rw [verify_iff_walk, root_eq_digest hne hcount]
  constructor
  · rintro ⟨hleaf, haccept⟩
    obtain ⟨t, ht, hdigest⟩ := hwalk.mp haccept
    exact ⟨t, ⟨hleaf.trans hdigest.symm, ht⟩, hdigest⟩
  · rintro ⟨t, ht, hdigest⟩
    exact ⟨ht.leafHash.trans hdigest, hwalk.mpr ⟨t, ht.siblings, hdigest⟩⟩

omit [DecidableEq D] in
theorem leaf_eq_digest_iff {i : ℕ} {t : Hashed.Tree α} :
    (logOf H contents).leaves[i]? = some (t.digest H) ↔ contents[i]?.map Tree.leaf = some t := by
  rw [logOf, getElem?_map, Option.map_eq_some_iff, Option.map_eq_some_iff]
  refine exists_congr fun c => and_congr_right fun _ => ?_
  exact ⟨fun h => Tree.digest_inj (t := .leaf c) h, fun h => congrArg (Tree.digest H) h⟩

/-- An accepted digest is the leaf at the index of the proof, exactly unless the proof is the path of another subtree.
-/
theorem leaf_of_verify (hcount : contents.length % 2 ^ 32 ≠ 0) (leafHash : D) (p : InclusionProof D) :
    (verify (digestsOf H zero) leafHash p ((logOf H contents).root (digestsOf H zero)) = true →
      (logOf H contents).leaves[p.leafIndex.toNat]? = some leafHash) ↔
    ¬ ∃ t, p.PathOf H zero (logTree contents hne) t ∧ t.digest H = leafHash ∧
      contents[p.leafIndex.toNat]?.map Tree.leaf ≠ some t := by
  rw [verify_iff_pathOf hne hcount]
  constructor
  · rintro hsound ⟨t, hpath, rfl, hother⟩
    exact hother (leaf_eq_digest_iff.mp (hsound ⟨t, hpath, rfl⟩))
  · rintro hnone ⟨t, hpath, rfl⟩
    rw [leaf_eq_digest_iff]
    by_contra hother
    exact hnone ⟨t, hpath, rfl, hother⟩

end Tree

section Samples

abbrev sampleHashing : Hashing ℕ (Hashed.Tree ℕ) := Hashing.free ℕ

abbrev sampleDigests : Digests (Hashed.Tree ℕ) := digestsOf sampleHashing (.leaf 0)

def secondOfThree : InclusionProof (Hashed.Tree ℕ) := ⟨1, .leaf 11, [⟨false, .leaf 10⟩], 0, [.leaf 12]⟩

theorem leaf_of_verify_second : (logOf sampleHashing [10, 11, 12]).leaves[1]? = some (.leaf 11) := by
  refine (leaf_of_verify (H := sampleHashing) (cons_ne_nil 10 [11, 12]) (by decide) (.leaf 11) secondOfThree).mpr ?_
    (show verify sampleDigests _ _ _ = true by decide)
  rintro ⟨t, hpath, hdigest, hother⟩
  have ht : Tree.follow sampleHashing (logTree [10, 11, 12] (cons_ne_nil 10 [11, 12]))
      (secondOfThree.fullPath sampleDigests).reverse = some (.leaf 11) := by decide
  cases ht.symm.trans hpath.siblings
  exact hother rfl

/-- The proof of the second leaf is accepted for the index of the first one, and the root is accepted as a leaf. -/
theorem verify_accepts_forged : (verify sampleDigests (.leaf 11) { secondOfThree with leafIndex := 0 }
          ((logOf sampleHashing [10, 11, 12]).root sampleDigests) = true ∧
        (logOf sampleHashing [10, 11, 12]).leaves[0]? ≠ some (.leaf 11)) ∧
      ∃ inner : Hashed.Tree ℕ, verify sampleDigests inner ⟨0, inner, [], 0, []⟩
          ((logOf sampleHashing [10, 11, 12]).root sampleDigests) = true ∧
        inner ∉ (logOf sampleHashing [10, 11, 12]).leaves := by
  refine ⟨by decide, .node (.node (.leaf 10) (.leaf 11)) (.leaf 12), by decide, by decide⟩

end Samples
end GraphZero.Mmr
