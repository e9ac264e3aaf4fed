import Mathlib.Data.List.Infix
import ZeroStack.FsZero.RollbackPath
import ZeroStack.Posix.Create

/-! When what `validate_rollback_path` accepts lands inside the root. Behind a link the returned path may go on
through further links. -/

open Posix Wire List

namespace FsZero

section Text

theorem canonicalPathWithinRoot_iff {rootCanon target : List String} :
    canonicalPathWithinRoot rootCanon target = true ↔ rootCanon <+: target := by
  unfold canonicalPathWithinRoot
  rw [Bool.or_eq_true, Bool.and_eq_true, decide_eq_true_eq, isPrefixOf_iff_prefix]
  constructor
  · rintro (rfl | ⟨h, -⟩)
    · exact prefix_rfl
    · exact h
  · rintro ⟨rest, rfl⟩
    cases rest with
    | nil => exact .inl (append_nil _)
    | cons name rest => exact .inr ⟨prefix_append _ _, by simp⟩

theorem checkWithinRoot_eq_ok {rootCanon out t : List String} :
    checkWithinRoot rootCanon out = .ok t ↔ rootCanon <+: out ∧ out = t := by
  unfold checkWithinRoot
  rw [← canonicalPathWithinRoot_iff]
  by_cases h : canonicalPathWithinRoot rootCanon out = true <;> simp [h]

theorem lexicalNormalize_names (l : List String) : lexicalNormalize (names l) = l := by
  induction l using List.reverseRecOn with
  | nil => rfl
  | append_singleton l name ih =>
    rw [names, map_append, lexicalNormalize, foldl_append]
    exact congrArg (· ++ [name]) ih

theorem rollbackPath_eq_ok {α : Type} {found : Except Errno α} {a : α} :
    rollbackPath found = .ok a ↔ found = .ok a := by
  cases found with
  | error e | ok b => simp [rollbackPath, Except.mapError]

end Text

variable {node : Node}

section Lookup
variable {tree : Tree} {p : List String} {name : String} {dir : Loc}

theorem lstat_concat : tree.lstat (p ++ [name]) = tree.canonicalize (names p) >>= (tree.entry · name) := by
  unfold Tree.lstat
  rw [List.getLast?_concat, dropLast_concat]

theorem entry_eq_ok (h : tree.entry dir name = .ok node) :
    tree.node dir = some .dir ∧ tree.node (dir ++ [name]) = some node := by
  obtain ⟨hdir, h⟩ := guard_eq_ok.mp h
  rw [not_not] at hdir
  cases hnode : tree.node (dir ++ [name]) with
  | none =>
    rw [hnode] at h
    cases h
  | some found =>
    rw [hnode] at h
    cases h
    exact ⟨hdir, rfl⟩

theorem entry_of_node (h : tree.node (dir ++ [name]) = some node) : tree.entry dir name = .ok node := by
  have hdir : tree.node dir = some .dir := tree.closed dir name (by simp [h])
  rw [Tree.entry, if_neg (not_not.mpr hdir), h]

theorem lstat_eq_ok (h : tree.lstat (p ++ [name]) = .ok node) :
    ∃ dir, tree.canonicalize (names p) = .ok dir ∧ tree.node dir = some .dir ∧
      tree.node (dir ++ [name]) = some node := by
  rw [lstat_concat] at h
  obtain ⟨dir, hcanon, hentry⟩ := bind_eq_ok.mp h
  exact ⟨dir, hcanon, entry_eq_ok hentry⟩

theorem canonicalize_of_lstat (h : tree.lstat p = .ok node) (hplain : ∀ target, node ≠ .link target) :
    ∃ loc, tree.canonicalize (names p) = .ok loc ∧ tree.locate p = .ok loc ∧ tree.node loc = some node := by
  rcases eq_nil_or_concat' p with rfl | ⟨init, name, rfl⟩
  · cases h
    exact ⟨[], Tree.canonicalize_names (.inl tree.root), rfl, tree.root⟩
  · obtain ⟨dir, hcanon, hdir, hnode⟩ := lstat_eq_ok h
    refine ⟨dir ++ [name], ?_, ?_, hnode⟩
    · obtain ⟨left, hresolve⟩ := Tree.canonicalize_eq_ok.mp hcanon
      refine Tree.canonicalize_eq_ok.mpr ⟨left, ?_⟩
      rw [Tree.names_append, Tree.resolve_append, hresolve]
      have hplain' : tree.Plain (dir ++ [name]) := by
        cases node with
        | dir => exact .inl hnode
        | file => exact .inr hnode
        | link target => exact absurd rfl (hplain target)
      exact Tree.resolve_of_found (Tree.scan_names hplain')
    · unfold Tree.locate
      rw [List.getLast?_concat, dropLast_concat, hcanon]
      rfl

end Lookup

section Landing
variable {tree : Tree} {rootCanon joined t : List String}

variable {replaceTailSymlink : Bool}

theorem resolveAt_eq_none {ancestor suffix : List String}
    (h : resolveAt tree rootCanon replaceTailSymlink ancestor suffix = none) : ∃ e, tree.lstat ancestor = .error e := by
  unfold resolveAt at h
  cases hstat : tree.lstat ancestor with
  | error e => exact ⟨e, rfl⟩
  | ok node =>
    rw [hstat] at h
    cases node <;> cases h

theorem resolveFrom_ok {n : ℕ} (h : resolveFrom tree rootCanon joined replaceTailSymlink n = .ok t) :
    ∃ k ≤ n, resolveAt tree rootCanon replaceTailSymlink (joined.take k) (joined.drop k) = some (.ok t) ∧
      (k = n ∨ ∃ e, tree.lstat (joined.take (k + 1)) = .error e) := by
  induction n with
  | zero =>
    rw [resolveFrom] at h
    cases hat : resolveAt tree rootCanon replaceTailSymlink [] joined with
    | none =>
      rw [hat] at h
      cases h
    | some answer =>
      rw [hat] at h
      cases h
      exact ⟨0, le_rfl, hat, .inl rfl⟩
  | succ n ih =>
    rw [resolveFrom] at h
    cases hat : resolveAt tree rootCanon replaceTailSymlink (joined.take (n + 1)) (joined.drop (n + 1)) with
    | some answer =>
      rw [hat] at h
      cases h
      exact ⟨n + 1, le_rfl, hat, .inl rfl⟩
    | none =>
      rw [hat] at h
      obtain ⟨k, hk, hfound, hdeepest⟩ := ih h
      refine ⟨k, Nat.le_succ_of_le hk, hfound, .inr ?_⟩
      rcases hdeepest with rfl | herror
      · exact resolveAt_eq_none hat
      · exact herror

theorem resolveMissingPath_ok (h : resolveMissingPath tree rootCanon joined replaceTailSymlink = .ok t) :
    ∃ ancestor suffix, joined = ancestor ++ suffix ∧
      resolveAt tree rootCanon replaceTailSymlink ancestor suffix = some (.ok t) ∧
      ∀ name rest, suffix = name :: rest → ∃ e, tree.lstat (ancestor ++ [name]) = .error e := by
  obtain ⟨k, hk, hat, hdeepest⟩ := resolveFrom_ok h
  refine ⟨joined.take k, joined.drop k, (take_append_drop k joined).symm, hat, fun name rest hsuffix => ?_⟩
  have hlt : k < joined.length := by
    have hlength := congrArg List.length hsuffix
    rw [length_drop, length_cons] at hlength
    omega
  have hnext : joined.take (k + 1) = joined.take k ++ [name] := by
    rw [drop_eq_getElem_cons hlt] at hsuffix
    rw [take_succ_eq_append_getElem hlt, (List.cons.inj hsuffix).1]
  rcases hdeepest with rfl | herror
  · exact absurd hlt (lt_irrefl _)
  · rw [← hnext]
    exact herror

def Lands (tree : Tree) (rootCanon t : List String) : Prop :=
  ∃ base below name, t = base ++ below ++ [name] ∧ tree.Plain base ∧ rootCanon <+: base ∧
    (tree.node base = some .dir → ∀ first rest, below = first :: rest → tree.node (base ++ [first]) = none)

theorem lands_below {base : Loc} {suffix : List String} (hbase : tree.Plain base) (hwithin : rootCanon <+: base)
    (hsuffix : suffix ≠ []) (hmissing : tree.node base = some .dir → ∀ first rest, suffix = first :: rest →
      tree.node (base ++ [first]) = none) : Lands tree rootCanon (base ++ suffix) := by
  obtain ⟨below, name, rfl⟩ := (eq_nil_or_concat' suffix).resolve_left hsuffix
  refine ⟨base, below, name, (append_assoc ..).symm, hbase, hwithin, fun hdir first rest hbelow => ?_⟩
  exact hmissing hdir first (rest ++ [name]) (by rw [hbelow]; rfl)

theorem node_of_entry_error {dir : Loc} {name : String} {e : Errno} (h : tree.entry dir name = .error e) :
    tree.node (dir ++ [name]) = none := by
  by_contra hsome
  obtain ⟨node, hnode⟩ := Option.ne_none_iff_exists'.mp hsome
  rw [entry_of_node hnode] at h
  cases h

theorem lands_plain {ancestor suffix : List String}
    (helsewhere : tree.locate (ancestor ++ suffix) ≠ .ok rootCanon) (hstat : tree.lstat ancestor = .ok node)
    (hplain : ∀ target, node ≠ .link target)
    (hdeepest : ∀ name rest, suffix = name :: rest → ∃ e, tree.lstat (ancestor ++ [name]) = .error e)
    (h : resolveAt tree rootCanon true ancestor suffix = some (.ok t)) : Lands tree rootCanon t := by
  obtain ⟨loc, hcanon, hlocate, hnode⟩ := canonicalize_of_lstat hstat hplain
  have hloc : tree.Plain loc := Tree.canonicalize_plain hcanon
  have hanswer : (do
      let canon ← rollbackPath (tree.canonicalize (names ancestor))
      if !canonicalPathWithinRoot rootCanon canon then .error rollbackOutsideRoot
      else checkWithinRoot rootCanon (if suffix.isEmpty then canon else lexicalNormalize (names (canon ++ suffix))) :
        Except String (List String)) = .ok t := by
    unfold resolveAt at h
    rw [hstat] at h
    cases node with
    | link target => exact absurd rfl (hplain target)
    | dir | file => exact Option.some.inj h
  obtain ⟨canon, hfound, hrest⟩ := bind_eq_ok.mp hanswer
  rw [hcanon] at hfound
  cases hfound
  obtain ⟨hwithin, hcheck⟩ := guard_eq_ok.mp hrest
  rw [Bool.not_eq_true', Bool.not_eq_false, canonicalPathWithinRoot_iff] at hwithin
  obtain ⟨-, rfl⟩ := checkWithinRoot_eq_ok.mp hcheck
  cases suffix with
  | nil =>
    rw [append_nil] at helsewhere
    have hne : loc ≠ rootCanon := fun heq => helsewhere (heq ▸ hlocate)
    obtain ⟨rest, rfl⟩ := hwithin
    have hrest : rest ≠ [] := fun hnil => hne (by rw [hnil, append_nil])
    obtain ⟨init, name, rfl⟩ := (eq_nil_or_concat' rest).resolve_left hrest
    rw [← append_assoc] at hnode ⊢
    have hdir : tree.node (rootCanon ++ init) = some .dir := by
      apply tree.closed _ name
      rw [hnode]
      exact Option.some_ne_none node
    exact ⟨rootCanon ++ init, [], name, by simp, .inl hdir, prefix_append _ _, fun _ first rest h => nomatch h⟩
  | cons name rest =>
    rw [lexicalNormalize_names]
    refine lands_below hloc hwithin (cons_ne_nil _ _) fun _ first rest' hsuffix => ?_
    cases hsuffix
    obtain ⟨e, herror⟩ := hdeepest name rest rfl
    rw [lstat_concat, hcanon] at herror
    exact node_of_entry_error herror

theorem lands_tail {link : List String} (h : unfollowedTailSymlink tree rootCanon link = .ok t) :
    Lands tree rootCanon t := by
  unfold unfollowedTailSymlink at h
  cases hlast : link.getLast? with
  | none =>
    rw [hlast] at h
    cases h
  | some name =>
    rw [hlast] at h
    obtain ⟨parentCanon, hfound, hrest⟩ := bind_eq_ok.mp h
    obtain ⟨hwithin, hend⟩ := guard_eq_ok.mp hrest
    cases hend
    rw [Bool.not_eq_true', Bool.not_eq_false, canonicalPathWithinRoot_iff] at hwithin
    have hparent := Tree.canonicalize_plain (rollbackPath_eq_ok.mp hfound)
    exact ⟨parentCanon, [], name, by simp, hparent, hwithin, fun _ first rest h => nomatch h⟩

theorem Lands.destination (h : Lands tree rootCanon t) {d : Loc} (hd : Tree.Destination tree t.dropLast d) :
    rootCanon <+: d := by
  obtain ⟨base, below, name, rfl, hbase, hwithin, hmissing⟩ := h
  rw [dropLast_concat] at hd
  rw [hd.eq_of_plain hbase hmissing]
  exact hwithin.trans (prefix_append _ _)

theorem within_of_chase {hops : ℕ} {current place : List String}
    (h : resolveDanglingLink tree rootCanon hops current = .ok place) :
    (place = current ∧ ∀ target, tree.lstat current ≠ .ok (.link target)) ∨ rootCanon <+: place := by
  induction hops generalizing current with
  | zero =>
    rw [resolveDanglingLink] at h
    split at h
    · cases h
    · next hplain =>
      cases h
      exact .inl ⟨rfl, hplain⟩
  | succ hops ih =>
    rw [resolveDanglingLink] at h
    split at h
    · obtain ⟨next, hcheck, hrest⟩ := bind_eq_ok.mp h
      obtain ⟨hwithin, rfl⟩ := checkWithinRoot_eq_ok.mp hcheck
      rcases ih hrest with ⟨rfl, -⟩ | hplace
      · exact .inr hwithin
      · exact .inr hplace
    · next hplain =>
      cases h
      exact .inl ⟨rfl, hplain⟩

theorem lstat_error_below {p more : List String} {name : String} {e : Errno} (h : tree.lstat (p ++ [name]) = .error e) :
    ∃ e, tree.lstat (p ++ name :: more) = .error e := by
  rcases eq_nil_or_concat' more with rfl | ⟨init, last, rfl⟩
  · exact ⟨e, h⟩
  cases hcanon : tree.canonicalize (names (p ++ name :: init)) with
  | error e => exact ⟨e, by rw [← cons_append, ← append_assoc, lstat_concat, hcanon]; rfl⟩
  | ok loc =>
    cases hfirst : tree.canonicalize (names (p ++ [name])) with
    | error e =>
      have hwhole := Tree.canonicalize_append_error hfirst (names init)
      rw [← Tree.names_append, append_assoc, singleton_append, hcanon] at hwhole
      cases hwhole
    | ok found =>
      obtain ⟨dir, hdir, -, hsome⟩ := Tree.canonicalize_concat hfirst
      obtain ⟨node, hnode⟩ := Option.ne_none_iff_exists'.mp hsome
      rw [lstat_concat, hdir] at h
      have hentry := entry_of_node hnode
      rw [show (Except.ok dir >>= (tree.entry · name)) = tree.entry dir name from rfl, hentry] at h
      cases h

theorem resolveFrom_eq {k n : ℕ} {answer : Except String (List String)} (hk : k ≤ n)
    (hat : resolveAt tree rootCanon replaceTailSymlink (joined.take k) (joined.drop k) = some answer)
    (hbelow : ∀ j, k < j → j ≤ n → ∃ e, tree.lstat (joined.take j) = .error e) :
    resolveFrom tree rootCanon joined replaceTailSymlink n = answer := by
  induction n with
  | zero =>
    obtain rfl : k = 0 := Nat.le_zero.mp hk
    rw [take_zero, drop_zero] at hat
    rw [resolveFrom, hat]
  | succ n ih =>
    rcases Nat.lt_or_ge n k with hlt | hle
    · obtain rfl : k = n + 1 := by omega
      rw [resolveFrom, hat]
    · obtain ⟨e, herror⟩ := hbelow (n + 1) (by omega) le_rfl
      have hskip : resolveAt tree rootCanon replaceTailSymlink (joined.take (n + 1)) (joined.drop (n + 1)) = none := by
        rw [resolveAt, herror]
      rw [resolveFrom, hskip]
      exact ih hle fun j hj hjn => hbelow j hj (by omega)

end Landing

/-- Creating the parents of the path creates nothing outside the root, and once they are there the path leads into a
directory inside the root. -/
def Confined (tree : Tree) (rootCanon t : List String) : Prop :=
  let made := createDirAll tree t.dropLast
  (∀ loc, made.1.node loc ≠ tree.node loc → rootCanon <+: loc) ∧
  (made.2 = .ok () → ∃ dir, made.1.canonicalize (names t.dropLast) = .ok dir ∧ made.1.node dir = some .dir ∧
    rootCanon <+: dir)

/-- The request does not name the root itself; and where it leaves the tree behind a link, what is there of the place
that the link stands for, and of the missing names before the last, leads into a directory inside the root. -/
structure Sound (tree : Tree) (rootCanon joined : List String) : Prop where
  elsewhere : tree.locate joined = .ok rootCanon → rootCanon = []
  behind : ∀ {link rest place : List String} {name : String} {target : PathText} {e : Errno},
    joined = link ++ name :: rest → tree.lstat link = .ok (.link target) → tree.lstat (link ++ [name]) = .error e →
      resolveDanglingLink tree rootCanon maxHops link = .ok place →
        ∀ d, Tree.Destination tree (place ++ (name :: rest).dropLast) d → rootCanon <+: d

section Sound
variable {tree : Tree} {rootCanon joined t : List String}

theorem Sound.destination (h : Sound tree rootCanon joined)
    (ht : resolveMissingPath tree rootCanon joined true = .ok t) {d : Loc}
    (hd : Tree.Destination tree t.dropLast d) : rootCanon <+: d := by
  by_cases hnil : rootCanon = []
  · rw [hnil]
    exact nil_prefix
  obtain ⟨ancestor, suffix, rfl, hat, hdeepest⟩ := resolveMissingPath_ok ht
  cases hstat : tree.lstat ancestor with
  | error e =>
    unfold resolveAt at hat
    rw [hstat] at hat
    cases hat
  | ok node =>
    cases node with
    | dir | file =>
      have helsewhere : tree.locate (ancestor ++ suffix) ≠ .ok rootCanon := fun hlocate => hnil (h.elsewhere hlocate)
      exact (lands_plain helsewhere hstat (fun target h => nomatch h) hdeepest hat).destination hd
    | link target =>
      unfold resolveAt at hat
      rw [hstat] at hat
      cases suffix with
      | nil => exact (lands_tail (Option.some.inj hat)).destination hd
      | cons name rest =>
        obtain ⟨place, hchase, hcheck⟩ := bind_eq_ok.mp (Option.some.inj hat)
        obtain ⟨-, rfl⟩ := checkWithinRoot_eq_ok.mp hcheck
        obtain ⟨e, herror⟩ := hdeepest name rest rfl
        rw [isEmpty_cons, if_neg Bool.false_ne_true, lexicalNormalize_names,
          dropLast_append_of_ne_nil (cons_ne_nil _ _)] at hd
        exact h.behind rfl hstat herror hchase d hd

theorem resolveMissingPath_root (hroot : tree.Plain rootCanon) (h : tree.locate joined = .ok rootCanon)
    (hne : rootCanon ≠ []) : resolveMissingPath tree rootCanon joined true = .ok rootCanon := by
  rcases eq_nil_or_concat' joined with rfl | ⟨init, name, rfl⟩
  · cases h
    exact absurd rfl hne
  have hparts := h
  unfold Tree.locate at hparts
  rw [List.getLast?_concat, dropLast_concat] at hparts
  obtain ⟨dir, hdir, hloc⟩ := bind_eq_ok.mp hparts
  cases hloc
  obtain ⟨node, hnode, hplain⟩ : ∃ node, tree.node (dir ++ [name]) = some node ∧ ∀ target, node ≠ .link target := by
    rcases hroot with hnode | hnode <;> exact ⟨_, hnode, nofun⟩
  have hstat : tree.lstat (init ++ [name]) = .ok node := by
    rw [lstat_concat, hdir]
    exact entry_of_node hnode
  obtain ⟨loc, hcanon, hlocate, -⟩ := canonicalize_of_lstat hstat hplain
  rw [h] at hlocate
  cases hlocate
  apply resolveFrom_eq le_rfl
  · rw [take_length, drop_length, resolveAt, hstat]
    cases node with
    | link target => exact absurd rfl (hplain target)
    | dir | file =>
      have hwithin : canonicalPathWithinRoot (dir ++ [name]) (dir ++ [name]) = true :=
        canonicalPathWithinRoot_iff.mpr prefix_rfl
      rw [hcanon]
      show some (if !canonicalPathWithinRoot (dir ++ [name]) (dir ++ [name]) then _ else
        checkWithinRoot (dir ++ [name]) (dir ++ [name])) = _
      rw [hwithin, checkWithinRoot_eq_ok.mpr ⟨prefix_rfl, rfl⟩]
      rfl
  · intro j hj hle
    omega

theorem resolveMissingPath_link {link rest place : List String} {name : String} {target : PathText} {e : Errno}
    (hlink : tree.lstat link = .ok (.link target)) (herror : tree.lstat (link ++ [name]) = .error e)
    (hchase : resolveDanglingLink tree rootCanon maxHops link = .ok place) :
    resolveMissingPath tree rootCanon (link ++ name :: rest) true = .ok (place ++ name :: rest) := by
  have hwithin : rootCanon <+: place := by
    rcases within_of_chase hchase with ⟨-, hplain⟩ | hwithin
    · exact absurd hlink (hplain target)
    · exact hwithin
  have hat : resolveAt tree rootCanon true link (name :: rest) = some (.ok (place ++ name :: rest)) := by
    rw [resolveAt, hlink]
    dsimp only
    rw [hchase]
    show some (checkWithinRoot rootCanon (lexicalNormalize (names (place ++ name :: rest)))) = _
    rw [lexicalNormalize_names, checkWithinRoot_eq_ok.mpr ⟨hwithin.trans (prefix_append _ _), rfl⟩]
  apply resolveFrom_eq (k := link.length) (by simp)
  · rw [take_left, drop_left]
    exact hat
  · intro j hj hle
    obtain ⟨m, rfl⟩ := Nat.exists_eq_add_of_lt hj
    rw [Nat.add_assoc, take_length_add_append, take_succ_cons]
    exact lstat_error_below herror

end Sound

def trapTree : Tree := Tree.ofEntries
  [(["w"], .dir), (["o"], .dir), (["w", "sub"], .dir), (["w", "esc"], .link ⟨true, [.name "o"]⟩),
    (["w", "sub", "x"], .link ⟨true, [.name "o"]⟩), (["w", "lost"], .link ⟨false, [.name "esc", .name "m", .name "n"]⟩),
    (["w", "back"], .link ⟨false, [.name "sub", .up]⟩), (["w", "here"], .link ⟨false, [.cur]⟩),
    (["w", "down"], .link ⟨false, [.name "sub"]⟩), (["w", "new"], .link ⟨false, [.cur, .name "fresh"]⟩)] (by decide)

def requestPath (p : List String) : PathText := ⟨false, names p⟩

theorem dangling_link_sound : Sound trapTree ["w"] ["w", "new", "a", "b"] := by
  refine ⟨fun hlocate => absurd hlocate (by decide +kernel), ?_⟩
  intro link rest place name target e hjoined hlink herror hchase d hd
  have hlinks : ∀ p ∈ inits ["w", "new", "a", "b"],
      p = ["w", "new"] ∨ trapTree.lstat p = .ok .dir ∨ trapTree.lstat p = .error .notFound := by
    decide +kernel
  rcases hlinks link ((mem_inits _ _).mpr ⟨_, hjoined.symm⟩) with rfl | hdir | hmissing
  · obtain ⟨rfl, rfl⟩ : "a" = name ∧ ["b"] = rest := by simpa using hjoined
    have hplace : resolveDanglingLink trapTree ["w"] maxHops ["w", "new"] = .ok ["w", "fresh"] := by decide +kernel
    rw [hplace] at hchase
    cases hchase
    have hlands : Lands trapTree ["w"] (["w"] ++ ["fresh", "a"] ++ ["b"]) :=
      ⟨["w"], ["fresh", "a"], "b", rfl, .inl (by decide +kernel), prefix_rfl, fun _ first rest hfirst => by
        cases hfirst
        decide +kernel⟩
    exact hlands.destination hd
  · rw [hdir] at hlink
    cases hlink
  · rw [hmissing] at hlink
    cases hlink

def landing (request : PathText) : Except String (Except Errno Loc) :=
  (validateRollbackPath trapTree [.name "w"] request).map fun t =>
    (createDirAll trapTree t.dropLast).1.canonicalize (names t.dropLast)

end FsZero
