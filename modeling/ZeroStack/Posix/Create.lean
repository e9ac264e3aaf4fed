import ZeroStack.Posix.Tree

/-! Creating directories: `mkdir`, and `create_dir_all` for all the parents of a path. -/

open Wire Function List

namespace Posix

namespace Tree
variable (tree : Tree)

def addDir (dir : Loc) (name : String) (hdir : tree.node dir = some .dir) (hnew : tree.node (dir ++ [name]) = none) :
    Tree where
  node := update tree.node (dir ++ [name]) (some .dir)
  root := by
    rw [update_of_ne (by simp)]
    exact tree.root
  closed loc other h := by
    have hloc : tree.node loc = some .dir := by
      by_cases heq : loc ++ [other] = dir ++ [name]
      · rw [(append_inj_left' heq rfl)]
        exact hdir
      · rw [update_of_ne heq] at h
        exact tree.closed loc other h
    have hne : loc ≠ dir ++ [name] := by
      rintro rfl
      rw [hnew] at hloc
      cases hloc
    rw [update_of_ne hne]
    exact hloc

def mkdir (p : List String) : Except Errno Tree :=
  match p.getLast? with
  | none => .error .exist
  | some name =>
    match tree.canonicalize (names p.dropLast) with
    | .error e => .error e
    | .ok dir =>
      if hdir : tree.node dir = some .dir then
        if hnew : tree.node (dir ++ [name]) = none then .ok (tree.addDir dir name hdir hnew)
        else .error .exist
      else .error .notDir

end Tree

/-- `create_dir_all`, of the names in reverse: the tree it leaves, and its answer. -/
def createDirs (tree : Tree) : List String → Tree × Except Errno Unit
  | [] => (tree, if tree.isDir [] then .ok () else .error .exist)
  | name :: up =>
    let p := (name :: up).reverse
    match tree.mkdir p with
    | .ok made => (made, .ok ())
    | .error .notFound =>
      match createDirs tree up with
      | (made, .error e) => (made, .error e)
      | (made, .ok ()) =>
        match made.mkdir p with
        | .ok whole => (whole, .ok ())
        | .error e => if made.isDir p then (made, .ok ()) else (made, .error e)
    | .error e => if tree.isDir p then (tree, .ok ()) else (tree, .error e)

def createDirAll (tree : Tree) (p : List String) : Tree × Except Errno Unit := createDirs tree p.reverse

namespace Tree
variable {tree : Tree} {loc : Loc}

theorem mkdir_snoc (p : List String) (name : String) : tree.mkdir (p ++ [name]) =
    match tree.canonicalize (names p) with
    | .error e => .error e
    | .ok dir =>
      if hdir : tree.node dir = some .dir then
        if hnew : tree.node (dir ++ [name]) = none then .ok (tree.addDir dir name hdir hnew)
        else .error .exist
      else .error .notDir := by
  unfold mkdir
  rw [List.getLast?_concat, dropLast_concat]

theorem createDirAll_snoc (p : List String) (name : String) : createDirAll tree (p ++ [name]) =
    match tree.mkdir (p ++ [name]) with
    | .ok made => (made, .ok ())
    | .error .notFound =>
      match createDirAll tree p with
      | (made, .error e) => (made, .error e)
      | (made, .ok ()) =>
        match made.mkdir (p ++ [name]) with
        | .ok whole => (whole, .ok ())
        | .error e => if made.isDir (p ++ [name]) then (made, .ok ()) else (made, .error e)
    | .error e => if tree.isDir (p ++ [name]) then (tree, .ok ()) else (tree, .error e) := by
  have hreverse : (name :: p.reverse).reverse = p ++ [name] := by simp
  unfold createDirAll
  rw [reverse_append, reverse_singleton, singleton_append, createDirs, hreverse]

theorem isDir_eq {p : List String} (h : tree.canonicalize (names p) = .ok loc) :
    tree.isDir p = decide (tree.node loc = some .dir) := by
  rw [isDir, h]

theorem mkdir_exist {p : List String} {name : String} (h : tree.canonicalize (names p) = .ok loc)
    (hdir : tree.node loc = some .dir) (hsome : tree.node (loc ++ [name]) ≠ none) :
    tree.mkdir (p ++ [name]) = .error .exist := by
  rw [mkdir_snoc, h]
  dsimp only
  rw [dif_pos hdir, dif_neg hsome]

theorem createDirAll_refused {p : List String} {name : String} {e : Errno} (he : e ≠ .notFound)
    (hmkdir : tree.mkdir (p ++ [name]) = .error e) (hisDir : tree.isDir (p ++ [name]) = false) :
    createDirAll tree (p ++ [name]) = (tree, .error e) := by
  rw [createDirAll_snoc, hmkdir]
  cases e with
  | notFound => exact absurd rfl he
  | notDir | loop | exist => exact if_neg (by simp [hisDir])

theorem createDirAll_existing {p : List String} (h : tree.canonicalize (names p) = .ok loc)
    (hdir : tree.node loc = some .dir) : createDirAll tree p = (tree, .ok ()) := by
  have hisDir : tree.isDir p = true := by rw [isDir_eq h, decide_eq_true hdir]
  rcases eq_nil_or_concat' p with rfl | ⟨init, name, rfl⟩
  · show (tree, if tree.isDir [] then _ else _) = _
    rw [if_pos hisDir]
  · obtain ⟨dir, hinit, hup, hsome⟩ := canonicalize_concat h
    rw [createDirAll_snoc, mkdir_exist hinit hup hsome]
    dsimp only
    rw [if_pos hisDir]

theorem mkdir_new {p : List String} {name : String} (h : tree.canonicalize (names p) = .ok loc)
    (hdir : tree.node loc = some .dir) (hnew : tree.node (loc ++ [name]) = none) :
    ∃ made, tree.mkdir (p ++ [name]) = .ok made ∧ made.node (loc ++ [name]) = some .dir ∧
      ∀ l, l ≠ loc ++ [name] → made.node l = tree.node l := by
  refine ⟨tree.addDir loc name hdir hnew, ?_, update_self .., fun l hl => update_of_ne hl ..⟩
  rw [mkdir_snoc, h]
  dsimp only
  rw [dif_pos hdir, dif_pos hnew]

structure Missing (tree : Tree) (front below : List String) (dir : Loc) : Prop where
  found : tree.canonicalize (names front) = .ok dir
  isDir : tree.node dir = some .dir
  missing : ∀ name rest, below = name :: rest → tree.node (dir ++ [name]) = none

section Missing
variable {front below : List String} {dir : Loc} {name : String}

theorem Missing.init (h : Missing tree front (below ++ [name]) dir) : Missing tree front below dir :=
  ⟨h.found, h.isDir, fun first rest hbelow => h.missing first (rest ++ [name]) (by rw [hbelow]; rfl)⟩

theorem Missing.snoc (h : Missing tree front below dir) (hbelow : below ≠ []) :
    Missing tree front (below ++ [name]) dir := by
  refine ⟨h.found, h.isDir, fun first rest hsame => ?_⟩
  cases below with
  | nil => exact absurd rfl hbelow
  | cons head tail =>
    cases hsame
    exact h.missing _ _ rfl

theorem Missing.node_eq_none (h : Missing tree front (below ++ [name]) dir) :
    tree.node (dir ++ below ++ [name]) = none := by
  by_contra hsome
  cases below with
  | nil =>
    rw [append_nil] at hsome
    exact hsome (h.missing name [] rfl)
  | cons first rest =>
    have hfirst := h.missing first (rest ++ [name]) rfl
    rw [← singleton_append, append_assoc, append_assoc, ← append_assoc] at hsome
    have hdir := node_above (by simp) hsome
    rw [hfirst] at hdir
    cases hdir

theorem Missing.createDirAll_snoc {made whole : Tree} (h : Missing tree front (below ++ [name]) dir)
    (hmade : createDirAll tree (front ++ below) = (made, .ok ()))
    (hwhole : made.mkdir (front ++ below ++ [name]) = .ok whole) :
    createDirAll tree (front ++ below ++ [name]) = (whole, .ok ()) := by
  rw [Tree.createDirAll_snoc]
  cases below with
  | nil =>
    rw [append_nil, createDirAll_existing h.found h.isDir] at hmade
    cases hmade
    rw [hwhole]
  | cons first rest =>
    have hfails : tree.mkdir (front ++ first :: rest ++ [name]) = .error .notFound := by
      rw [mkdir_snoc, canonicalize_missing h.found fun _ => h.missing first (rest ++ [name]) rfl, if_pos h.isDir]
    rw [hfails, hmade]
    dsimp only
    rw [hwhole]

theorem Missing.createDirAll (h : Missing tree front below dir) :
    ∃ made, createDirAll tree (front ++ below) = (made, .ok ()) ∧
      made.canonicalize (names (front ++ below)) = .ok (dir ++ below) ∧ made.node (dir ++ below) = some .dir ∧
        ∀ l, made.node l ≠ tree.node l → tree.node l = none ∧ dir <+: l ∧ l <+: dir ++ below := by
  induction below using List.reverseRecOn with
  | nil =>
    rw [append_nil, append_nil]
    exact ⟨tree, createDirAll_existing h.found h.isDir, h.found, h.isDir, fun l hl => absurd rfl hl⟩
  | append_singleton below name ih =>
    obtain ⟨made, hmade, hcanon, hdir, hchanged⟩ := ih h.init
    have hnew : tree.node (dir ++ below ++ [name]) = none := h.node_eq_none
    have hstill : made.node (dir ++ below ++ [name]) = none := by
      by_contra hsome
      have hlength := (hchanged (dir ++ below ++ [name]) (by rw [hnew]; exact hsome)).2.2.length_le
      simp at hlength
    obtain ⟨whole, hwhole, hlast, hall⟩ := mkdir_new hcanon hdir hstill
    have hchanged' : ∀ l, whole.node l ≠ tree.node l → tree.node l = none ∧ dir <+: l ∧
        l <+: dir ++ (below ++ [name]) := by
      intro l hl
      rw [← append_assoc]
      by_cases heq : l = dir ++ below ++ [name]
      · rw [heq]
        exact ⟨hnew, by simp, prefix_rfl⟩
      · rw [hall l heq] at hl
        obtain ⟨hnone, hbelow, habove⟩ := hchanged l hl
        exact ⟨hnone, hbelow, habove.trans (prefix_append _ _)⟩
    rw [← append_assoc, ← append_assoc, h.createDirAll_snoc hmade hwhole]
    refine ⟨whole, rfl, ?_, hlast, fun l hl => by rw [append_assoc]; exact hchanged' l hl⟩
    -- The part that was there leads where it led before, and what is new has no link.
    obtain ⟨left, hresolve⟩ := canonicalize_eq_ok.mp h.found
    have hkept : ∀ l, tree.node l ≠ none → whole.node l = tree.node l := fun l hl => by
      by_contra hne
      exact hl (hchanged' l hne).1
    refine canonicalize_eq_ok.mpr ⟨left, ?_⟩
    rw [append_assoc, append_assoc, names_append, resolve_append, resolve_grown hkept hresolve]
    rw [append_assoc] at hlast
    exact resolve_of_found (scan_names (.inl hlast))

end Missing

theorem createDirAll_fails {p : List String}
    (h : ¬ ∃ front below dir, p = front ++ below ∧ Missing tree front below dir) :
    ∃ e, createDirAll tree p = (tree, .error e) := by
  induction p using List.reverseRecOn with
  | nil => exact absurd ⟨[], [], [], rfl, canonicalize_names (.inl tree.root), tree.root, nofun⟩ h
  | append_singleton p name ih =>
    cases hcanon : tree.canonicalize (names p) with
    | error e =>
      have hmkdir : tree.mkdir (p ++ [name]) = .error e := by rw [mkdir_snoc, hcanon]
      have hisDir : tree.isDir (p ++ [name]) = false := by
        rw [isDir, names_append, canonicalize_append_error hcanon]
      cases e with
      | notFound =>
        obtain ⟨e, hup⟩ := ih fun ⟨front, below, dir, hp, hmissing⟩ => by
          refine h ⟨front, below ++ [name], dir, by rw [hp, append_assoc], hmissing.snoc fun hnil => ?_⟩
          rw [hp, hnil, append_nil, hmissing.found] at hcanon
          cases hcanon
        refine ⟨e, ?_⟩
        rw [createDirAll_snoc, hmkdir, hup]
      | notDir | loop | exist => exact ⟨_, createDirAll_refused (by simp) hmkdir hisDir⟩
    | ok dir =>
      by_cases hdir : tree.node dir = some .dir
      · have hsome : tree.node (dir ++ [name]) ≠ none := fun hnone =>
          h ⟨p, [name], dir, rfl, hcanon, hdir, fun first rest hsame => by cases hsame; exact hnone⟩
        refine ⟨_, createDirAll_refused (by simp) (mkdir_exist hcanon hdir hsome) ?_⟩
        cases hwhole : tree.canonicalize (names (p ++ [name])) with
        | error e => rw [isDir, hwhole]
        | ok loc =>
          rw [isDir_eq hwhole]
          refine decide_eq_false fun hloc => h ⟨p ++ [name], [], loc, (append_nil _).symm, hwhole, hloc, nofun⟩
      · have hmkdir : tree.mkdir (p ++ [name]) = .error .notDir := by
          rw [mkdir_snoc, hcanon]
          exact dif_neg hdir
        refine ⟨_, createDirAll_refused (by simp) hmkdir ?_⟩
        rw [isDir, canonicalize_missing hcanon fun h => absurd h hdir]

def Destination (tree : Tree) (p : List String) (d : Loc) : Prop :=
  ∃ front below dir, p = front ++ below ∧ Missing tree front below dir ∧ d = dir ++ below

theorem Destination.eq_of_plain {base below : List String} {d : Loc} (hbase : tree.Plain base)
    (hmissing : tree.node base = some .dir → ∀ name rest, below = name :: rest → tree.node (base ++ [name]) = none)
    (h : Destination tree (base ++ below) d) : d = base ++ below := by
  obtain ⟨front, rest, dir, hp, hfound, rfl⟩ := h
  rcases append_eq_append_iff.mp hp with ⟨more, hfront, hbelow⟩ | ⟨more, hfront, hrest⟩
  · cases more with
    | nil =>
      rw [append_nil] at hfront
      have hsame := hfound.found
      rw [hfront, canonicalize_names hbase] at hsame
      cases hsame
      rw [hbelow, nil_append]
    | cons first more =>
      have hfails := hfound.found
      rw [hfront, canonicalize_missing (canonicalize_names hbase) fun hdir => hmissing hdir first _ hbelow] at hfails
      cases hfails
  · cases more with
    | nil =>
      rw [append_nil] at hfront
      have hsame := hfound.found
      rw [← hfront, canonicalize_names hbase] at hsame
      cases hsame
      rw [hrest, nil_append]
    | cons first more =>
      rw [hfront] at hbase
      have hdir : tree.node front = some .dir := node_above (cons_ne_nil _ _) hbase.ne_none
      have hsame := hfound.found
      rw [canonicalize_names (.inl hdir)] at hsame
      cases hsame
      have hnone := hfound.missing first (more ++ below) hrest
      rw [← singleton_append, ← append_assoc] at hbase
      refine absurd hnone ?_
      cases more with
      | nil =>
        rw [append_nil] at hbase
        exact hbase.ne_none
      | cons second more => simp [node_above (cons_ne_nil second more) hbase.ne_none]

theorem createDirAll_inside_iff {p : List String} {root : Loc} (hroot : tree.Plain root) :
    ((∀ l, (createDirAll tree p).1.node l ≠ tree.node l → root <+: l) ∧
      ((createDirAll tree p).2 = .ok () → ∃ d, (createDirAll tree p).1.canonicalize (names p) = .ok d ∧
        (createDirAll tree p).1.node d = some .dir ∧ root <+: d)) ↔ ∀ d, Destination tree p d → root <+: d := by
  constructor
  · rintro ⟨-, hleads⟩ d ⟨front, below, dir, rfl, hmissing, rfl⟩
    obtain ⟨made, hmade, hcanon, -⟩ := hmissing.createDirAll
    rw [hmade] at hleads
    obtain ⟨d, hd, -, hinside⟩ := hleads rfl
    rw [hcanon] at hd
    cases hd
    exact hinside
  · intro hinside
    by_cases h : ∃ front below dir, p = front ++ below ∧ Missing tree front below dir
    · obtain ⟨front, below, dir, rfl, hmissing⟩ := h
      have hwhole := hinside _ ⟨front, below, dir, rfl, hmissing, rfl⟩
      obtain ⟨made, hmade, hcanon, hdir, hchanged⟩ := hmissing.createDirAll
      rw [hmade]
      refine ⟨fun l hl => ?_, fun _ => ⟨_, hcanon, hdir, hwhole⟩⟩
      obtain ⟨hnone, hbelow, habove⟩ := hchanged l hl
      -- What is new is missing before, so that the root, which is there, is no longer than it.
      rcases prefix_or_prefix_of_prefix hwhole habove with hroot' | ⟨rest, rfl⟩
      · exact hroot'
      · cases rest with
        | nil => simp
        | cons name rest =>
          have hdir := node_above (cons_ne_nil name rest) hroot.ne_none
          rw [hnone] at hdir
          cases hdir
    · obtain ⟨e, hfails⟩ := createDirAll_fails h
      rw [hfails]
      exact ⟨fun l hl => absurd rfl hl, fun h => nomatch h⟩

end Tree
end Posix
