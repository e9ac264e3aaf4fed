import Mathlib.Data.List.Basic
import ZeroStack.Wire.Reader

/-! A file system of directories, files and symbolic links, and the lookup of paths in it. A location is the names
from the root down to an entry, with no link on the way. -/

open Wire List

namespace Posix

abbrev Loc := List String

inductive Component where
  | cur
  | up
  | name (name : String)
  deriving DecidableEq

structure PathText where
  absolute : Bool
  parts : List Component
  deriving DecidableEq

inductive Node where
  | dir
  | file
  | link (target : PathText)
  deriving DecidableEq

inductive Errno where
  | notFound
  | notDir
  | loop
  | exist
  deriving DecidableEq

def Errno.display : Errno → String
  | .notFound => "No such file or directory (os error 2)"
  | .notDir => "Not a directory (os error 20)"
  | .loop => "Too many levels of symbolic links (os error 40)"
  | .exist => "File exists (os error 17)"

structure Tree where
  node : Loc → Option Node
  root : node [] = some .dir
  closed : ∀ loc name, node (loc ++ [name]) ≠ none → node loc = some .dir

def lookupNode (entries : List (Loc × Node)) (loc : Loc) : Option Node :=
  if loc = [] then some .dir else (entries.find? (·.1 = loc)).map (·.2)

def Tree.ofEntries (entries : List (Loc × Node))
    (h : ∀ e ∈ entries, lookupNode entries e.1.dropLast = some .dir) : Tree where
  node := lookupNode entries
  root := rfl
  closed loc name hsome := by
    have hfound : ((entries.find? (·.1 = loc ++ [name])).map (·.2)) ≠ none := by
      rwa [lookupNode, if_neg (by simp)] at hsome
    obtain ⟨e, he⟩ := Option.ne_none_iff_exists'.mp (mt (congrArg (Option.map Prod.snd)) hfound)
    have hname : e.1 = loc ++ [name] := by simpa using List.find?_some he
    have hdir := h e (mem_of_find?_eq_some he)
    rwa [hname, dropLast_concat] at hdir

def maxLinks : ℕ := 40

def names (p : List String) : List Component := p.map .name

def PathText.start (target : PathText) (dir : Loc) : Loc := if target.absolute then [] else dir

inductive Scan where
  | found (loc : Loc)
  | failed (error : Errno)
  | link (dir : Loc) (target : PathText) (rest : List Component)

namespace Tree
variable (tree : Tree)

def scan : Loc → List Component → Scan
  | loc, [] => .found loc
  | loc, part :: parts =>
    if tree.node loc ≠ some .dir then .failed .notDir
    else match part with
      | .cur => scan loc parts
      | .up => scan loc.dropLast parts
      | .name name =>
        match tree.node (loc ++ [name]) with
        | none => .failed .notFound
        | some (.link target) => .link loc target parts
        | some _ => scan (loc ++ [name]) parts

def resolve : ℕ → Loc → List Component → Except Errno (ℕ × Loc)
  | 0, loc, parts =>
    match tree.scan loc parts with
    | .found found => .ok (0, found)
    | .failed error => .error error
    | .link _ _ _ => .error .loop
  | fuel + 1, loc, parts =>
    match tree.scan loc parts with
    | .found found => .ok (fuel + 1, found)
    | .failed error => .error error
    | .link dir target rest => resolve fuel (target.start dir) (target.parts ++ rest)

def canonicalize (parts : List Component) : Except Errno Loc := (tree.resolve maxLinks [] parts).map (·.2)

def entry (dir : Loc) (name : String) : Except Errno Node :=
  if tree.node dir ≠ some .dir then .error .notDir
  else match tree.node (dir ++ [name]) with
    | none => .error .notFound
    | some node => .ok node

def locate (p : List String) : Except Errno Loc :=
  match p.getLast? with
  | none => .ok []
  | some name => do
    let dir ← tree.canonicalize (names p.dropLast)
    .ok (dir ++ [name])

def lstat (p : List String) : Except Errno Node :=
  match p.getLast? with
  | none => .ok .dir
  | some name => do
    let dir ← tree.canonicalize (names p.dropLast)
    tree.entry dir name

def isDir (p : List String) : Bool :=
  match tree.canonicalize (names p) with
  | .ok loc => tree.node loc = some .dir
  | .error _ => false

variable {tree} {loc l : Loc} {p q : List Component} {fuel rest : ℕ}

section Resolve

theorem scan_cons (loc : Loc) (part : Component) (parts : List Component) : tree.scan loc (part :: parts) =
    if tree.node loc ≠ some .dir then .failed .notDir
    else match part with
      | .cur => tree.scan loc parts
      | .up => tree.scan loc.dropLast parts
      | .name name =>
        match tree.node (loc ++ [name]) with
        | none => .failed .notFound
        | some (.link target) => .link loc target parts
        | some _ => tree.scan (loc ++ [name]) parts := by
  rw [scan.eq_def]

theorem scan_append (loc : Loc) (p q : List Component) : tree.scan loc (p ++ q) =
    match tree.scan loc p with
    | .found l => tree.scan l q
    | .failed e => .failed e
    | .link dir target left => .link dir target (left ++ q) := by
  induction p generalizing loc with
  | nil => rfl
  | cons part p ih =>
    rw [cons_append, scan_cons, scan_cons]
    split_ifs with hdir
    · rfl
    · cases part with
      | cur => exact ih loc
      | up => exact ih loc.dropLast
      | name name =>
        dsimp only
        cases hnode : tree.node (loc ++ [name]) with
        | none => rfl
        | some node =>
          cases node with
          | dir | file => exact ih _
          | link target => rfl

theorem resolve_of_found (h : tree.scan loc p = .found l) : tree.resolve fuel loc p = .ok (fuel, l) := by
  cases fuel <;> rw [resolve, h]

theorem resolve_of_failed {e : Errno} (h : tree.scan loc p = .failed e) : tree.resolve fuel loc p = .error e := by
  cases fuel <;> rw [resolve, h]

theorem resolve_of_link_zero {dir : Loc} {target : PathText} {left : List Component}
    (h : tree.scan loc p = .link dir target left) : tree.resolve 0 loc p = .error .loop := by
  rw [resolve, h]

theorem resolve_of_link {dir : Loc} {target : PathText} {left : List Component}
    (h : tree.scan loc p = .link dir target left) :
    tree.resolve (fuel + 1) loc p = tree.resolve fuel (target.start dir) (target.parts ++ left) := by
  rw [resolve, h]

theorem resolve_congr {loc' : Loc} (h : tree.scan loc p = tree.scan loc' q) :
    tree.resolve fuel loc p = tree.resolve fuel loc' q := by
  cases fuel <;> rw [resolve, resolve, h]

theorem resolve_append (fuel : ℕ) (loc : Loc) (p q : List Component) :
    tree.resolve fuel loc (p ++ q) = tree.resolve fuel loc p >>= fun r => tree.resolve r.1 r.2 q := by
  have happend := @scan_append tree loc p q
  cases hscan : tree.scan loc p with
  | found l =>
    rw [hscan] at happend
    rw [resolve_of_found hscan, resolve_congr happend]
    rfl
  | failed e =>
    rw [hscan] at happend
    rw [resolve_of_failed hscan, resolve_of_failed happend]
    rfl
  | link dir target left =>
    rw [hscan] at happend
    cases fuel with
    | zero =>
      rw [resolve_of_link_zero hscan, resolve_of_link_zero happend]
      rfl
    | succ fuel => rw [resolve_of_link hscan, resolve_of_link happend, ← append_assoc, resolve_append fuel]

theorem resolve_induction {motive : ℕ → Loc → List Component → Prop}
    (found : ∀ {loc p}, tree.scan loc p = .found l → motive rest loc p)
    (link : ∀ {fuel loc p dir target left}, tree.scan loc p = .link dir target left →
      motive fuel (target.start dir) (target.parts ++ left) → motive (fuel + 1) loc p)
    (h : tree.resolve fuel loc p = .ok (rest, l)) : motive fuel loc p := by
  induction fuel generalizing loc p with
  | zero =>
    rw [resolve] at h
    split at h
    · next hscan =>
      cases h
      exact found hscan
    · cases h
    · cases h
  | succ fuel ih =>
    rw [resolve] at h
    split at h
    · next hscan =>
      cases h
      exact found hscan
    · cases h
    · next hscan => exact link hscan (ih h)

end Resolve

section Nodes

def Plain (tree : Tree) (loc : Loc) : Prop := tree.node loc = some .dir ∨ tree.node loc = some .file

theorem Plain.ne_none (h : tree.Plain loc) : tree.node loc ≠ none := by
  rcases h with h | h <;> simp [h]

theorem node_dropLast (h : tree.node loc ≠ none) : tree.node loc.dropLast = some .dir := by
  rcases eq_nil_or_concat' loc with rfl | ⟨init, name, rfl⟩
  · exact tree.root
  · rw [dropLast_concat]
    exact tree.closed init name h

theorem node_above {below : List String} (hbelow : below ≠ []) (h : tree.node (loc ++ below) ≠ none) :
    tree.node loc = some .dir := by
  induction below using List.reverseRecOn with
  | nil => exact absurd rfl hbelow
  | append_singleton below name ih =>
    rw [← append_assoc] at h
    have hup := tree.closed _ name h
    by_cases hnil : below = []
    · rw [hnil, append_nil] at hup
      exact hup
    · exact ih hnil (by simp [hup])

theorem scan_plain (hloc : tree.Plain loc) :
    (∀ l, tree.scan loc p = .found l → tree.Plain l) ∧
    ∀ dir target left, tree.scan loc p = .link dir target left → tree.node dir = some .dir := by
  induction p generalizing loc with
  | nil =>
    refine ⟨fun l h => ?_, fun dir target left h => nomatch h⟩
    cases h
    exact hloc
  | cons part p ih =>
    rw [scan_cons]
    by_cases hdir : tree.node loc = some .dir
    · rw [if_neg (not_not.mpr hdir)]
      cases part with
      | cur => exact ih hloc
      | up => exact ih (.inl (node_dropLast (by simp [hdir])))
      | name name =>
        dsimp only
        cases hnode : tree.node (loc ++ [name]) with
        | none => exact ⟨fun l h => (nomatch h), fun dir target left h => nomatch h⟩
        | some node =>
          cases node with
          | dir => exact ih (.inl hnode)
          | file => exact ih (.inr hnode)
          | link found =>
            refine ⟨fun l h => (nomatch h), fun dir target left h => ?_⟩
            cases h
            exact hdir
    · rw [if_pos hdir]
      exact ⟨fun l h => (nomatch h), fun dir target left h => nomatch h⟩

theorem Plain.start (target : PathText) {dir : Loc} (h : tree.node dir = some .dir) :
    tree.Plain (target.start dir) := by
  unfold PathText.start
  split_ifs
  · exact .inl tree.root
  · exact .inl h

theorem resolve_plain (hloc : tree.Plain loc) (h : tree.resolve fuel loc p = .ok (rest, l)) : tree.Plain l := by
  refine resolve_induction (motive := fun _ loc _ => tree.Plain loc → tree.Plain l) (fun hscan hloc => ?_)
    (fun hscan ih hloc => ?_) h hloc
  · exact (scan_plain hloc).1 _ hscan
  · exact ih (Plain.start _ ((scan_plain hloc).2 _ _ _ hscan))

theorem scan_names {below : List String} (h : tree.Plain (loc ++ below)) :
    tree.scan loc (names below) = .found (loc ++ below) := by
  induction below generalizing loc with
  | nil => rw [append_nil]; rfl
  | cons name below ih =>
    have hdir : tree.node loc = some .dir := node_above (cons_ne_nil _ _) h.ne_none
    rw [← singleton_append, ← append_assoc] at h
    have hrest := ih h
    rw [names, map_cons, scan_cons, if_neg (not_not.mpr hdir)]
    dsimp only
    have hnext : tree.Plain (loc ++ [name]) := by
      by_cases hnil : below = []
      · rw [hnil, append_nil] at h
        exact h
      · exact .inl (node_above hnil h.ne_none)
    rw [append_assoc] at hrest
    rcases hnext with hnext | hnext <;> rw [hnext] <;> exact hrest

theorem resolve_names (h : tree.Plain loc) (fuel : ℕ) : tree.resolve fuel [] (names loc) = .ok (fuel, loc) := by
  have hscan : tree.scan [] (names loc) = .found ([] ++ loc) := scan_names h
  exact resolve_of_found hscan

end Nodes

section Paths

theorem canonicalize_eq_ok : tree.canonicalize p = .ok l ↔ ∃ left, tree.resolve maxLinks [] p = .ok (left, l) := by
  unfold canonicalize
  cases tree.resolve maxLinks [] p with
  | error e => simp [Except.map]
  | ok r => simp [Except.map, Prod.ext_iff]

theorem canonicalize_names (h : tree.Plain loc) : tree.canonicalize (names loc) = .ok loc :=
  canonicalize_eq_ok.mpr ⟨maxLinks, resolve_names h maxLinks⟩

theorem canonicalize_plain (h : tree.canonicalize p = .ok l) : tree.Plain l := by
  obtain ⟨left, hresolve⟩ := canonicalize_eq_ok.mp h
  exact resolve_plain (.inl tree.root) hresolve

theorem names_append (a b : List String) : names (a ++ b) = names a ++ names b := map_append

theorem canonicalize_append_error {e : Errno} (h : tree.canonicalize p = .error e) (q : List Component) :
    tree.canonicalize (p ++ q) = .error e := by
  unfold canonicalize at h ⊢
  rw [resolve_append]
  cases hresolve : tree.resolve maxLinks [] p with
  | error e' =>
    rw [hresolve] at h
    cases h
    rfl
  | ok r =>
    rw [hresolve] at h
    cases h

theorem canonicalize_missing {front below : List String} {name : String}
    (hfront : tree.canonicalize (names front) = .ok loc)
    (hmissing : tree.node loc = some .dir → tree.node (loc ++ [name]) = none) :
    tree.canonicalize (names (front ++ name :: below)) =
      .error (if tree.node loc = some .dir then .notFound else .notDir) := by
  have hscan : tree.scan loc (names (name :: below)) =
      .failed (if tree.node loc = some .dir then .notFound else .notDir) := by
    rw [names, map_cons, scan_cons]
    by_cases hdir : tree.node loc = some .dir
    · rw [if_neg (not_not.mpr hdir), if_pos hdir]
      dsimp only
      rw [hmissing hdir]
    · rw [if_pos hdir, if_neg hdir]
  obtain ⟨left, hresolve⟩ := canonicalize_eq_ok.mp hfront
  unfold canonicalize
  rw [names_append, resolve_append, hresolve]
  show Except.map _ (tree.resolve left loc (names (name :: below))) = _
  rw [resolve_of_failed hscan]
  rfl

theorem canonicalize_concat {front : List String} {name : String}
    (h : tree.canonicalize (names (front ++ [name])) = .ok l) :
    ∃ dir, tree.canonicalize (names front) = .ok dir ∧ tree.node dir = some .dir ∧
      tree.node (dir ++ [name]) ≠ none := by
  cases hfront : tree.canonicalize (names front) with
  | error e =>
    rw [names_append, canonicalize_append_error hfront] at h
    cases h
  | ok dir =>
    refine ⟨dir, rfl, ?_⟩
    by_contra hgap
    have hmissing : tree.node dir = some .dir → tree.node (dir ++ [name]) = none := by
      intro hdir
      by_contra hsome
      exact hgap ⟨hdir, hsome⟩
    rw [canonicalize_missing hfront hmissing] at h
    cases h

theorem resolve_grown {grown : Tree} (hgrown : ∀ l, tree.node l ≠ none → grown.node l = tree.node l)
    (h : tree.resolve fuel loc p = .ok (rest, l)) : grown.resolve fuel loc p = .ok (rest, l) := by
  have hscan : ∀ (p : List Component) (loc : Loc), (∃ e, tree.scan loc p = .failed e) ∨
      grown.scan loc p = tree.scan loc p := by
    intro p
    induction p with
    | nil => exact fun loc => .inr rfl
    | cons part p ih =>
      intro loc
      rw [scan_cons, scan_cons]
      by_cases hdir : tree.node loc = some .dir
      · have hdir' : grown.node loc = some .dir := by rw [hgrown loc (by simp [hdir]), hdir]
        rw [if_neg (not_not.mpr hdir), if_neg (not_not.mpr hdir')]
        cases part with
        | cur => exact ih loc
        | up => exact ih loc.dropLast
        | name name =>
          dsimp only
          cases hnode : tree.node (loc ++ [name]) with
          | none => exact .inl ⟨_, rfl⟩
          | some node =>
            rw [hgrown _ (by simp [hnode]), hnode]
            cases node with
            | dir | file => exact ih _
            | link target => exact .inr rfl
      · rw [if_pos hdir]
        exact .inl ⟨_, rfl⟩
  refine resolve_induction (motive := fun fuel loc p => grown.resolve fuel loc p = .ok (rest, l))
    (fun {loc p} hfound => ?_)
    (fun {fuel loc p dir target left} hlink ih => ?_) h
  · rcases hscan p loc with ⟨e, hfailed⟩ | hsame
    · rw [hfailed] at hfound
      cases hfound
    · exact resolve_of_found (hsame.trans hfound)
  · rcases hscan p loc with ⟨e, hfailed⟩ | hsame
    · rw [hfailed] at hlink
      cases hlink
    · rw [resolve_of_link (hsame.trans hlink)]
      exact ih

end Paths

end Tree
end Posix
