import ZeroStack.Posix.Tree

/-! `validate_rollback_path` of the file store: where a write under the workspace root may land. Paths are absolute;
those without `..` are lists of names. -/

open Posix Wire

namespace FsZero

def rollbackOutsideRoot : String :=
  "rollback path outside root: writes are jailed to the workspace root; the declared read-only scratch dir " ++
    "(FSZERO_SCRATCH_DIR) widens reads only, never writes; write the file under the session root and return a " ++
    "reference to it instead"

def maxHops : ℕ := 8

def components (parts : List Component) : List Component := parts.filter (· ≠ .cur)

def lexicalNormalize (parts : List Component) : List String :=
  parts.foldl (fun out part =>
    match part with
    | .up => out.dropLast
    | .cur => out
    | .name name => out ++ [name]) []

def canonicalPathWithinRoot (rootCanon target : List String) : Bool :=
  target = rootCanon || (rootCanon.isPrefixOf target && target.drop rootCanon.length ≠ [])

def checkWithinRoot (rootCanon out : List String) : Except String (List String) :=
  if canonicalPathWithinRoot rootCanon out then .ok out else .error rollbackOutsideRoot

section Model
variable (tree : Tree) (rootCanon : List String)

def rollbackPath {α : Type} (found : Except Errno α) : Except String α :=
  found.mapError fun e => s!"rollback path: {e.display}"

def unfollowedTailSymlink (link : List String) : Except String (List String) :=
  match link.getLast? with
  | none => .error rollbackOutsideRoot
  | some name => do
    let parentCanon ← rollbackPath (tree.canonicalize (names link.dropLast))
    if !canonicalPathWithinRoot rootCanon parentCanon then .error rollbackOutsideRoot
    else .ok (parentCanon ++ [name])

def nextPath (current : List String) (target : PathText) : List Component :=
  if target.absolute then components target.parts else names current.dropLast ++ components target.parts

def hop (next : List Component) : List String :=
  match next.getLast? with
  | none => lexicalNormalize next
  | some last =>
    match tree.canonicalize next.dropLast with
    | .error _ => lexicalNormalize next
    | .ok parentCanon =>
      match last with
      | .name name => parentCanon ++ [name]
      | _ => parentCanon

/-- `resolve_dangling_link`, with the hops it may still take. -/
def resolveDanglingLink : ℕ → List String → Except String (List String)
  | 0, current =>
    match tree.lstat current with
    | .ok (.link _) => .error "rollback path: symlink chain too deep"
    | _ => .ok current
  | hops + 1, current =>
    match tree.lstat current with
    | .ok (.link target) => do
      let next ← checkWithinRoot rootCanon (hop tree (nextPath current target))
      resolveDanglingLink hops next
    | _ => .ok current

/-- The body of the loop of `resolve_missing_path`; nothing if the ancestor cannot be looked at. -/
def resolveAt (replaceTailSymlink : Bool) (ancestor suffix : List String) : Option (Except String (List String)) :=
  match tree.lstat ancestor with
  | .error _ => none
  | .ok (.link _) => some <| if suffix.isEmpty && replaceTailSymlink then unfollowedTailSymlink tree rootCanon ancestor
    else do
      let resolved ← resolveDanglingLink tree rootCanon maxHops ancestor
      checkWithinRoot rootCanon (if suffix.isEmpty then resolved else lexicalNormalize (names (resolved ++ suffix)))
  | .ok _ => some do
    let canon ← rollbackPath (tree.canonicalize (names ancestor))
    if !canonicalPathWithinRoot rootCanon canon then .error rollbackOutsideRoot
    else checkWithinRoot rootCanon (if suffix.isEmpty then canon else lexicalNormalize (names (canon ++ suffix)))

def resolveFrom (joined : List String) (replaceTailSymlink : Bool) : ℕ → Except String (List String)
  | 0 =>
    match resolveAt tree rootCanon replaceTailSymlink [] joined with
    | some answer => answer
    | none => .error rollbackOutsideRoot
  | n + 1 =>
    match resolveAt tree rootCanon replaceTailSymlink (joined.take (n + 1)) (joined.drop (n + 1)) with
    | some answer => answer
    | none => resolveFrom joined replaceTailSymlink n

def resolveMissingPath (joined : List String) (replaceTailSymlink : Bool) : Except String (List String) :=
  resolveFrom tree rootCanon joined replaceTailSymlink joined.length

end Model

variable (tree : Tree) (root : List Component)

def canonicalizeRoot : Except String (List String) :=
  (tree.canonicalize root).mapError fun e => s!"bad root: {e.display}"

def joinRoot (rootCanon : List String) (path : PathText) : List String :=
  if path.absolute then lexicalNormalize path.parts else lexicalNormalize (names rootCanon ++ path.parts)

def validateRollbackPath (path : PathText) : Except String (List String) := do
  let rootCanon ← canonicalizeRoot tree root
  if !canonicalPathWithinRoot rootCanon (joinRoot rootCanon path) then .error rollbackOutsideRoot
  else resolveMissingPath tree rootCanon (joinRoot rootCanon path) true

end FsZero
