import Mathlib.Data.List.Induction

/-! Walks up a binary hash tree. Leaves and pairs are hashed by one injective function, so that two walks with the same
directions that end at the same digest have begun at the same one. -/

namespace Hashed

open List

structure Hashing (α D : Type) where
  leaf : α → D
  pair : D → D → D
  leaf_inj : ∀ {a b}, leaf a = leaf b → a = b
  pair_inj : ∀ {a b c d}, pair a b = pair c d → a = c ∧ b = d
  leaf_ne_pair : ∀ {a b c}, leaf a ≠ pair b c

inductive Tree (α : Type) where
  | leaf (a : α)
  | node (left right : Tree α)
  deriving DecidableEq

def Hashing.free (α : Type) : Hashing α (Tree α) where
  leaf := .leaf
  pair := .node
  leaf_inj := fun h => Tree.leaf.inj h
  pair_inj := fun h => Tree.node.inj h
  leaf_ne_pair := nofun

structure Step (D : Type) where
  left : Bool
  hash : D
  deriving DecidableEq

variable {α D : Type} {H : Hashing α D} (pair : D → D → D)

def Step.join (current : D) (step : Step D) : D :=
  if step.left then pair current step.hash else pair step.hash current

def walk (current : D) (path : List (Step D)) : D := path.foldl (Step.join pair) current

theorem walk_append (current : D) (path more : List (Step D)) :
    walk pair current (path ++ more) = walk pair (walk pair current path) more := foldl_append

namespace Tree

def digest (H : Hashing α D) : Tree α → D
  | .leaf a => H.leaf a
  | .node left right => H.pair (left.digest H) (right.digest H)

theorem digest_inj {t u : Tree α} (h : t.digest H = u.digest H) : t = u := by
  induction t generalizing u with
  | leaf a =>
    cases u with
    | leaf b => exact congrArg leaf (H.leaf_inj h)
    | node left right => exact absurd h H.leaf_ne_pair
  | node left right ihLeft ihRight =>
    cases u with
    | leaf b => exact absurd h.symm H.leaf_ne_pair
    | node left' right' =>
      obtain ⟨hleft, hright⟩ := H.pair_inj h
      rw [ihLeft hleft, ihRight hright]

def follow [DecidableEq D] (H : Hashing α D) : Tree α → List (Step D) → Option (Tree α)
  | t, [] => some t
  | .leaf _, _ :: _ => none
  | .node left right, step :: steps =>
    if step.left then if step.hash = right.digest H then left.follow H steps else none
    else if step.hash = left.digest H then right.follow H steps else none

theorem follow_nil [DecidableEq D] (t : Tree α) : t.follow H [] = some t := by
  cases t <;> rfl

theorem walk_eq_digest_iff [DecidableEq D] {root : Tree α} {steps : List (Step D)} {a : D} :
    walk H.pair a steps.reverse = root.digest H ↔ ∃ t, root.follow H steps = some t ∧ t.digest H = a := by
  induction steps generalizing root with
  | nil =>
    rw [reverse_nil, follow_nil]
    exact ⟨fun h => ⟨root, rfl, h.symm⟩, fun ⟨t, ht, h⟩ => Option.some.inj ht ▸ h.symm⟩
  | cons step steps ih =>
    have hpair : ∀ {b c d e : D}, H.pair b c = H.pair d e ↔ b = d ∧ c = e :=
      ⟨H.pair_inj, fun ⟨hfirst, hsecond⟩ => by rw [hfirst, hsecond]⟩
    rw [reverse_cons, walk_append]
    cases root with
    | leaf b =>
      constructor
      · intro h
        refine absurd h.symm ?_
        show H.leaf b ≠ step.join H.pair _
        unfold Step.join
        split_ifs <;> exact H.leaf_ne_pair
      · rintro ⟨t, ht, -⟩
        cases ht
    | node left right =>
      show step.join H.pair (walk H.pair a steps.reverse) = H.pair (left.digest H) (right.digest H) ↔ _
      unfold Step.join follow
      split_ifs with hleft hsibling hsibling
      · rw [hpair, ih, and_iff_left hsibling]
      · simp [hpair, hsibling]
      · rw [hpair, ih, and_iff_right hsibling]
      · simp [hpair, hsibling]

end Tree
end Hashed
