/-!
# Docsite.Tree.Basic

Trees whose inner nodes hold an ordered list of children and whose leaves hold none.

Leaves and branches carry labels of their own types, so what a node is, and whether it
can have children, is settled by its label alone.
-/

namespace Docsite

/-- A tree with leaves labelled in `L` and branches labelled in `B`. -/
inductive Tree (L : Type) (B : Type) where
  | leaf (label : L)
  | branch (label : B) (children : List (Tree L B))
  deriving Repr, Inhabited

namespace Tree

variable {L B : Type}

/-- The children of a node, none for a leaf. -/
def children : Tree L B → List (Tree L B)
  | .leaf _ => []
  | .branch _ kids => kids

/-- The same node with other children; a leaf stays as it is. -/
def withChildren : Tree L B → List (Tree L B) → Tree L B
  | .leaf l, _ => .leaf l
  | .branch b _, kids => .branch b kids

mutual

/-- The number of nodes. -/
def size : Tree L B → Nat
  | .leaf _ => 1
  | .branch _ kids => sizeAll kids + 1

/-- The number of nodes of several trees. -/
def sizeAll : List (Tree L B) → Nat
  | [] => 0
  | t :: ts => size t + sizeAll ts

end

mutual

/-- Are two trees the same? -/
def same [DecidableEq L] [DecidableEq B] : Tree L B → Tree L B → Bool
  | .leaf l, .leaf m => l == m
  | .branch b ts, .branch c us => b == c && sameAll ts us
  | _, _ => false

/-- Are two lists of trees the same? -/
def sameAll [DecidableEq L] [DecidableEq B] : List (Tree L B) → List (Tree L B) → Bool
  | [], [] => true
  | t :: ts, u :: us => same t u && sameAll ts us
  | _, _ => false

end

mutual

theorem same_iff [DecidableEq L] [DecidableEq B] (t u : Tree L B) : same t u = true ↔ t = u := by
  match t, u with
  | .leaf l, .leaf m => simp [same]
  | .branch b ts, .branch c us => simp [same, sameAll_iff ts us]
  | .leaf _, .branch _ _ => simp [same]
  | .branch _ _, .leaf _ => simp [same]

theorem sameAll_iff [DecidableEq L] [DecidableEq B] (ts us : List (Tree L B)) :
    sameAll ts us = true ↔ ts = us := by
  match ts, us with
  | [], [] => simp [sameAll]
  | t :: ts, u :: us => simp [sameAll, same_iff t u, sameAll_iff ts us]
  | [], _ :: _ => simp [sameAll]
  | _ :: _, [] => simp [sameAll]

end

instance [DecidableEq L] [DecidableEq B] : DecidableEq (Tree L B) :=
  fun t u => decidable_of_iff _ (same_iff t u)

@[simp] theorem children_leaf (l : L) : (leaf l : Tree L B).children = [] := rfl

@[simp] theorem children_branch (b : B) (kids : List (Tree L B)) :
    (branch b kids).children = kids := rfl

@[simp] theorem withChildren_leaf (l : L) (kids : List (Tree L B)) :
    (leaf l).withChildren kids = leaf l := rfl

@[simp] theorem withChildren_branch (b : B) (old new : List (Tree L B)) :
    (branch b old).withChildren new = branch b new := rfl

/-! ## sizes -/

theorem size_pos (t : Tree L B) : 0 < t.size := by
  cases t <;> simp [size]

end Tree

end Docsite
