import Docsite.Tree.Basic

/-!
# Docsite.Proofs.Tree.Subtrees

The nodes of a tree, each with everything below it.

What holds everywhere in a document is said of its subtrees: they stand in the order in
which a walk meets them, the tree itself first.
-/

namespace Docsite.Tree

variable {L B : Type}

mutual

/-- The subtrees of a tree in pre-order, the tree itself first. -/
def subtrees : Tree L B → List (Tree L B)
  | .leaf l => [.leaf l]
  | .branch b kids => .branch b kids :: subtreesAll kids

/-- The subtrees of several trees, those of each tree together. -/
def subtreesAll : List (Tree L B) → List (Tree L B)
  | [] => []
  | t :: ts => subtrees t ++ subtreesAll ts

end

/-- A tree is followed by the subtrees of its children. -/
theorem subtrees_eq (t : Tree L B) : t.subtrees = t :: subtreesAll t.children := by
  cases t <;> rfl

theorem mem_subtrees_self (t : Tree L B) : t ∈ t.subtrees := by
  rw [subtrees_eq]
  exact List.mem_cons_self

theorem subtreesAll_append (ts us : List (Tree L B)) :
    subtreesAll (ts ++ us) = subtreesAll ts ++ subtreesAll us := by
  induction ts with
  | nil => rfl
  | cons t ts ih => simp only [List.cons_append, subtreesAll, ih, List.append_assoc]

theorem subtreesAll_eq_flatMap (ts : List (Tree L B)) : subtreesAll ts = ts.flatMap subtrees := by
  induction ts with
  | nil => rfl
  | cons t ts ih => rw [subtreesAll, ih, List.flatMap_cons]

theorem mem_subtreesAll {t : Tree L B} {ts : List (Tree L B)} (mem : t ∈ ts) :
    t ∈ subtreesAll ts := by
  rw [subtreesAll_eq_flatMap]
  exact List.mem_flatMap.mpr ⟨t, mem, mem_subtrees_self t⟩

theorem subtreesAll_perm {ts us : List (Tree L B)} (perm : ts.Perm us) :
    (subtreesAll ts).Perm (subtreesAll us) := by
  rw [subtreesAll_eq_flatMap, subtreesAll_eq_flatMap]
  exact perm.flatMap_right subtrees

mutual

/-- What is below a subtree is below the tree. -/
theorem subtrees_subset : (t : Tree L B) → ∀ u ∈ t.subtrees, u.subtrees ⊆ t.subtrees
  | .leaf l => by simp [subtrees]
  | .branch b kids => by
    rw [subtrees, List.forall_mem_cons]
    refine ⟨List.Subset.refl _, fun u mem => ?_⟩
    exact List.subset_cons_of_subset _ (subtrees_subset_all kids u mem)

theorem subtrees_subset_all : (ts : List (Tree L B)) →
    ∀ u ∈ subtreesAll ts, u.subtrees ⊆ subtreesAll ts
  | [] => by simp [subtreesAll]
  | t :: ts => by
    rw [subtreesAll, List.forall_mem_append]
    exact ⟨fun u mem => List.subset_append_of_subset_left _ (subtrees_subset t u mem),
      fun u mem => List.subset_append_of_subset_right _ (subtrees_subset_all ts u mem)⟩

end

/-- A child of a subtree is below the trees too. -/
theorem child_mem_subtreesAll {ts : List (Tree L B)} {t child : Tree L B}
    (mem : t ∈ subtreesAll ts) (below : child ∈ t.children) : child ∈ subtreesAll ts := by
  apply subtrees_subset_all ts t mem
  rw [subtrees_eq]
  exact List.mem_cons_of_mem _ (mem_subtreesAll below)

mutual

/-- What holds of a tree, and passes from the subtrees to their children, holds of all subtrees. -/
theorem forall_subtrees {P : Tree L B → Prop} : (t : Tree L B) → P t →
    (∀ u ∈ t.subtrees, P u → ∀ child ∈ u.children, P child) → ∀ u ∈ t.subtrees, P u
  | .leaf l, self, _ => by simpa [subtrees] using self
  | .branch b kids, self, step => by
    rw [subtrees, List.forall_mem_cons] at step ⊢
    exact ⟨self, forall_subtreesAll kids (step.1 self) step.2⟩

theorem forall_subtreesAll {P : Tree L B → Prop} : (ts : List (Tree L B)) → (∀ t ∈ ts, P t) →
    (∀ u ∈ subtreesAll ts, P u → ∀ child ∈ u.children, P child) → ∀ u ∈ subtreesAll ts, P u
  | [], _, _ => by simp [subtreesAll]
  | t :: ts, self, step => by
    rw [List.forall_mem_cons] at self
    rw [subtreesAll, List.forall_mem_append] at step ⊢
    exact ⟨forall_subtrees t self.1 step.1, forall_subtreesAll ts self.2 step.2⟩

end

end Docsite.Tree
