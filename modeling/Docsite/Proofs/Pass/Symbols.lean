import Docsite.Pass.Symbols
import Docsite.Proofs.Tree.Subtrees
import Docsite.Proofs.Walk.Step

/-!
# Docsite.Proofs.Pass.Symbols

What annotating the symbols leaves.

A symbol is replaced by its span, which the walk steps over, so the lists keep their lengths
and what comes out is said node by node (`annotated`).
-/

namespace Docsite.Pass

open Document Docsite.Tree

/-! ## the annotated document -/

/-- A leaf, or the span that stands for it. -/
def annotatedLeaf (tables : Tables) (l : Leaf) : Node :=
  match symbolLabel? tables (.leaf l) with
  | some label => symbolSpan label (Node.textContent (.leaf l))
  | none => .leaf l

mutual

/-- A node with the symbols in it annotated. -/
def annotated (tables : Tables) : Node → Node
  | .leaf l => annotatedLeaf tables l
  | .branch b kids => .branch b (annotatedAll tables kids)

/-- Nodes with the symbols in them annotated. -/
def annotatedAll (tables : Tables) : List Node → List Node
  | [] => []
  | n :: ns => annotated tables n :: annotatedAll tables ns

end

theorem annotatedAll_eq_map (tables : Tables) (ns : List Node) :
    annotatedAll tables ns = ns.map (annotated tables) := by
  induction ns with
  | nil => rfl
  | cons n ns ih => rw [annotatedAll, ih, List.map_cons]

mutual

/-- Annotating a node annotates each of its subtrees. -/
theorem subtrees_annotated (tables : Tables) : (n : Node) →
    subtrees (annotated tables n) = (subtrees n).map (annotated tables)
  | .leaf l => by
    rw [annotated, annotatedLeaf, subtrees, List.map_singleton, annotated, annotatedLeaf]
    split <;> rfl
  | .branch b kids => by
    rw [annotated, subtrees, subtrees, subtreesAll_annotatedAll tables kids, List.map_cons,
      annotated]

theorem subtreesAll_annotatedAll (tables : Tables) : (ns : List Node) →
    subtreesAll (annotatedAll tables ns) = (subtreesAll ns).map (annotated tables)
  | [] => rfl
  | n :: ns => by
    rw [annotatedAll, subtreesAll, subtreesAll, subtrees_annotated tables n,
      subtreesAll_annotatedAll tables ns, List.map_append]

end

/-- An annotated node is no symbol. -/
theorem symbolLabel?_annotated (tables : Tables) (n : Node) :
    symbolLabel? tables (annotated tables n) = none := by
  cases n with
  | branch b kids => rfl
  | leaf l =>
    rw [annotated, annotatedLeaf]
    split
    · rfl
    · assumption

mutual

/-- Without symbols in it a node stays as it is. -/
theorem annotated_of_symbolFree (tables : Tables) : (n : Node) →
    (∀ m ∈ subtrees n, symbolLabel? tables m = none) → annotated tables n = n
  | .leaf l, free => by
    rw [annotated, annotatedLeaf, free _ (mem_subtrees_self _)]
  | .branch b kids, free => by
    rw [subtrees, List.forall_mem_cons] at free
    rw [annotated, annotatedAll_of_symbolFree tables kids free.2]

theorem annotatedAll_of_symbolFree (tables : Tables) : (ns : List Node) →
    (∀ m ∈ subtreesAll ns, symbolLabel? tables m = none) → annotatedAll tables ns = ns
  | [], _ => rfl
  | n :: ns, free => by
    rw [subtreesAll, List.forall_mem_append] at free
    rw [annotatedAll, annotated_of_symbolFree tables n free.1,
      annotatedAll_of_symbolFree tables ns free.2]

end

/-- In an annotated node no symbol is left. -/
theorem symbolFree_annotated (tables : Tables) (n : Node) :
    ∀ m ∈ subtrees (annotated tables n), symbolLabel? tables m = none := by
  rw [subtrees_annotated, List.forall_mem_map]
  exact fun m _ => symbolLabel?_annotated tables m

/-- A run of text is a symbol as a whole or stays as it is. -/
theorem annotated_text (tables : Tables) (content : String) :
    annotated tables (Node.text content) =
      match tables.symbolLabels.lookup content with
      | some label => symbolSpan label content
      | none => Node.text content := by
  rw [annotated, annotatedLeaf, symbolLabel?]
  rfl

/-- Every other node keeps its label, and its children stay in their places. -/
theorem annotated_other (tables : Tables) {n : Node} (other : Node.kind n ≠ .text) :
    annotated tables n = n.withChildren (n.children.map (annotated tables)) := by
  cases n with
  | leaf l =>
    cases l with
    | text content => exact absurd rfl other
    | _ => rfl
  | branch b kids => rw [annotated, annotatedAll_eq_map, withChildren_branch, children_branch]

/-! ## the walk -/

/-- The visitor of the pass. -/
abbrev symbolVisitor (tables : Tables) : Visitor Nat Empty :=
  Visitor.only (isSymbol tables) (visitSymbol tables)

section

variable {tables : Tables} {fuel : Nat}

/-- Past a leaf the walk leaves its span or the leaf itself. -/
theorem walkFrom_annotatedLeaf (l : Leaf) (before after : List Node) (b : Branch)
    (count : Nat) :
    ∃ total, walkFrom (symbolVisitor tables) (fuel + 1) count b (before ++ .leaf l :: after)
        before.length =
      walkFrom (symbolVisitor tables) fuel total b ((before ++ [annotatedLeaf tables l]) ++ after)
        (before ++ [annotatedLeaf tables l]).length := by
  cases labelled : symbolLabel? tables (.leaf l) with
  | none =>
    have other : isSymbol tables (.leaf l) = false := by simp [isSymbol, labelled]
    refine ⟨count, ?_⟩
    rw [walkFrom_unseen fuel other rfl, annotatedLeaf, labelled]
  | some label =>
    have symbol : isSymbol tables (.leaf l) = true := by simp [isSymbol, labelled]
    have reply : symbolVisitor tables count (.leaf l) (some (.between b before after)) =
        ⟨count + 1, .leaf l, (Spot.between b before after).replacing
          [symbolSpan label (Node.textContent (.leaf l))], .proceed⟩ := by
      rw [symbolVisitor, Visitor.only_of_true symbol]
      simp [visitSymbol, labelled, Spot.replacing]
    refine ⟨count + 1, ?_⟩
    rw [walkFrom_replace fuel (.inl rfl) reply, annotatedLeaf, labelled]

end

mutual

/-- Past a node the walk leaves it annotated. -/
theorem walkFrom_annotated (tables : Tables) : (n : Node) → (before after : List Node) →
    (b : Branch) → (fuel count : Nat) → n.size ≤ fuel →
    ∃ total, walkFrom (symbolVisitor tables) (fuel + 1) count b (before ++ n :: after)
        before.length =
      walkFrom (symbolVisitor tables) fuel total b ((before ++ [annotated tables n]) ++ after)
        (before ++ [annotated tables n]).length
  | .leaf l, before, after, b, fuel, count, _ => by
    rw [annotated]
    exact walkFrom_annotatedLeaf l before after b count
  | .branch c kids, before, after, b, fuel, count, enough => by
    simp only [Tree.size] at enough
    obtain ⟨total, walked⟩ := walkFrom_annotatedAll tables kids [] c fuel count enough
    have below : walkBelow (symbolVisitor tables) fuel count (.branch c kids) =
        ⟨total, .branch c (annotatedAll tables kids), .finished⟩ := by
      simp only [List.nil_append, List.length_nil] at walked
      rw [walkBelow, walked]
    refine ⟨total, ?_⟩
    rw [walkFrom_unseen fuel rfl below, annotated]

/-- Past siblings the walk leaves them annotated. -/
theorem walkFrom_annotatedAll (tables : Tables) : (ns before : List Node) → (b : Branch) →
    (fuel count : Nat) → sizeAll ns + 1 ≤ fuel →
    ∃ total, walkFrom (symbolVisitor tables) fuel count b (before ++ ns) before.length =
      ⟨total, before ++ annotatedAll tables ns, .finished⟩
  | [], before, b, fuel + 1, count, _ => by
    refine ⟨count, ?_⟩
    rw [annotatedAll, List.append_nil, walkFrom_end]
  | n :: ns, before, b, fuel + 1, count, enough => by
    simp only [sizeAll] at enough
    have positive := n.size_pos
    obtain ⟨here, passed⟩ :=
      walkFrom_annotated tables n before ns b fuel count (by omega)
    obtain ⟨total, walked⟩ :=
      walkFrom_annotatedAll tables ns (before ++ [annotated tables n]) b fuel here (by omega)
    refine ⟨total, ?_⟩
    rw [passed, walked, annotatedAll, List.append_assoc, List.singleton_append]

end

/-! ## the pass -/

/-- The walk of the pass comes to its end, and what it leaves are the annotated blocks. -/
theorem walk_symbols (tables : Tables) (blocks : List Node) (more : Nat) :
    ∃ total, (Node.document blocks).walk (symbolVisitor tables)
        (enoughSteps (.document blocks) + more) 0 =
      ⟨total, Node.document (annotatedAll tables blocks), .finished⟩ := by
  have root : symbolVisitor tables 0 (Node.document blocks) none =
      ⟨0, Node.document blocks, [], .proceed⟩ := rfl
  have enough : sizeAll blocks + 1 ≤ enoughSteps (.document blocks) + more := by
    simp only [enoughSteps, Tree.size]
    omega
  obtain ⟨total, walked⟩ := walkFrom_annotatedAll tables blocks [] .root _ 0 enough
  simp only [List.nil_append, List.length_nil] at walked
  exact ⟨total, by rw [walk_proceed _ root, walkBelow, walked]⟩

theorem annotateSymbols_left (tables : Tables) (blocks : List Node) :
    ((annotateSymbols tables).run (.document blocks)).left =
      .document (annotatedAll tables blocks) := by
  obtain ⟨total, walked⟩ := walk_symbols tables blocks 0
  rw [Nat.add_zero] at walked
  rw [annotateSymbols, ← symbolVisitor]
  simp only
  rw [walked]

/-- **Every symbol of every document gets its title, and nothing else changes**: the pass comes to
its end however many steps it may spend beyond those it has, and leaves the document node by node
with a span for each run of text that is a symbol.  Every other node is as it was, and every list
of children has its members in their places, however many symbols stand side by side or at its
end.  No symbol is left, so the pass changes nothing when it runs again. -/
theorem annotateSymbols_document (tables : Tables) (blocks : List Node) :
    (∀ more, ((Node.document blocks).walk (Visitor.only (isSymbol tables) (visitSymbol tables))
        (enoughSteps (.document blocks) + more) 0).ending = .finished) ∧
    ((annotateSymbols tables).run (.document blocks)).answer = .document ∧
    ((annotateSymbols tables).run (.document blocks)).left =
      annotated tables (.document blocks) ∧
    (∀ content, annotated tables (Node.text content) =
      match tables.symbolLabels.lookup content with
      | some label => symbolSpan label content
      | none => Node.text content) ∧
    (∀ n, Node.kind n ≠ .text →
      annotated tables n = n.withChildren (n.children.map (annotated tables))) ∧
    (∀ n ∈ (annotated tables (.document blocks)).subtrees, symbolLabel? tables n = none) ∧
    ((annotateSymbols tables).run (annotated tables (.document blocks))).left =
      annotated tables (.document blocks) := by
  have left (blocks : List Node) : ((annotateSymbols tables).run (.document blocks)).left =
      annotated tables (.document blocks) := by rw [annotateSymbols_left, annotated]
  refine ⟨fun more => ?_, ?_, left blocks, annotated_text tables, fun n => annotated_other tables,
    symbolFree_annotated tables _, ?_⟩
  · obtain ⟨total, walked⟩ := walk_symbols tables blocks more
    rw [← symbolVisitor, walked]
  · change answerWith ((annotateSymbols tables).run (.document blocks)).left = .document
    rw [annotateSymbols_left]
    rfl
  · have free := symbolFree_annotated tables (.document blocks)
    rw [annotated] at free ⊢
    rw [left, annotated_of_symbolFree tables _ free]

example : annotatedAll { symbolLabels := [("+", "Fixed & \"kept\"")] }
    [Node.paragraph [Node.text "+", Node.text "+"], Node.text "++", Node.text "+"] =
    [Node.paragraph [symbolSpan "Fixed & \"kept\"" "+", symbolSpan "Fixed & \"kept\"" "+"],
      Node.text "++", .leaf (.htmlInline "<span title=\"Fixed &amp; &quot;kept&quot;\">+</span>")] := by
  decide +kernel

end Docsite.Pass
