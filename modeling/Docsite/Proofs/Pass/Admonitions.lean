import Docsite.Pass.Admonitions
import Docsite.Proofs.Document.Shape
import Docsite.Proofs.Walk.Step

/-!
# Docsite.Proofs.Pass.Admonitions

What converting the labelled quotes leaves.

The pass puts the blocks of a quote among the siblings of the quote and walks on through
them, so the list grows while it is walked through.  `converted` says what comes out by
recursion on the node as it was: a labelled quote stands for several nodes, every other node
for itself with its children converted.  The walk is followed with whatever comes behind the
nodes at hand (`rest` below), because the blocks of a quote are followed by what followed
the quote.
-/

namespace Docsite.Pass

open Document Docsite.Tree

/-! ## the converted document -/

mutual

/-- The nodes that stand for a node when its labelled quotes are converted. -/
def converted (tables : Tables) : Node → List Node
  | .leaf l => [.leaf l]
  | .branch b [] => [.branch b []]
  | .branch b (kid :: blocks) =>
    match labelledQuote? tables (.branch b (kid :: blocks)) with
    | some (kind, label, rest, _) => admonition kind label rest (convertedAll tables blocks)
    | none => [.branch b (converted tables kid ++ convertedAll tables blocks)]

/-- The nodes that stand for several nodes. -/
def convertedAll (tables : Tables) : List Node → List Node
  | [] => []
  | n :: ns => converted tables n ++ convertedAll tables ns

end

/-- What holds of the parts of an admonition and below them, holds everywhere in it. -/
theorem forall_admonition {P : Node → Prop} {kind label : String} {rest blocks : List Node}
    (fence : ∀ content, P (Node.paragraph [.text content]) ∧ P (Node.text content))
    (body : ∀ m ∈ subtrees (Node.paragraph (trimFirst rest)), P m)
    (inside : ∀ m ∈ subtreesAll blocks, P m) :
    ∀ m ∈ subtreesAll (admonition kind label rest blocks), P m := by
  rw [admonition, List.cons_append, List.cons_append, subtreesAll, subtreesAll,
    subtreesAll_append, List.forall_mem_append, List.forall_mem_append, List.forall_mem_append]
  refine ⟨?_, body, inside, ?_⟩
  all_goals
    simp only [openingFence, closingFence, subtreesAll, subtrees, List.append_nil,
      List.forall_mem_cons, List.not_mem_nil, false_implies, implies_true, and_true]
    exact fence _

section

variable {tables : Tables}

theorem convertedAll_append (ns ms : List Node) :
    convertedAll tables (ns ++ ms) = convertedAll tables ns ++ convertedAll tables ms := by
  induction ns with
  | nil => rfl
  | cons n ns ih => rw [List.cons_append, convertedAll, convertedAll, ih, List.append_assoc]

/-- A labelled quote begins with a paragraph that begins with a strong run, and the text at
the start of the run is in the tables. -/
theorem labelledQuote?_eq_some_iff {n : Node} {kind label : String} {rest blocks : List Node} :
    labelledQuote? tables n = some (kind, label, rest, blocks) ↔
      ∃ run, n = .branch .quote (Node.paragraph (.branch .strong run :: rest) :: blocks) ∧
        label = Node.textAt run 0 ∧ tables.admonitionKinds.lookup label = some kind := by
  constructor
  · intro labelled
    unfold labelledQuote? at labelled
    split at labelled
    · next run rest' blocks' =>
      simp only [Option.map_eq_some_iff, Prod.mk.injEq] at labelled
      obtain ⟨kind', found, rfl, rfl, rfl, rfl⟩ := labelled
      exact ⟨run, rfl, rfl, found⟩
    · contradiction
  · rintro ⟨run, rfl, rfl, found⟩
    simp [labelledQuote?, found]

theorem labelledQuote?_of_not_isQuote {n : Node} (h : isQuote n = false) :
    labelledQuote? tables n = none := by
  cases labelled : labelledQuote? tables n with
  | none => rfl
  | some found =>
    obtain ⟨run, rfl, -⟩ := labelledQuote?_eq_some_iff.mp labelled
    contradiction

/-- Whether a node is a labelled quote, its first child alone decides. -/
theorem labelledQuote?_cons_eq_none {b : Branch} {kid : Node} {blocks : List Node}
    (h : labelledQuote? tables (.branch b (kid :: blocks)) = none) (blocks' : List Node) :
    labelledQuote? tables (.branch b (kid :: blocks')) = none := by
  cases labelled : labelledQuote? tables (.branch b (kid :: blocks')) with
  | none => rfl
  | some found =>
    obtain ⟨kind, label, rest, _⟩ := found
    obtain ⟨run, same, named, found⟩ := labelledQuote?_eq_some_iff.mp labelled
    cases same
    rw [labelledQuote?_eq_some_iff.mpr ⟨run, rfl, named, found⟩] at h
    contradiction

theorem converted_of_labelled {n : Node} {kind label : String} {rest blocks : List Node}
    (h : labelledQuote? tables n = some (kind, label, rest, blocks)) :
    converted tables n = admonition kind label rest (convertedAll tables blocks) := by
  obtain ⟨run, rfl, -⟩ := labelledQuote?_eq_some_iff.mp h
  simp only [converted, h]

theorem converted_of_not_labelled {b : Branch} {kids : List Node}
    (h : labelledQuote? tables (.branch b kids) = none) :
    converted tables (.branch b kids) = [.branch b (convertedAll tables kids)] := by
  cases kids with
  | nil => rfl
  | cons kid blocks => simp only [converted, h, convertedAll]

end

/-! ## the walk -/

/-- The visitor of the pass. -/
abbrev quoteVisitor (tables : Tables) : Visitor Nat Empty :=
  Visitor.only isQuote (visitQuote tables)

section

variable {tables : Tables}

/-- A labelled quote is replaced, and the walk goes on with its other blocks. -/
theorem quoteVisitor_labelled {n : Node} {kind label : String} {rest blocks : List Node}
    (h : labelledQuote? tables n = some (kind, label, rest, blocks)) (count : Nat) (b : Branch)
    (before after : List Node) :
    quoteVisitor tables count n (some (.between b before after)) =
      ⟨count + 1, n, (Spot.between b before after).replacing
        ([openingFence kind label, .paragraph (trimFirst rest)] ++ (blocks ++ [closingFence])),
        .resumeAt (before ++ [openingFence kind label, .paragraph (trimFirst rest)]).length⟩ := by
  have quote : isQuote n = true := by
    obtain ⟨run, rfl, -⟩ := labelledQuote?_eq_some_iff.mp h
    rfl
  rw [quoteVisitor, Visitor.only_of_true quote]
  simp [visitQuote, h, Spot.replacing, admonition, Spot.between]

/-- Every other node is left to the walk. -/
theorem quoteVisitor_other {n : Node} (h : labelledQuote? tables n = none) (count : Nat)
    (b : Branch) (before after : List Node) :
    quoteVisitor tables count n (some (.between b before after)) =
      ⟨count, n, (Spot.between b before after).keeping after, .proceed⟩ := by
  cases quote : isQuote n with
  | false => exact Visitor.only_of_false quote
  | true =>
    rw [quoteVisitor, Visitor.only_of_true quote]
    simp [visitQuote, h, family, Spot.family_eq_keeping]

/-- In the fence that ends an admonition there is nothing to convert. -/
theorem walkBelow_closingFence (tables : Tables) (fuel count : Nat) :
    walkBelow (quoteVisitor tables) (fuel + 2) count closingFence =
      ⟨count, closingFence, .finished⟩ := rfl

end

mutual

/-- Past a node the walk leaves what the node is converted to, whatever comes behind. -/
theorem walkFrom_converted (tables : Tables) : (n : Node) → (before rest : List Node) →
    (b : Branch) → (fuel count : Nat) → n.size + 1 ≤ fuel →
    ∃ left total, fuel ≤ left + n.size ∧
      walkFrom (quoteVisitor tables) fuel count b (before ++ n :: rest) before.length =
        walkFrom (quoteVisitor tables) left total b ((before ++ converted tables n) ++ rest)
          (before ++ converted tables n).length
  | .leaf l, before, rest, b, fuel + 1, count, _ =>
    ⟨fuel, count, by simp only [Tree.size]; omega,
      walkFrom_proceed fuel (quoteVisitor_other rfl count b before rest) rfl⟩
  | .branch c [], before, rest, b, fuel + 2, count, _ => by
    have other : labelledQuote? tables (.branch c []) = none := by
      cases c <;> rfl
    refine ⟨fuel + 1, count, by simp only [Tree.size]; omega, ?_⟩
    exact walkFrom_proceed (fuel + 1) (quoteVisitor_other other count b before rest) rfl
  | .branch c (kid :: blocks), before, rest, b, fuel + 1, count, enough => by
    simp only [Tree.size, sizeAll] at enough ⊢
    cases labelled : labelledQuote? tables (.branch c (kid :: blocks)) with
    | some found =>
      obtain ⟨kind, label, inline, _⟩ := found
      obtain ⟨run, same, -⟩ := labelledQuote?_eq_some_iff.mp labelled
      cases same
      simp only [Tree.size, sizeAll] at enough ⊢
      have positive := (Tree.branch Branch.strong run).size_pos
      rw [walkFrom_resume fuel (quoteVisitor_labelled labelled count b before rest),
        converted_of_labelled labelled]
      -- The blocks of the quote stand before the fence that ends it.
      obtain ⟨left, total, spent, walked⟩ := walkFrom_convertedAll tables blocks
        (before ++ [openingFence kind label, .paragraph (trimFirst inline)])
        (closingFence :: rest) b fuel (count + 1) (by omega)
      obtain ⟨left, rfl⟩ := Nat.exists_eq_add_of_le' (show 3 ≤ left by omega)
      refine ⟨left + 2, total, by omega, ?_⟩
      rw [List.append_assoc blocks, List.singleton_append, walked,
        walkFrom_proceed (left + 2) (quoteVisitor_other rfl total _ _ _)
          (walkBelow_closingFence tables left total)]
      simp only [admonition, List.append_assoc, List.cons_append, List.nil_append]
    | none =>
      obtain ⟨left, total, spent, walked⟩ :=
        walkFrom_convertedAll tables (kid :: blocks) [] [] c fuel count
          (by simp only [sizeAll]; omega)
      simp only [sizeAll] at spent
      obtain ⟨left, rfl⟩ := Nat.exists_eq_add_of_le' (show 1 ≤ left by omega)
      simp only [List.nil_append, List.append_nil, List.length_nil] at walked
      rw [walkFrom_end] at walked
      have below : walkBelow (quoteVisitor tables) fuel count (.branch c (kid :: blocks)) =
          ⟨total, .branch c (convertedAll tables (kid :: blocks)), .finished⟩ := by
        rw [walkBelow, walked]
      refine ⟨fuel, total, by omega, ?_⟩
      rw [walkFrom_proceed fuel (quoteVisitor_other labelled count b before rest) below,
        converted_of_not_labelled labelled]

/-- Past several nodes the walk leaves what they are converted to. -/
theorem walkFrom_convertedAll (tables : Tables) : (ns before rest : List Node) →
    (b : Branch) → (fuel count : Nat) → sizeAll ns + 1 ≤ fuel →
    ∃ left total, fuel ≤ left + sizeAll ns ∧
      walkFrom (quoteVisitor tables) fuel count b (before ++ (ns ++ rest)) before.length =
        walkFrom (quoteVisitor tables) left total b
          ((before ++ convertedAll tables ns) ++ rest) (before ++ convertedAll tables ns).length
  | [], before, rest, b, fuel, count, _ =>
    ⟨fuel, count, by omega, by simp only [convertedAll, List.append_nil, List.nil_append]⟩
  | n :: ns, before, rest, b, fuel, count, enough => by
    simp only [sizeAll] at enough ⊢
    obtain ⟨left, total, spent, here⟩ :=
      walkFrom_converted tables n before (ns ++ rest) b fuel count (by omega)
    obtain ⟨left', total', spent', there⟩ := walkFrom_convertedAll tables ns
      (before ++ converted tables n) rest b left total (by omega)
    refine ⟨left', total', by omega, ?_⟩
    rw [List.cons_append, here, there]
    simp only [convertedAll, List.append_assoc]

end

/-! ## what is left to convert -/

/-- Is there no labelled quote among some nodes and below them? -/
def LabelFree (tables : Tables) (ns : List Node) : Prop :=
  ∀ m ∈ subtreesAll ns, labelledQuote? tables m = none

section

variable {tables : Tables}

theorem labelFree_append {ns ms : List Node} :
    LabelFree tables (ns ++ ms) ↔ LabelFree tables ns ∧ LabelFree tables ms := by
  simp only [LabelFree, subtreesAll_append, List.forall_mem_append]

theorem labelFree_cons {n : Node} {ns : List Node} :
    LabelFree tables (n :: ns) ↔ LabelFree tables [n] ∧ LabelFree tables ns := by
  rw [← labelFree_append, List.singleton_append]

theorem labelFree_branch {b : Branch} {kids : List Node} :
    LabelFree tables [.branch b kids] ↔
      labelledQuote? tables (.branch b kids) = none ∧ LabelFree tables kids := by
  simp only [LabelFree, subtreesAll, subtrees, List.append_nil, List.forall_mem_cons]

theorem labelFree_leaf (l : Leaf) : LabelFree tables [.leaf l] := by
  simp [LabelFree, subtreesAll, subtrees, labelledQuote?]

/-- Where there is no quote at all, there is no labelled one. -/
theorem labelFree_of_no_quote {ns : List Node} (h : ∀ m ∈ subtreesAll ns, Node.kind m ≠ .quote) :
    LabelFree tables ns := by
  intro m mem
  apply labelledQuote?_of_not_isQuote
  cases quote : isQuote m with
  | false => rfl
  | true =>
    unfold isQuote at quote
    split at quote
    · exact absurd rfl (h _ mem)
    · contradiction

end

mutual

/-- A node without labelled quotes stands for itself. -/
theorem converted_of_labelFree (tables : Tables) : (n : Node) → LabelFree tables [n] →
    converted tables n = [n]
  | .leaf l, _ => by simp only [converted]
  | .branch b kids, h => by
    rw [labelFree_branch] at h
    rw [converted_of_not_labelled h.1, convertedAll_of_labelFree tables kids h.2]

/-- Nodes without labelled quotes stand for themselves. -/
theorem convertedAll_of_labelFree (tables : Tables) : (ns : List Node) → LabelFree tables ns →
    convertedAll tables ns = ns
  | [], _ => by simp only [convertedAll]
  | n :: ns, h => by
    rw [labelFree_cons] at h
    rw [convertedAll, converted_of_labelFree tables n h.1,
      convertedAll_of_labelFree tables ns h.2, List.singleton_append]

end

section

variable {tables : Tables}

/-- A quote that is not labelled does not become so when its children are converted. -/
theorem labelledQuote?_converted {b : Branch} {kids : List Node}
    (h : labelledQuote? tables (.branch b kids) = none) (free : Node.QuoteFreeInlines kids) :
    labelledQuote? tables (.branch b (convertedAll tables kids)) = none := by
  cases kids with
  | nil => exact h
  | cons kid blocks =>
    rw [convertedAll]
    cases labelled : labelledQuote? tables kid with
    | some found =>
      -- The first child is now the fence of an admonition, which holds text alone.
      obtain ⟨kind, label, rest, inner⟩ := found
      rw [converted_of_labelled labelled]
      cases b <;> rfl
    | none =>
      cases kid with
      | leaf l => exact labelledQuote?_cons_eq_none h _
      | branch c inner =>
        rw [converted_of_not_labelled labelled]
        cases holds : c.holdsInlines with
        | true =>
          have same : convertedAll tables inner = inner :=
            convertedAll_of_labelFree tables inner (labelFree_of_no_quote
              (free c inner (by simp [subtreesAll, subtrees]) holds))
          rw [same]
          exact labelledQuote?_cons_eq_none h _
        | false =>
          cases c <;> first
            | (cases b <;> rfl)
            | contradiction

theorem labelFree_trimFirst {ns : List Node} (h : LabelFree tables ns) :
    LabelFree tables (trimFirst ns) := by
  cases ns with
  | nil => exact h
  | cons n ns =>
    rw [labelFree_cons] at h
    rw [trimFirst, labelFree_cons]
    refine ⟨?_, h.2⟩
    unfold trimNode
    split
    all_goals first
      | exact labelFree_leaf _
      | exact h.1

/-- The parts of an admonition hold no labelled quote if those of the quote held none. -/
theorem labelFree_admonition {kind label : String} {rest blocks : List Node}
    (inline : LabelFree tables rest) (others : LabelFree tables blocks) :
    LabelFree tables (admonition kind label rest blocks) := by
  have fence (content : String) : LabelFree tables [Node.paragraph [.text content]] :=
    labelFree_branch.mpr ⟨rfl, labelFree_leaf _⟩
  have body : LabelFree tables [Node.paragraph (trimFirst rest)] :=
    labelFree_branch.mpr ⟨rfl, labelFree_trimFirst inline⟩
  rw [admonition, labelFree_append]
  exact ⟨labelFree_cons.mpr ⟨fence _, labelFree_cons.mpr ⟨body, others⟩⟩, fence _⟩

end

mutual

/-- What a node is converted to holds no labelled quote. -/
theorem labelFree_converted (tables : Tables) : (n : Node) → Node.QuoteFreeInlines [n] →
    LabelFree tables (converted tables n)
  | .leaf l, _ => labelFree_leaf l
  | .branch b [], _ => by
    rw [converted, labelFree_branch]
    exact ⟨by cases b <;> rfl, by simp [LabelFree, subtreesAll]⟩
  | .branch b (kid :: blocks), free => by
    have kids : Node.QuoteFreeInlines (kid :: blocks) :=
      free.mono (by simp [subtreesAll, subtrees])
    cases labelled : labelledQuote? tables (.branch b (kid :: blocks)) with
    | some found =>
      obtain ⟨kind, label, rest, _⟩ := found
      obtain ⟨run, same, -⟩ := labelledQuote?_eq_some_iff.mp labelled
      cases same
      have inline : LabelFree tables rest := by
        apply labelFree_of_no_quote
        intro m mem
        exact free .paragraph (.branch .strong run :: rest) (by simp [subtreesAll, subtrees]) rfl m
          (by simp [subtreesAll, mem])
      rw [converted_of_labelled labelled]
      exact labelFree_admonition inline
        (labelFree_convertedAll tables blocks (kids.mono (by simp [subtreesAll])))
    | none =>
      rw [converted_of_not_labelled labelled, labelFree_branch]
      exact ⟨labelledQuote?_converted labelled kids, labelFree_convertedAll tables _ kids⟩

/-- What several nodes are converted to holds no labelled quote. -/
theorem labelFree_convertedAll (tables : Tables) : (ns : List Node) →
    Node.QuoteFreeInlines ns → LabelFree tables (convertedAll tables ns)
  | [], _ => by simp [convertedAll, LabelFree, subtreesAll]
  | n :: ns, free => by
    rw [convertedAll, labelFree_append]
    exact ⟨labelFree_converted tables n (free.mono (by simp [subtreesAll])),
      labelFree_convertedAll tables ns (free.mono (by simp [subtreesAll]))⟩

end

/-! ## the pass -/

/-- The walk of the pass comes to its end, and what it leaves are the converted blocks. -/
theorem walk_quotes (tables : Tables) (blocks : List Node) (more : Nat) :
    ∃ total, (Node.document blocks).walk (quoteVisitor tables)
        (enoughSteps (.document blocks) + more) 0 =
      ⟨total, Node.document (convertedAll tables blocks), .finished⟩ := by
  obtain ⟨left, total, spent, walked⟩ := walkFrom_convertedAll tables blocks [] [] .root
    (enoughSteps (.document blocks) + more) 0 (by simp only [enoughSteps, Tree.size]; omega)
  obtain ⟨left, rfl⟩ := Nat.exists_eq_add_of_le' (show 1 ≤ left by
    simp only [enoughSteps, Tree.size] at spent
    omega)
  simp only [List.nil_append, List.append_nil, List.length_nil] at walked
  rw [walkFrom_end] at walked
  have root : quoteVisitor tables 0 (Node.document blocks) none =
      ⟨0, Node.document blocks, [], .proceed⟩ := rfl
  exact ⟨total, by rw [walk_proceed _ root, walkBelow, walked]⟩

theorem convertAdmonitions_left (tables : Tables) (blocks : List Node) :
    ((convertAdmonitions tables).run (.document blocks)).left =
      .document (convertedAll tables blocks) := by
  obtain ⟨total, walked⟩ := walk_quotes tables blocks 0
  rw [Nat.add_zero] at walked
  rw [convertAdmonitions, ← quoteVisitor]
  simp only
  rw [walked]

/-- **The labelled quotes of every document become admonitions**: the pass comes to its end
however many steps it may spend beyond those it has, and leaves what the blocks are converted
to.  If no quote stands among inline nodes, no labelled quote is left anywhere and the pass
changes nothing when it runs again. -/
theorem convertAdmonitions_document (tables : Tables) (blocks : List Node) :
    (∀ more, ((Node.document blocks).walk (Visitor.only isQuote (visitQuote tables))
        (enoughSteps (.document blocks) + more) 0).ending = .finished) ∧
    ((convertAdmonitions tables).run (.document blocks)).answer = .document ∧
    ((convertAdmonitions tables).run (.document blocks)).left =
      .document (convertedAll tables blocks) ∧
    (Node.QuoteFreeInlines blocks →
      (∀ n ∈ (Node.document (convertedAll tables blocks)).subtrees,
        labelledQuote? tables n = none) ∧
      ((convertAdmonitions tables).run (.document (convertedAll tables blocks))).left =
        .document (convertedAll tables blocks)) := by
  refine ⟨fun more => ?_, ?_, convertAdmonitions_left tables blocks, fun free => ⟨?_, ?_⟩⟩
  · obtain ⟨total, walked⟩ := walk_quotes tables blocks more
    rw [← quoteVisitor, walked]
  · change answerWith ((convertAdmonitions tables).run (.document blocks)).left = .document
    rw [convertAdmonitions_left]
    rfl
  · intro n mem
    rw [subtrees, List.mem_cons] at mem
    rcases mem with rfl | mem
    · rfl
    · exact labelFree_convertedAll tables blocks free n mem
  · rw [convertAdmonitions_left, convertedAll_of_labelFree tables _
      (labelFree_convertedAll tables blocks free)]

example : convertedAll { admonitionKinds := [("Note", "note")] }
    [.branch .quote [Node.paragraph [.branch .strong [Node.text "Note"], Node.text " well"],
      .branch .quote [Node.paragraph [.branch .strong [Node.text "Note"]]]]] =
    [openingFence "note" "Note", Node.paragraph [Node.text "well"], openingFence "note" "Note",
      Node.paragraph [], closingFence, closingFence] := by
  decide

/-- A strong run without text at its start counts as labelled by the empty text: where the
tables have a kind for that, a quote with such a run is replaced.  And what follows the label
in its paragraph is not walked through, so a labelled quote in a list that stands there is
left, though no list of inline nodes holds a quote itself. -/
theorem convertAdmonitions_unlabelled :
    (∀ content inside rest blocks,
      (.branch .quote [Node.paragraph [.branch .strong []]] : Node) ≠
        .branch .quote
          (Node.paragraph (.branch .strong (Node.text content :: inside) :: rest) :: blocks)) ∧
    ((convertAdmonitions { admonitionKinds := [("", "note")] }).run
        (.document [.branch .quote [Node.paragraph [.branch .strong []]]])).left ≠
      .document [.branch .quote [Node.paragraph [.branch .strong []]]] ∧
    .branch .quote [Node.paragraph [.branch .strong [Node.text "Note"]]] ∈
      ((convertAdmonitions { admonitionKinds := [("Note", "note")] }).run
        (.document [.branch .quote [Node.paragraph [.branch .strong [Node.text "Note"],
          .branch (.list false 1 true) [.branch (.item none) [.branch .quote
            [Node.paragraph [.branch .strong [Node.text "Note"]]]]]]]])).left.subtrees := by
  refine ⟨fun content inside rest blocks same => ?_, by decide, by decide⟩
  cases same

end Docsite.Pass
