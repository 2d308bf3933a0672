import Docsite.Markdown.Tokenize
import Docsite.Proofs.Document.OfTokens
import Docsite.Proofs.Pass.Admonitions

/-!
# Docsite.Proofs.Pass.Contents

What an admonition keeps of the quote that it stands for.

The strong run with the label goes as a whole, and the run behind it loses the white space that
it begins with; this happens to every labelled quote, also to one that stands in another.
`unlabelled` takes that away from a document and leaves its quotes where they are.  All leaves of
what remains are kept in their order, between the fences of the quotes that they stood in.
-/

namespace Docsite

namespace Tree

variable {L B : Type}

mutual

/-- What the leaves of a tree are labelled with, in order. -/
def leaves : Tree L B → List L
  | .leaf l => [l]
  | .branch _ kids => leavesAll kids

/-- What the leaves of several trees are labelled with, in order. -/
def leavesAll : List (Tree L B) → List L
  | [] => []
  | t :: ts => leaves t ++ leavesAll ts

end

theorem leavesAll_append (ts us : List (Tree L B)) :
    leavesAll (ts ++ us) = leavesAll ts ++ leavesAll us := by
  induction ts with
  | nil => rfl
  | cons t ts ih => rw [List.cons_append, leavesAll, leavesAll, ih, List.append_assoc]

end Tree

namespace Pass

open Document Docsite.Tree
open Markdown (Token)

/-! ## without the labels -/

mutual

/-- A node without the runs that its labelled quotes are labelled with, and without the white
space at the start of what follows them. -/
def unlabelled (tables : Tables) : Node → Node
  | .leaf l => .leaf l
  | .branch b [] => .branch b []
  | .branch b (kid :: blocks) =>
    match labelledQuote? tables (.branch b (kid :: blocks)) with
    | some (_, _, rest, _) =>
      .branch b (Node.paragraph (trimFirst rest) :: unlabelledAll tables blocks)
    | none => .branch b (unlabelled tables kid :: unlabelledAll tables blocks)

/-- Nodes without the runs that their labelled quotes are labelled with. -/
def unlabelledAll (tables : Tables) : List Node → List Node
  | [] => []
  | n :: ns => unlabelled tables n :: unlabelledAll tables ns

end

mutual

/-- What a node is converted to has the leaves of the node without labels, in their order. -/
theorem leaves_unlabelled (tables : Tables) : (n : Node) →
    (unlabelled tables n).leaves.Sublist (leavesAll (converted tables n))
  | .leaf l => List.Sublist.refl _
  | .branch b [] => List.Sublist.refl _
  | .branch b (kid :: blocks) => by
    have others := leavesAll_unlabelled tables blocks
    cases labelled : labelledQuote? tables (.branch b (kid :: blocks)) with
    | some found =>
      obtain ⟨kind, label, rest, _⟩ := found
      simp only [unlabelled, converted, labelled, admonition, List.cons_append, leaves, leavesAll,
        leavesAll_append, openingFence, List.append_nil]
      exact ((others.trans (List.sublist_append_left _ _)).append_left _).cons _
    | none =>
      simp only [unlabelled, converted, labelled, leaves, leavesAll, leavesAll_append,
        List.append_nil]
      exact (leaves_unlabelled tables kid).append others

theorem leavesAll_unlabelled (tables : Tables) : (ns : List Node) →
    (leavesAll (unlabelledAll tables ns)).Sublist (leavesAll (convertedAll tables ns))
  | [] => List.Sublist.refl _
  | n :: ns => by
    rw [unlabelledAll, convertedAll, leavesAll, leavesAll_append]
    exact (leaves_unlabelled tables n).append (leavesAll_unlabelled tables ns)

end

theorem unlabelled_of_labelled {tables : Tables} {n : Node} {kind label : String}
    {rest blocks : List Node} (h : labelledQuote? tables n = some (kind, label, rest, blocks)) :
    unlabelled tables n =
      .branch .quote (Node.paragraph (trimFirst rest) :: unlabelledAll tables blocks) := by
  obtain ⟨run, rfl, -⟩ := labelledQuote?_eq_some_iff.mp h
  simp only [unlabelled, h]

/-! ## where an admonition stands -/

/-- Do some nodes, or the children of a node below them, hold a run of nodes side by side? -/
def Holds (ns run : List Node) : Prop := ∃ m ∈ (Node.document ns).subtrees, run <:+: m.children

section

variable {ns ms run : List Node}

theorem Holds.sideBySide (within : run <:+: ns) : Holds ns run := ⟨_, mem_subtrees_self _, within⟩

theorem Holds.mono (h : Holds ns run) (within : ns <:+: ms) : Holds ms run := by
  obtain ⟨m, mem, held⟩ := h
  rw [subtrees, List.mem_cons] at mem
  rcases mem with rfl | below
  · exact .sideBySide (held.trans within)
  · obtain ⟨us, vs, rfl⟩ := within
    refine ⟨m, List.mem_cons_of_mem _ ?_, held⟩
    simp only [subtreesAll_append, List.mem_append, below, true_or, or_true]

theorem Holds.branch (h : Holds ns run) (b : Branch) : Holds [.branch b ns] run := by
  obtain ⟨m, mem, held⟩ := h
  rw [subtrees, List.mem_cons] at mem
  rcases mem with rfl | below
  · exact ⟨.branch b ns, List.mem_cons_of_mem _ List.mem_cons_self, held⟩
  · refine ⟨m, List.mem_cons_of_mem _ ?_, held⟩
    simp only [subtreesAll, subtrees, List.append_nil, List.mem_cons, below, or_true]

end

theorem infix_admonition (kind label : String) (rest blocks : List Node) :
    blocks <:+: admonition kind label rest blocks :=
  ⟨[openingFence kind label, .paragraph (trimFirst rest)], [closingFence], rfl⟩

section

variable {tables : Tables} {q : Node} {found : String × String × List Node × List Node}

mutual

/-- What a labelled quote is converted to stands side by side in what a node around it is
converted to. -/
theorem holds_converted (labelled : labelledQuote? tables q = some found) : (n : Node) →
    Node.QuoteFreeInlines [n] → q ∈ n.subtrees → Holds (converted tables n) (converted tables q)
  | .leaf l, _, mem => by
    rw [subtrees, List.mem_singleton] at mem
    rw [mem] at labelled
    contradiction
  | .branch b [], _, mem => by
    rw [subtrees, subtreesAll, List.mem_singleton] at mem
    exact mem ▸ .sideBySide List.infix_rfl
  | .branch b (kid :: blocks), free, mem => by
    rw [subtrees, List.mem_cons] at mem
    rcases mem with rfl | below
    · exact .sideBySide List.infix_rfl
    have inside : Node.QuoteFreeInlines (kid :: blocks) :=
      free.mono (by simp [subtreesAll, subtrees])
    cases around : labelledQuote? tables (.branch b (kid :: blocks)) with
    | none =>
      rw [converted_of_not_labelled around]
      exact (holds_convertedAll labelled (kid :: blocks) inside below).branch b
    | some found =>
      obtain ⟨kind, label, rest, _⟩ := found
      obtain ⟨run, same, -⟩ := labelledQuote?_eq_some_iff.mp around
      cases same
      rw [converted_of_labelled around]
      rw [subtreesAll, List.mem_append] at below
      rcases below with first | later
      · -- In the labelled paragraph no quote stands.
        have line : LabelFree tables [Node.paragraph (.branch .strong run :: rest)] :=
          labelFree_branch.mpr ⟨rfl, labelFree_of_no_quote
            (free .paragraph _ (by simp [subtreesAll, subtrees]) rfl)⟩
        rw [line q (by simpa [subtreesAll] using first)] at labelled
        contradiction
      · exact (holds_convertedAll labelled blocks
          (inside.mono (by simp [subtreesAll])) later).mono (infix_admonition _ _ _ _)

theorem holds_convertedAll (labelled : labelledQuote? tables q = some found) : (ns : List Node) →
    Node.QuoteFreeInlines ns → q ∈ subtreesAll ns →
    Holds (convertedAll tables ns) (converted tables q)
  | [], _, mem => by simp [subtreesAll] at mem
  | n :: ns, free, mem => by
    rw [convertedAll]
    rw [subtreesAll, List.mem_append] at mem
    rcases mem with here | later
    · exact (holds_converted labelled n (free.mono (by simp [subtreesAll])) here).mono
        (List.infix_append' [] _ _)
    · exact (holds_convertedAll labelled ns (free.mono (by simp [subtreesAll])) later).mono
        (List.suffix_append _ _).isInfix

end

end

/-! ## the pass -/

/-- **Admonitions keep what the quotes hold.**  Of every document of tokens the pass keeps all
leaves, in their order, but for those of the runs that the labelled quotes are labelled with; the
white space behind these runs aside, it keeps them as they are.  What every labelled quote holds
is kept between the two fences of its admonition, which stand among the children of one node. -/
theorem convertAdmonitions_contents (tables : Tables) (tokens : List Token) :
    let document := ofTokens tokens
    let left := ((convertAdmonitions tables).run document).left
    (unlabelled tables document).leaves.Sublist left.leaves ∧
    ∀ q ∈ document.subtrees, ∀ kind label rest blocks,
      labelledQuote? tables q = some (kind, label, rest, blocks) →
      ∃ m ∈ left.subtrees, ∃ between,
        openingFence kind label :: between ++ [closingFence] <:+: m.children ∧
        (unlabelled tables q).leaves.Sublist (leavesAll between) := by
  intro document left
  have converts : left = .document (convertedAll tables (blocks tokens)) :=
    convertAdmonitions_left tables (blocks tokens)
  rw [converts]
  constructor
  · have kept := leaves_unlabelled tables document
    rwa [show document = .document (blocks tokens) from rfl, converted_of_not_labelled rfl,
      leavesAll, leavesAll, List.append_nil] at kept
  · intro q mem kind label rest others labelled
    have below : q ∈ subtreesAll (blocks tokens) := by
      refine (List.mem_cons.mp mem).resolve_left fun root => ?_
      rw [root] at labelled
      contradiction
    obtain ⟨m, within, held⟩ := holds_convertedAll labelled (blocks tokens)
      (quoteFreeInlines_blocks tokens) below
    rw [converted_of_labelled labelled] at held
    refine ⟨m, within, Node.paragraph (trimFirst rest) :: convertedAll tables others, held, ?_⟩
    rw [unlabelled_of_labelled labelled, leaves, leavesAll, leavesAll]
    exact (leavesAll_unlabelled tables others).append_left _

/-- A warning that holds code, and a note with an image behind blank code: the labels alone are
gone. -/
theorem convertAdmonitions_contents_nested :
    let document := ofTokens (Markdown.tokenize {}
      "> **Warning** a `b`\n>\n> > **Note**` c`![d](e)\n>\n> **f**<i>")
    let note : Node := .branch .quote [Node.paragraph [.branch .strong [Node.text "Note"],
      .leaf (.inlineCode " c"), .leaf (.image "e" "d" none)]]
    let last := Node.paragraph [.branch .strong [Node.text "f"], .leaf (.htmlInline "<i>")]
    let warning : Node := .branch .quote [Node.paragraph [.branch .strong [Node.text "Warning"],
      Node.text " a ", .leaf (.inlineCode "b")], note, last]
    let left := ((convertAdmonitions {}).run document).left
    document = .document [warning] ∧
      ∃ m ∈ left.subtrees, ∃ between,
        openingFence "caution" "Warning" :: between ++ [closingFence] <:+: m.children ∧
        [Leaf.text "a ", .inlineCode "b", .inlineCode "c", .image "e" "d" none, .text "f",
          .htmlInline "<i>"].Sublist (leavesAll between) := by
  intro document note last warning left
  have parsed : document = .document [warning] := by decide +kernel
  refine ⟨parsed, ?_⟩
  have within : warning ∈ document.subtrees := by
    rw [parsed]
    exact List.mem_cons_of_mem _ (mem_subtreesAll List.mem_cons_self)
  exact (convertAdmonitions_contents {} _).2 warning within "caution" "Warning"
    [Node.text " a ", .leaf (.inlineCode "b")] [note, last] rfl

/-- What stands in a label run behind the label is lost with it, and so is the label of a quote in
a labelled quote. -/
theorem convertAdmonitions_labelRuns :
    (let document := ofTokens (Markdown.tokenize {} "> **Note`x`** y")
      let note : Node := .branch .quote [Node.paragraph
        [.branch .strong [Node.text "Note", .leaf (.inlineCode "x")], Node.text " y"]]
      note ∈ document.subtrees ∧
        labelledQuote? {} note = some ("note", "Note", [Node.text " y"], []) ∧
        note.leaves = [.text "Note", .inlineCode "x", .text " y"] ∧
        ((convertAdmonitions {}).run document).left.leaves =
          [.text ":::note Note", .text "y", .text ":::"]) ∧
    (let document := ofTokens (Markdown.tokenize {} "> **Warning** a\n>\n> > **Note** b")
      let note : Node := .branch .quote
        [Node.paragraph [.branch .strong [Node.text "Note"], Node.text " b"]]
      let warning : Node := .branch .quote
        [Node.paragraph [.branch .strong [Node.text "Warning"], Node.text " a"], note]
      warning ∈ document.subtrees ∧
        labelledQuote? {} warning = some ("caution", "Warning", [Node.text " a"], [note]) ∧
        warning.leaves = [.text "Warning", .text " a", .text "Note", .text " b"] ∧
        ((convertAdmonitions {}).run document).left.leaves =
          [.text ":::caution Warning", .text "a", .text ":::note Note", .text "b", .text ":::",
            .text ":::"]) := by
  refine ⟨⟨?_, rfl, rfl, ?_⟩, ?_, rfl, rfl, ?_⟩
  all_goals decide +kernel

end Pass

end Docsite
