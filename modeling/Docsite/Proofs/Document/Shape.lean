import Docsite.Document.Kind
import Docsite.Proofs.Tree.Subtrees
import Mathlib.Data.List.Chain

/-!
# Docsite.Proofs.Document.Shape

The shape of the documents that Markdown has.

A branch holds nodes of some kinds only: blocks, inline nodes, or the parts that a list or a
table is made of.  Whether its children fit depends on their kinds alone, so a pass that
keeps the kinds of the children keeps the shape.  A document is well shaped if the children
fit everywhere in it.
-/

namespace Docsite.Document

/-- Is a kind one of blocks, which stand below each other? -/
def Kind.isBlock : Kind → Bool
  | heading | paragraph | codeBlock | quote | list | table | thematicBreak | htmlBlock => true
  | _ => false

/-- Is a kind one of inline nodes, which stand in a line of text? -/
def Kind.isInline : Kind → Bool
  | text | emphasis | strong | inlineCode | link | image | lineBreak | strikethrough
  | htmlInline => true
  | _ => false

/-- No two runs of text stand side by side. -/
def Kind.Apart (kinds : List Kind) : Prop := kinds.IsChain fun j k => ¬(j = .text ∧ k = .text)

theorem Kind.apart_of_ne_text {kinds : List Kind} (h : ∀ k ∈ kinds, k ≠ .text) :
    Kind.Apart kinds := by
  induction kinds with
  | nil => exact .nil
  | cons k kinds ih =>
    rw [Kind.Apart, List.isChain_cons]
    exact ⟨fun _ _ both => h k List.mem_cons_self both.1,
      ih fun j mem => h j (List.mem_cons_of_mem _ mem)⟩

namespace Branch

/-- Does a branch hold blocks? -/
def holdsBlocks : Branch → Bool
  | root | quote | item _ => true
  | _ => false

/-- Does a branch hold inline nodes? -/
def holdsInlines : Branch → Bool
  | heading _ | paragraph | cell _ | emphasis | strong | strikethrough | link _ _ => true
  | _ => false

/-- Does a branch hold nodes of a kind? -/
def admits (b : Branch) (k : Kind) : Bool :=
  match b with
  | root | quote | item _ => k.isBlock
  | heading _ | paragraph | cell _ | emphasis | strong | strikethrough | link _ _ => k.isInline
  | list _ _ _ => k == .item
  | table _ => k == .row
  | row _ => k == .cell

theorem admits_of_holdsBlocks {b : Branch} (h : b.holdsBlocks = true) (k : Kind) :
    b.admits k = k.isBlock := by
  cases b <;> first
    | rfl
    | contradiction

theorem admits_of_holdsInlines {b : Branch} (h : b.holdsInlines = true) (k : Kind) :
    b.admits k = k.isInline := by
  cases b <;> first
    | rfl
    | contradiction

/-- Where blocks do not stand, no block stands. -/
theorem isBlock_of_admits {b : Branch} {k : Kind} (h : b.holdsBlocks = false)
    (admitted : b.admits k = true) : k.isBlock = false := by
  cases b <;> cases k <;> first
    | rfl
    | contradiction

/-- Do children of some kinds fit under a branch? -/
structure Fits (b : Branch) (kinds : List Kind) : Prop where
  /-- A heading has a level between one and six. -/
  level : ∀ n, b = heading n → 1 ≤ n ∧ n ≤ 6
  admits : ∀ k ∈ kinds, b.admits k = true
  apart : Kind.Apart kinds

/-- Under a branch without runs of text all kinds that it admits fit. -/
theorem fits_of_ne_text {b : Branch} {kinds : List Kind} (notHeading : ∀ n, b ≠ heading n)
    (admits : ∀ k ∈ kinds, b.admits k = true) (noText : b.admits .text = false) :
    b.Fits kinds where
  level n is := absurd is (notHeading n)
  admits := admits
  apart := Kind.apart_of_ne_text fun k mem is => by
    have admitted := admits k mem
    rw [is, noText] at admitted
    contradiction

/-- Blocks fit wherever blocks stand. -/
theorem fits_of_blocks {b : Branch} {kinds : List Kind} (holds : b.holdsBlocks = true)
    (blocks : ∀ k ∈ kinds, k.isBlock = true) : b.Fits kinds := by
  apply fits_of_ne_text
  · rintro n rfl
    contradiction
  · intro k mem
    rw [admits_of_holdsBlocks holds]
    exact blocks k mem
  · rw [admits_of_holdsBlocks holds]
    rfl

end Branch

end Docsite.Document

namespace Docsite.Node

open Document Docsite.Tree

theorem kind_eq_text_iff {n : Node} : Node.kind n = .text ↔ ∃ content, n = Node.text content := by
  constructor
  · intro h
    cases n with
    | leaf l => cases l <;> first
        | exact ⟨_, rfl⟩
        | contradiction
    | branch b kids => cases b <;> contradiction
  · rintro ⟨content, rfl⟩
    rfl

/-- Other children fit where some do, if blocks alone stand for blocks, and nodes of the same
kinds for nodes that are no blocks. -/
theorem fits_of_instead {b : Branch} {kids new : List Node} (fits : b.Fits (kids.map Node.kind))
    (blocks : (∀ n ∈ kids, (Node.kind n).isBlock = true) →
      ∀ m ∈ new, (Node.kind m).isBlock = true)
    (others : (∀ n ∈ kids, (Node.kind n).isBlock = false) →
      new.map Node.kind = kids.map Node.kind) :
    b.Fits (new.map Node.kind) := by
  have admitted := List.forall_mem_map.mp fits.admits
  cases holds : b.holdsBlocks with
  | true =>
    apply Branch.fits_of_blocks holds
    rw [List.forall_mem_map]
    apply blocks
    intro n mem
    rw [← Branch.admits_of_holdsBlocks holds]
    exact admitted n mem
  | false =>
    rw [others fun n mem => Branch.isBlock_of_admits holds (admitted n mem)]
    exact fits

theorem isInline_of_fits {b : Branch} {kids : List Node} (fits : b.Fits (kids.map Node.kind))
    (holds : b.holdsInlines = true) : ∀ n ∈ kids, (Node.kind n).isInline = true := by
  intro n mem
  rw [← Branch.admits_of_holdsInlines holds]
  exact fits.admits _ (List.mem_map_of_mem mem)

/-- Do the children of a node fit under it? -/
def Fits : Node → Prop
  | .leaf _ => True
  | .branch b kids => b.Fits (kids.map Node.kind)

/-- Do children fit everywhere in some nodes and below them? -/
def WellShapedAll (ns : List Node) : Prop := ∀ m ∈ subtreesAll ns, Node.Fits m

/-- Do children fit everywhere in a node? -/
def WellShaped (n : Node) : Prop := ∀ m ∈ n.subtrees, Node.Fits m

theorem wellShaped_leaf (l : Leaf) : WellShaped (.leaf l) := by
  intro m mem
  rw [subtrees, List.mem_singleton] at mem
  subst mem
  trivial

theorem wellShaped_branch {b : Branch} {kids : List Node} :
    WellShaped (.branch b kids) ↔ b.Fits (kids.map Node.kind) ∧ WellShapedAll kids := by
  simp only [WellShaped, WellShapedAll, subtrees, List.forall_mem_cons, Fits]

theorem wellShapedAll_iff {ns : List Node} : WellShapedAll ns ↔ ∀ n ∈ ns, WellShaped n := by
  simp only [WellShapedAll, WellShaped, subtreesAll_eq_flatMap, List.mem_flatMap]
  exact ⟨fun h n mem m below => h m ⟨n, mem, below⟩, fun h m ⟨n, mem, below⟩ => h n mem m below⟩

theorem wellShapedAll_cons {n : Node} {ns : List Node} :
    WellShapedAll (n :: ns) ↔ WellShaped n ∧ WellShapedAll ns := by
  simp only [wellShapedAll_iff, List.forall_mem_cons]

theorem wellShapedAll_append {ns ms : List Node} :
    WellShapedAll (ns ++ ms) ↔ WellShapedAll ns ∧ WellShapedAll ms := by
  simp only [wellShapedAll_iff, List.forall_mem_append]

/-- Are the inline nodes below some nodes free of quotes, however deep? -/
def QuoteFreeInlines (ns : List Node) : Prop :=
  ∀ b kids, Tree.branch b kids ∈ subtreesAll ns → b.holdsInlines = true →
    ∀ m ∈ subtreesAll kids, Node.kind m ≠ .quote

theorem QuoteFreeInlines.mono {ns ms : List Node} (h : QuoteFreeInlines ns)
    (within : subtreesAll ms ⊆ subtreesAll ns) : QuoteFreeInlines ms :=
  fun b kids mem => h b kids (within mem)

theorem WellShapedAll.of_mem {n : Node} {ns : List Node} (h : WellShapedAll ns)
    (mem : n ∈ subtreesAll ns) : WellShaped n :=
  fun m below => h m (subtrees_subset_all ns n mem below)

mutual

/-- In a well-shaped line there are inline nodes only, however deep. -/
theorem isInline_of_mem_subtrees : (n : Node) → (Node.kind n).isInline = true → WellShaped n →
    ∀ m ∈ subtrees n, (Node.kind m).isInline = true
  | .leaf l, inline, _ => by simpa [subtrees] using inline
  | .branch b kids, inline, h => by
    obtain ⟨fits, below⟩ := wellShaped_branch.mp h
    have holds : b.holdsInlines = true := by
      cases b <;> first
        | rfl
        | contradiction
    rw [subtrees, List.forall_mem_cons]
    exact ⟨inline, isInline_of_mem_subtreesAll kids (isInline_of_fits fits holds) below⟩

theorem isInline_of_mem_subtreesAll : (ns : List Node) →
    (∀ n ∈ ns, (Node.kind n).isInline = true) → WellShapedAll ns →
    ∀ m ∈ subtreesAll ns, (Node.kind m).isInline = true
  | [], _, _ => by simp [subtreesAll]
  | n :: ns, inline, h => by
    rw [List.forall_mem_cons] at inline
    rw [wellShapedAll_cons] at h
    rw [subtreesAll, List.forall_mem_append]
    exact ⟨isInline_of_mem_subtrees n inline.1 h.1,
      isInline_of_mem_subtreesAll ns inline.2 h.2⟩

end

/-- In well-shaped documents no quote stands among inline nodes. -/
theorem quoteFreeInlines_of_wellShapedAll {ns : List Node} (h : WellShapedAll ns) :
    QuoteFreeInlines ns := by
  intro b kids mem holds m below quote
  obtain ⟨fits, shape⟩ := wellShaped_branch.mp (h.of_mem mem)
  have quoteInline := isInline_of_mem_subtreesAll kids (isInline_of_fits fits holds) shape m below
  rw [quote] at quoteInline
  contradiction

end Docsite.Node
