import Docsite.Document.OfTokens
import Docsite.Proofs.Document.Shape

/-!
# Docsite.Proofs.Document.OfTokens

The documents that tokens describe are well shaped.

A reader of tokens gives nodes of the kinds that fit where the tokens stand, whatever tokens
stand there: those that have no node there are left out.  Runs of text never come to stand
side by side, because each node is put before the others by `consInline`.
-/

namespace Docsite.Document

open Markdown (Token)

/-! ## lists of one kind -/

/-- Are all of some nodes well shaped and of a kind that passes a test? -/
def AllWell (p : Kind → Bool) (ns : List Node) : Prop :=
  ∀ n ∈ ns, p (Node.kind n) = true ∧ Node.WellShaped n

/-- Are some nodes such as may stand in a line? -/
def Line (ns : List Node) : Prop := AllWell Kind.isInline ns ∧ Kind.Apart (ns.map Node.kind)

section

variable {p : Kind → Bool} {n : Node} {ns ms : List Node} {b : Branch}

theorem allWell_nil : AllWell p [] := by simp [AllWell]

theorem allWell_cons (here : p (Node.kind n) = true ∧ Node.WellShaped n) (rest : AllWell p ns) :
    AllWell p (n :: ns) := by
  rw [AllWell, List.forall_mem_cons]
  exact ⟨here, rest⟩

theorem allWell_append (left : AllWell p ns) (right : AllWell p ms) : AllWell p (ns ++ ms) := by
  rw [AllWell, List.forall_mem_append]
  exact ⟨left, right⟩

theorem wellShaped_of_fits (fits : b.Fits (ns.map Node.kind)) (h : AllWell p ns) :
    Node.WellShaped (.branch b ns) :=
  Node.wellShaped_branch.mpr ⟨fits, Node.wellShapedAll_iff.mpr fun n mem => (h n mem).2⟩

theorem AllWell.kinds (h : AllWell p ns) : ∀ k ∈ ns.map Node.kind, p k = true :=
  List.forall_mem_map.mpr fun n mem => (h n mem).1

/-- Blocks below a branch that holds blocks. -/
theorem wellShaped_of_blocks (holds : b.holdsBlocks = true) (h : AllWell Kind.isBlock ns) :
    Node.WellShaped (.branch b ns) :=
  wellShaped_of_fits (Branch.fits_of_blocks holds h.kinds) h

/-- The parts of a list or a table. -/
theorem wellShaped_of_parts (notHeading : ∀ n, b ≠ .heading n) (noText : b.admits .text = false)
    (h : AllWell b.admits ns) : Node.WellShaped (.branch b ns) :=
  wellShaped_of_fits (Branch.fits_of_ne_text notHeading h.kinds noText) h

/-- Inline nodes below a branch that holds them. -/
theorem wellShaped_of_inlines (holds : b.holdsInlines = true)
    (level : ∀ n, b = .heading n → 1 ≤ n ∧ n ≤ 6)
    (h : Line ns) : Node.WellShaped (.branch b ns) := by
  refine wellShaped_of_fits ⟨level, ?_, h.2⟩ h.1
  intro k mem
  rw [Branch.admits_of_holdsInlines holds]
  exact h.1.kinds k mem

end

/-! ## inline nodes -/

/-- A node put before a line is one more node of the line or, as a run of text before another,
a part of its first node. -/
theorem line_consInline {n : Node} {ns : List Node}
    (here : (Node.kind n).isInline = true ∧ Node.WellShaped n) (rest : Line ns) :
    Line (consInline n ns) := by
  unfold consInline
  split
  · next a b ns =>
    have others : AllWell Kind.isInline ns := (List.forall_mem_cons.mp rest.1).2
    exact ⟨allWell_cons ⟨rfl, Node.wellShaped_leaf _⟩ others, rest.2⟩
  · next apart =>
    refine ⟨allWell_cons here rest.1, ?_⟩
    rw [List.map_cons, Kind.Apart, List.isChain_cons]
    refine ⟨?_, rest.2⟩
    rintro _ first ⟨text, rfl⟩
    obtain ⟨a, rfl⟩ := Node.kind_eq_text_iff.mp text
    cases ns with
    | nil => simp at first
    | cons m ms =>
      have text : Node.kind m = .text := by simpa using first
      obtain ⟨b, rfl⟩ := Node.kind_eq_text_iff.mp text
      exact apart a b ms rfl rfl

/-! ## tokens -/

/-- A heading of a document has a level between one and six, whatever the token says. -/
theorem headingLevel_bounds (a : Token.Attributes) : 1 ≤ headingLevel a ∧ headingLevel a ≤ 6 := by
  unfold headingLevel
  split
  · split
    · assumption
    · decide
  · decide

mutual

theorem allWell_blocks : (ts : List Token) → AllWell Kind.isBlock (blocks ts)
  | [] => by
    rw [blocks]
    exact allWell_nil
  | t :: ts => by
    rw [blocks]
    split
    · next n found => exact allWell_cons (wellShaped_block t n found) (allWell_blocks ts)
    · exact allWell_blocks ts

theorem wellShaped_block : (t : Token) → (n : Node) → block? t = some n →
    (Node.kind n).isBlock = true ∧ Node.WellShaped n
  | .mk kind raw attributes tight inside, n, found => by
    have content : Line (inlines inside) := line_inlines inside
    cases kind with
    | heading =>
      cases found
      refine ⟨rfl, wellShaped_of_inlines rfl ?_ content⟩
      rintro _ ⟨⟩
      exact headingLevel_bounds attributes
    | paragraph | blockText =>
      cases found
      exact ⟨rfl, wellShaped_of_inlines rfl nofun content⟩
    | blockCode | thematicBreak | blockHtml =>
      cases found
      exact ⟨rfl, Node.wellShaped_leaf _⟩
    | blockQuote =>
      cases found
      exact ⟨rfl, wellShaped_of_blocks rfl (allWell_blocks inside)⟩
    | list =>
      cases found
      exact ⟨rfl, wellShaped_of_parts nofun rfl (allWell_items inside)⟩
    | table =>
      cases found
      exact ⟨rfl, wellShaped_of_parts nofun rfl (allWell_rows inside)⟩
    | _ => contradiction

theorem allWell_items : (ts : List Token) → AllWell (· == .item) (items ts)
  | [] => by
    rw [items]
    exact allWell_nil
  | .mk _ _ attributes _ inside :: ts => by
    rw [items]
    exact allWell_cons ⟨rfl, wellShaped_of_blocks rfl (allWell_blocks inside)⟩ (allWell_items ts)

theorem allWell_rows : (ts : List Token) → AllWell (· == .row) (rows ts)
  | [] => by
    rw [rows]
    exact allWell_nil
  | .mk kind _ _ _ inside :: ts => by
    have header : AllWell (· == .row) [.branch (.row true) (cells inside)] :=
      allWell_cons ⟨rfl, wellShaped_of_parts nofun rfl (allWell_cells inside)⟩ allWell_nil
    have others := allWell_rows ts
    cases kind with
    | tableHead => exact allWell_append header others
    | tableBody => exact allWell_append (allWell_bodyRows inside) others
    | _ => exact others

theorem allWell_bodyRows : (ts : List Token) → AllWell (· == .row) (bodyRows ts)
  | [] => by
    rw [bodyRows]
    exact allWell_nil
  | .mk _ _ _ _ inside :: ts => by
    rw [bodyRows]
    exact allWell_cons ⟨rfl, wellShaped_of_parts nofun rfl (allWell_cells inside)⟩
      (allWell_bodyRows ts)

theorem allWell_cells : (ts : List Token) → AllWell (· == .cell) (cells ts)
  | [] => by
    rw [cells]
    exact allWell_nil
  | .mk kind _ attributes _ inside :: ts => by
    have others := allWell_cells ts
    cases kind with
    | tableCell =>
      exact allWell_cons ⟨rfl, wellShaped_of_inlines rfl nofun (line_inlines inside)⟩ others
    | _ => exact others

theorem line_inlines : (ts : List Token) → Line (inlines ts)
  | [] => by
    rw [inlines]
    exact ⟨allWell_nil, .nil⟩
  | t :: ts => by
    rw [inlines]
    split
    · next n found => exact line_consInline (wellShaped_inline t n found) (line_inlines ts)
    · exact line_inlines ts

theorem wellShaped_inline : (t : Token) → (n : Node) → inline? t = some n →
    (Node.kind n).isInline = true ∧ Node.WellShaped n
  | .mk kind raw attributes tight inside, n, found => by
    have content : Line (inlines inside) := line_inlines inside
    cases kind with
    | text | softBreak | lineBreak | codeSpan | image | inlineHtml =>
      cases found
      exact ⟨rfl, Node.wellShaped_leaf _⟩
    | strong | emphasis | strikethrough | link =>
      cases found
      exact ⟨rfl, wellShaped_of_inlines rfl nofun content⟩
    | _ => contradiction

end

/-- **The document of every sequence of tokens is well shaped.** -/
theorem wellShaped_ofTokens (tokens : List Token) : Node.WellShaped (ofTokens tokens) :=
  wellShaped_of_blocks rfl (allWell_blocks tokens)

/-- No quote stands among the inline nodes that tokens describe. -/
theorem quoteFreeInlines_blocks (tokens : List Token) : Node.QuoteFreeInlines (blocks tokens) :=
  Node.quoteFreeInlines_of_wellShapedAll (Node.wellShaped_branch.mp (wellShaped_ofTokens tokens)).2

end Docsite.Document
