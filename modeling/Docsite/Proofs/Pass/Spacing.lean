import Docsite.Markdown.Tokenize
import Docsite.Proofs.Markdown.Containers
import Docsite.Proofs.Pass.Shape
import Docsite.Proofs.Pass.Sequence

/-!
# Docsite.Proofs.Pass.Spacing

What stands around the blocks that the passes insert.

Divisions and fences are blocks like all others when a document is written, so their holder settles
what stands between them and their neighbours.  That is a blank line, but in an item of a tight
list it is the end of the line only.
-/

namespace Docsite.Pass

open Document Markdown

/-- The blocks that the passes of a conversion insert. -/
def inserted : List Node :=
  openingDivision true :: openingDivision false :: closingDivision :: closingFence ::
    ({} : Tables).admonitionKinds.map fun (label, kind) => openingFence kind label

theorem isBlock_of_mem_inserted {b : Node} (mem : b ∈ inserted) :
    (Node.kind b).isBlock = true := by
  have blocks : ∀ b ∈ inserted, (Node.kind b).isBlock = true := by decide
  exact blocks b mem

/-- A block that was inserted is one line, and written as it is. -/
theorem write_inserted (o : WritingOptions) (depth : Nat) {b : Node} (mem : b ∈ inserted) :
    ∃ content : String, (b = Node.html content ∨ b = Node.paragraph [Node.text content]) ∧
      (write o depth {} b).1 = content.toList ∧ content.toList ≠ [] ∧ '\n' ∉ content.toList := by
  have html (content : String) : (write o depth {} (Node.html content)).1 = content.toList := by
    rw [write, writeLeaf]
  have fence (content : String) (plain : escape {} content.toList = content.toList) :
      (write o depth {} (Node.paragraph [Node.text content])).1 = content.toList := by
    rw [write, writeAll_eq_map]
    simp [write, writeLeaf, plain]
  simp only [inserted, List.map_cons, List.map_nil, List.mem_cons, List.not_mem_nil,
    or_false] at mem
  rcases mem with rfl | rfl | rfl | rfl | rfl | rfl
  · exact ⟨_, .inl rfl, html _, by decide, by decide⟩
  · exact ⟨_, .inl rfl, html _, by decide, by decide⟩
  · exact ⟨_, .inl rfl, html _, by decide, by decide⟩
  · exact ⟨_, .inr rfl, fence _ (by decide), by decide, by decide⟩
  · exact ⟨_, .inr rfl, fence _ (by decide), by decide, by decide⟩
  · exact ⟨_, .inr rfl, fence _ (by decide), by decide, by decide⟩

/-- **What stands around inserted blocks.**  In a finished document an inserted block stands in the
document itself, in a quote or in an item of a list.  On the page, when what these put before its
lines is taken off, the block is found between its neighbours as they are written, those that are
empty aside.  There is a blank line to a neighbour on each side, and the end of the line alone in an
item of a tight list. -/
theorem inserted_apart (o : WritingOptions) (tokens : List Token) (f : String → String) :
    let finished := runAll (standard (.ofFunction f) {}) (ofTokens tokens)
    let page := (render o finished.left).toList
    finished.fault? = none ∧
      (∀ m ∈ finished.left.subtrees, ∀ b ∈ m.children, b ∈ inserted →
        ∃ depth tight, Holder finished.left depth tight m) ∧
      ∀ depth tight m, Holder finished.left depth tight m →
        ∀ before b after, m.children = before ++ b :: after → b ∈ inserted →
          ∃ content : String, (b = Node.html content ∨ b = Node.paragraph [Node.text content]) ∧
            '\n' ∉ content.toList ∧
            Found page (leading (spacing tight) (before.map fun k => (write o depth {} k).1) ++
              content.toList ++
              trailing (spacing tight) (after.map fun k => (write o depth {} k).1)) := by
  intro finished page
  obtain ⟨-, -, -, fault⟩ := run_standard f {} (Document.blocks tokens)
  obtain ⟨blocks, left, shape⟩ := shape_runAll (keepsShape_standard (.ofFunction f) {})
    (Document.blocks tokens) (wellShaped_ofTokens tokens)
  have done : finished.left = .document blocks := left
  simp only [page]
  rw [done]
  refine ⟨fault, ?_, ?_⟩
  · intro m mem b child there
    obtain ⟨c, kids, rfl⟩ : ∃ c kids, m = .branch c kids := by
      cases m with
      | leaf l => contradiction
      | branch c kids => exact ⟨c, kids, rfl⟩
    have admitted : c.admits (Node.kind b) = true :=
      (shape _ mem).admits _ (List.mem_map_of_mem child)
    have holds : c.holdsBlocks = true := by
      by_contra other
      have noBlock := Branch.isBlock_of_admits (by simpa using other) admitted
      rw [isBlock_of_mem_inserted there] at noBlock
      contradiction
    exact (exists_holder shape _ mem).holds c kids rfl holds
  · intro depth tight m holder before b after children there
    obtain ⟨content, kind, written, filled, oneLine⟩ := write_inserted o depth there
    have some : (write o depth {} b).1 ≠ [] := by rwa [written]
    have found := found_of_holder o holder (joined_ne_nil (by simp [children]) some)
    rw [joined_eq children some, written] at found
    exact ⟨content, kind, oneLine, found⟩

/-- A division in a quote has a blank line on each side. -/
theorem inserted_apart_quote :
    let finished := runAll (standard (.ofFunction id) {}) (ofTokens (tokenize {}
      "> The following patterns are considered problems:\n>\n> a\n"))
    Found (render {} finished.left).toList
      ("The following patterns are considered problems:\n\n<div class=\"invalid-pattern\">\n\n" ++
        "a\n\n</div>").toList := by
  intro finished
  let trigger := Node.paragraph [Node.text "The following patterns are considered problems:"]
  let shown := Node.paragraph [Node.text "a"]
  let blocks := [Tree.branch .quote [trigger, openingDivision false, shown, closingDivision]]
  have left : finished.left = .document blocks := by decide +kernel
  have apart := (inserted_apart {} (tokenize {}
    "> The following patterns are considered problems:\n>\n> a\n") id).2.2
  have holder : Holder (.document blocks) 0 false
      (.branch .quote [trigger, openingDivision false, shown, closingDivision]) :=
    .quote .root List.mem_cons_self
  rw [← left] at holder
  obtain ⟨content, kind, -, found⟩ := apart 0 false _ holder [trigger] (openingDivision false)
    [shown, closingDivision] rfl (by decide)
  have opening : content = "<div class=\"invalid-pattern\">" := by
    rcases kind with html | paragraph
    · exact (Leaf.htmlBlock.inj (Tree.leaf.inj html)).symm
    · cases paragraph
  subst opening
  have around : leading (spacing false) ([trigger].map fun k => (write {} 0 {} k).1) ++
      "<div class=\"invalid-pattern\">".toList ++
      trailing (spacing false) ([shown, closingDivision].map fun k => (write {} 0 {} k).1) =
      ("The following patterns are considered problems:\n\n<div class=\"invalid-pattern\">\n\n" ++
        "a\n\n</div>").toList := by
    decide +kernel
  rwa [around] at found

/-- In an item of a tight list there is no blank line around a division, nor anywhere on this
page. -/
theorem inserted_adjoining :
    let finished := (runAll (standard .unchanged {}) (ofTokens (tokenize {}
      "- The following patterns are considered problems:\n  ```css\n  a \x7b\x7d\n  ```\n"))).left
    (∃ m ∈ finished.subtrees, openingDivision false ∈ m.children ∧ closingDivision ∈ m.children) ∧
      [] ∉ Text.lines (render {} finished).toList := by
  intro finished
  have left : finished = .document [.branch (.list false 1 true) [.branch (.item none)
      [Node.paragraph [Node.text "The following patterns are considered problems:"],
        openingDivision false, .leaf (.codeBlock "a \x7b\x7d\n" (some "css")),
        closingDivision]]] := by
    decide +kernel
  rw [left]
  decide +kernel

end Docsite.Pass
