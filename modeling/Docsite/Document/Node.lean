import Docsite.Tree.Basic

/-!
# Docsite.Document.Node

Markdown documents as trees.

The label of a node says what it is and holds everything but its children.  Nothing
keeps a node from standing under a parent where Markdown has no place for it; trees that
are built from Markdown respect the shape of the language, the operations do not rely
on it.
-/

namespace Docsite

namespace Document

/-- The state of a task item's box. -/
inductive TaskStatus where
  | checked
  | unchecked
  deriving DecidableEq, Repr

/-- The nodes without children. -/
inductive Leaf where
  | text (content : String)
  | inlineCode (content : String)
  | codeBlock (content : String) (language : Option String)
  | htmlBlock (content : String)
  | htmlInline (content : String)
  | image (url : String) (alt : String) (title : Option String)
  | lineBreak
  | thematicBreak
  deriving DecidableEq, Repr, Inhabited

/-- The nodes that hold a list of children. -/
inductive Branch where
  | root
  | heading (level : Int)
  | paragraph
  | quote
  | list (ordered : Bool) (start : Int) (tight : Bool)
  | item (task : Option TaskStatus)
  | table (alignments : List (Option String))
  | row (isHeader : Bool)
  | cell (alignment : Option String)
  | emphasis
  | strong
  | strikethrough
  | link (url : String) (title : Option String)
  deriving DecidableEq, Repr, Inhabited

/-- A level that no heading has. -/
structure LevelFault where
  level : Int
  deriving DecidableEq, Repr

/-- The wording of the fault. -/
def LevelFault.message (f : LevelFault) : String :=
  "Heading level must be 1-6, got " ++ toString f.level

/-- The label of a heading, whose level has to lie between one and six. -/
def headingLabel (level : Int) : Except LevelFault Branch :=
  if 1 ≤ level ∧ level ≤ 6 then .ok (.heading level) else .error ⟨level⟩

end Document

/-- A node of a document, with everything below it. -/
abbrev Node := Tree Document.Leaf Document.Branch

namespace Node

open Document

/-- A run of text. -/
@[match_pattern] abbrev text (content : String) : Node := .leaf (.text content)

/-- A block of raw HTML. -/
@[match_pattern] abbrev html (content : String) : Node := .leaf (.htmlBlock content)

/-- A paragraph of inline nodes. -/
@[match_pattern] abbrev paragraph (content : List Node) : Node := .branch .paragraph content

/-- A document of blocks. -/
@[match_pattern] abbrev document (blocks : List Node) : Node := .branch .root blocks

mutual

/-- The texts below a node put together: runs of text, inline code, and the descriptions
of images. -/
def textContent : Node → String
  | .leaf (.text content) => content
  | .leaf (.inlineCode content) => content
  | .leaf (.image _ alt _) => alt
  | .leaf _ => ""
  | .branch _ kids => textContents kids

/-- The texts below several nodes put together. -/
def textContents : List Node → String
  | [] => ""
  | t :: ts => textContent t ++ textContents ts

end

/-- The text of the node at a position, if it is a run of text, else nothing. -/
def textAt (nodes : List Node) (position : Nat) : String :=
  match nodes[position]? with
  | some (.text content) => content
  | _ => ""

end Node

end Docsite
