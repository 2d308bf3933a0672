import Docsite.Document.Node

/-!
# Docsite.Document.Kind

The kinds of nodes and their names.

A kind has a short tag, by which tests and messages name it, and a class name.  What a
kind calls its list of children depends on the place of the kind in the language: blocks
hold `children` or, in lists and tables, the parts that make them up, and everything made
of inline nodes holds its `content`.
-/

namespace Docsite.Document

/-- What a node is. -/
inductive Kind where
  | root
  | heading
  | paragraph
  | codeBlock
  | quote
  | list
  | item
  | table
  | row
  | cell
  | thematicBreak
  | htmlBlock
  | text
  | emphasis
  | strong
  | inlineCode
  | link
  | image
  | lineBreak
  | strikethrough
  | htmlInline
  deriving DecidableEq, Repr

namespace Kind

/-- Every kind. -/
def all : List Kind :=
  [.root, .heading, .paragraph, .codeBlock, .quote, .list, .item, .table, .row, .cell,
   .thematicBreak, .htmlBlock, .text, .emphasis, .strong, .inlineCode, .link, .image, .lineBreak,
   .strikethrough, .htmlInline]

/-- The tag of a kind. -/
def tag : Kind → String
  | root => "root"
  | heading => "heading"
  | paragraph => "paragraph"
  | codeBlock => "code"
  | quote => "blockquote"
  | list => "list"
  | item => "list_item"
  | table => "table"
  | row => "table_row"
  | cell => "table_cell"
  | thematicBreak => "thematic_break"
  | htmlBlock => "html"
  | text => "text"
  | emphasis => "emphasis"
  | strong => "strong"
  | inlineCode => "inline_code"
  | link => "link"
  | image => "image"
  | lineBreak => "break"
  | strikethrough => "delete"
  | htmlInline => "html_inline"

/-- The class name of a kind. -/
def className : Kind → String
  | root => "Document"
  | heading => "Heading"
  | paragraph => "Paragraph"
  | codeBlock => "CodeBlock"
  | quote => "BlockQuote"
  | list => "List"
  | item => "ListItem"
  | table => "Table"
  | row => "TableRow"
  | cell => "TableCell"
  | thematicBreak => "ThematicBreak"
  | htmlBlock => "HTMLBlock"
  | text => "Text"
  | emphasis => "Emphasis"
  | strong => "Strong"
  | inlineCode => "Code"
  | link => "Link"
  | image => "Image"
  | lineBreak => "LineBreak"
  | strikethrough => "Strikethrough"
  | htmlInline => "HTMLInline"

/-- The name under which a kind is handled by someone who treats each kind on its own. -/
def handlerName : Kind → String
  | root => "visit_document"
  | heading => "visit_heading"
  | paragraph => "visit_paragraph"
  | codeBlock => "visit_code_block"
  | quote => "visit_block_quote"
  | list => "visit_list"
  | item => "visit_list_item"
  | table => "visit_table"
  | row => "visit_table_row"
  | cell => "visit_table_cell"
  | thematicBreak => "visit_thematic_break"
  | htmlBlock => "visit_html_block"
  | text => "visit_text"
  | emphasis => "visit_emphasis"
  | strong => "visit_strong"
  | inlineCode => "visit_code"
  | link => "visit_link"
  | image => "visit_image"
  | lineBreak => "visit_line_break"
  | strikethrough => "visit_strikethrough"
  | htmlInline => "visit_html_inline"

/-- What is said when nobody handles nodes of a kind. -/
def unhandledMessage (k : Kind) : String := "No visit method for " ++ k.className

/-- What the kind calls its list of children, if its nodes have one. -/
def childrenField? : Kind → Option String
  | root | quote | item => some "children"
  | list => some "items"
  | table => some "rows"
  | row => some "cells"
  | heading | paragraph | cell | emphasis | strong | strikethrough | link => some "content"
  | codeBlock | thematicBreak | htmlBlock | text | inlineCode | image | lineBreak | htmlInline =>
    none

end Kind

/-- The kind of a leaf. -/
def Leaf.kind : Leaf → Kind
  | .text _ => .text
  | .inlineCode _ => .inlineCode
  | .codeBlock _ _ => .codeBlock
  | .htmlBlock _ => .htmlBlock
  | .htmlInline _ => .htmlInline
  | .image _ _ _ => .image
  | .lineBreak => .lineBreak
  | .thematicBreak => .thematicBreak

/-- The kind of a branch. -/
def Branch.kind : Branch → Kind
  | .root => .root
  | .heading _ => .heading
  | .paragraph => .paragraph
  | .quote => .quote
  | .list _ _ _ => .list
  | .item _ => .item
  | .table _ => .table
  | .row _ => .row
  | .cell _ => .cell
  | .emphasis => .emphasis
  | .strong => .strong
  | .strikethrough => .strikethrough
  | .link _ _ => .link

end Docsite.Document

namespace Docsite.Node

open Document

/-- The kind of a node. -/
def kind : Node → Kind
  | .leaf l => l.kind
  | .branch b _ => b.kind

/-- A node as steps of a walk name it: its tag and its text content. -/
def caption (n : Node) : String := n.kind.tag ++ ":" ++ n.textContent

end Docsite.Node
