/-!
# Docsite.Markdown.Token

What a tokenizer makes of a Markdown text.

A token has a kind, a piece of source, attributes and tokens inside.  Which of these
mean anything depends on the kind; a tokenizer may also produce kinds that documents
have no node for.
-/

namespace Docsite.Markdown

namespace Token

/-- The kinds of tokens that documents are built from, and all others by name. -/
inductive Kind where
  | heading
  | paragraph
  /-- The paragraph of a tight list item. -/
  | blockText
  | blockCode
  | blockQuote
  | list
  | thematicBreak
  | blockHtml
  | blankLine
  | table
  | tableHead
  | tableBody
  | tableCell
  | text
  | softBreak
  | lineBreak
  | strong
  | emphasis
  | strikethrough
  | codeSpan
  | link
  | image
  | inlineHtml
  | other (name : String)
  deriving DecidableEq, Repr, Inhabited

/-- The names of the kinds that have a meaning here. -/
def Kind.known : List (String × Kind) :=
  [("heading", .heading), ("paragraph", .paragraph), ("block_text", .blockText),
   ("block_code", .blockCode), ("block_quote", .blockQuote), ("list", .list),
   ("thematic_break", .thematicBreak), ("block_html", .blockHtml), ("blank_line", .blankLine),
   ("table", .table), ("table_head", .tableHead), ("table_body", .tableBody),
   ("table_cell", .tableCell), ("text", .text), ("softbreak", .softBreak),
   ("linebreak", .lineBreak), ("strong", .strong), ("emphasis", .emphasis),
   ("strikethrough", .strikethrough), ("codespan", .codeSpan), ("link", .link),
   ("image", .image), ("inline_html", .inlineHtml)]

/-- The kind with a name. -/
def Kind.ofName (name : String) : Kind := (Kind.known.lookup name).getD (.other name)

/-- The name of a kind. -/
def Kind.name : Kind → String
  | .heading => "heading"
  | .paragraph => "paragraph"
  | .blockText => "block_text"
  | .blockCode => "block_code"
  | .blockQuote => "block_quote"
  | .list => "list"
  | .thematicBreak => "thematic_break"
  | .blockHtml => "block_html"
  | .blankLine => "blank_line"
  | .table => "table"
  | .tableHead => "table_head"
  | .tableBody => "table_body"
  | .tableCell => "table_cell"
  | .text => "text"
  | .softBreak => "softbreak"
  | .lineBreak => "linebreak"
  | .strong => "strong"
  | .emphasis => "emphasis"
  | .strikethrough => "strikethrough"
  | .codeSpan => "codespan"
  | .link => "link"
  | .image => "image"
  | .inlineHtml => "inline_html"
  | .other name => name

/-- The attributes of a token; what is absent has the value that stands for nothing. -/
structure Attributes where
  /-- The level of a heading, if it is a number. -/
  level : Option Int := none
  /-- The text behind the opening fence of a code block. -/
  info : Option String := none
  ordered : Bool := false
  /-- The number of a list's first item. -/
  start : Int := 1
  tight : Option Bool := none
  /-- Is the box of a task item checked?  An item without a box has no answer. -/
  checked : Option Bool := none
  align : Option String := none
  url : String := ""
  title : Option String := none
  deriving DecidableEq, Repr, Inhabited

end Token

/-- A token with the tokens inside it. -/
inductive Token where
  | mk (kind : Token.Kind) (raw : String) (attributes : Token.Attributes) (tight : Option Bool)
      (inside : List Token)
  deriving Repr, Inhabited

namespace Token

/-- The kind of a token. -/
def kind : Token → Kind
  | mk k _ _ _ _ => k

/-- The piece of source of a token. -/
def raw : Token → String
  | mk _ r _ _ _ => r

/-- A token that holds a piece of source only. -/
def ofRaw (k : Kind) (raw : String) : Token := mk k raw {} none []

/-- A token that holds other tokens only. -/
def around (k : Kind) (inside : List Token) : Token := mk k "" {} none inside

/-- A token without anything inside. -/
def bare (k : Kind) : Token := mk k "" {} none []

end Token

end Docsite.Markdown
