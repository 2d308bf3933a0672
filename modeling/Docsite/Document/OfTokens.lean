import Docsite.Document.Node
import Docsite.Log
import Docsite.Markdown.Token
import Docsite.Text.Blank

/-!
# Docsite.Document.OfTokens

The document that a sequence of tokens describes.

Tokens of a kind that has no node where they stand are left out, and `unsupported`
records them in the order in which they are met; blank lines alone are left out in
silence.  A soft break becomes a line feed, and neighbouring runs of text become one run,
so the words of a plain sentence are always a single node, however the tokenizer cut it.
-/

namespace Docsite.Document

open Markdown (Token)

/-! ## attributes -/

/-- A heading's level; one where the token has none between one and six. -/
def headingLevel (a : Token.Attributes) : Int :=
  match a.level with
  | some n => if 1 ≤ n ∧ n ≤ 6 then n else 1
  | none => 1

/-- The language of a code block: its info text without white space at the ends. -/
def codeLanguage (a : Token.Attributes) : Option String :=
  match Text.trim (a.info.getD "").toList with
  | [] => none
  | language => some (.ofList language)

/-- Is a list tight?  The token's own answer comes before that of its attributes. -/
def listTight (a : Token.Attributes) (tight : Option Bool) : Bool :=
  (tight.or a.tight).getD true

/-- The status of a list item. -/
def taskStatus (a : Token.Attributes) : Option TaskStatus :=
  a.checked.map fun checked => if checked then .checked else .unchecked

/-- The description of an image: the text tokens directly inside it. -/
def imageAlt (inside : List Token) : String :=
  .ofList ((inside.filter (·.kind == .text)).flatMap (·.raw.toList))

/-- A node before others; a run of text joins a run of text that follows it. -/
def consInline : Node → List Node → List Node
  | .text a, .text b :: nodes => .text (a ++ b) :: nodes
  | node, nodes => node :: nodes

/-! ## nodes -/

mutual

/-- The nodes of tokens between blocks. -/
def blocks : List Token → List Node
  | [] => []
  | t :: ts =>
    match block? t with
    | some node => node :: blocks ts
    | none => blocks ts

/-- The node of a token between blocks, if it has one. -/
def block? : Token → Option Node
  | .mk kind raw attributes tight inside =>
    match kind with
    | .heading => some (.branch (.heading (headingLevel attributes)) (inlines inside))
    | .paragraph | .blockText => some (.paragraph (inlines inside))
    | .blockCode => some (.leaf (.codeBlock raw (codeLanguage attributes)))
    | .blockQuote => some (.branch .quote (blocks inside))
    | .list =>
      some (.branch (.list attributes.ordered attributes.start (listTight attributes tight))
        (items inside))
    | .table => some (.branch (.table (columnAlignments inside)) (rows inside))
    | .thematicBreak => some (.leaf .thematicBreak)
    | .blockHtml => some (.html (.ofList (Text.dropEndWhile (· == '\n') raw.toList)))
    | _ => none

/-- The items of a list; every token inside a list stands for one. -/
def items : List Token → List Node
  | [] => []
  | .mk _ _ attributes _ inside :: ts =>
    .branch (.item (taskStatus attributes)) (blocks inside) :: items ts

/-- The rows of a table: the header cells make up the first. -/
def rows : List Token → List Node
  | [] => []
  | .mk kind _ _ _ inside :: ts =>
    match kind with
    | .tableHead => .branch (.row true) (cells inside) :: rows ts
    | .tableBody => bodyRows inside ++ rows ts
    | _ => rows ts

/-- The rows below the header; every token inside a table body stands for one. -/
def bodyRows : List Token → List Node
  | [] => []
  | .mk _ _ _ _ inside :: ts => .branch (.row false) (cells inside) :: bodyRows ts

/-- The cells of a row. -/
def cells : List Token → List Node
  | [] => []
  | .mk kind _ attributes _ inside :: ts =>
    match kind with
    | .tableCell => .branch (.cell attributes.align) (inlines inside) :: cells ts
    | _ => cells ts

/-- The alignments of the columns of a table: those of its last header. -/
def columnAlignments : List Token → List (Option String)
  | [] => []
  | .mk kind _ _ _ inside :: ts =>
    match kind with
    | .tableHead =>
      if ts.any (·.kind == .tableHead) then columnAlignments ts else cellAlignments inside
    | _ => columnAlignments ts

/-- The alignments of the cells of a row. -/
def cellAlignments : List Token → List (Option String)
  | [] => []
  | .mk kind _ attributes _ _ :: ts =>
    match kind with
    | .tableCell => attributes.align :: cellAlignments ts
    | _ => cellAlignments ts

/-- The nodes of tokens inside a block. -/
def inlines : List Token → List Node
  | [] => []
  | t :: ts =>
    match inline? t with
    | some node => consInline node (inlines ts)
    | none => inlines ts

/-- The node of a token inside a block, if it has one. -/
def inline? : Token → Option Node
  | .mk kind raw attributes _ inside =>
    match kind with
    | .text => some (.text raw)
    | .softBreak => some (.text "\n")
    | .lineBreak => some (.leaf .lineBreak)
    | .strong => some (.branch .strong (inlines inside))
    | .emphasis => some (.branch .emphasis (inlines inside))
    | .strikethrough => some (.branch .strikethrough (inlines inside))
    | .codeSpan => some (.leaf (.inlineCode raw))
    | .link => some (.branch (.link attributes.url attributes.title) (inlines inside))
    | .image => some (.leaf (.image attributes.url (imageAlt inside) attributes.title))
    | .inlineHtml => some (.leaf (.htmlInline raw))
    | _ => none

end

/-- The document of a sequence of tokens. -/
def ofTokens (tokens : List Token) : Node := .document (blocks tokens)

/-! ## what is left out -/

mutual

/-- The kinds left out between blocks, in the order in which they are met. -/
def unsupportedBlocks : List Token → List Log.Record
  | [] => []
  | t :: ts => unsupportedBlock t ++ unsupportedBlocks ts

/-- The kinds left out at and in one token between blocks. -/
def unsupportedBlock : Token → List Log.Record
  | .mk kind _ _ _ inside =>
    match kind with
    | .heading | .paragraph | .blockText => unsupportedInlines inside
    | .blockQuote => unsupportedBlocks inside
    | .list => unsupportedInItems inside
    | .table => unsupportedInSections inside
    | .blockCode | .thematicBreak | .blockHtml | .blankLine => []
    | kind => [⟨.debug, .reader, "Ignoring unsupported block token: " ++ kind.name⟩]

/-- The kinds left out in the items of a list. -/
def unsupportedInItems : List Token → List Log.Record
  | [] => []
  | .mk _ _ _ _ inside :: ts => unsupportedBlocks inside ++ unsupportedInItems ts

/-- The kinds left out in the parts of a table. -/
def unsupportedInSections : List Token → List Log.Record
  | [] => []
  | .mk kind _ _ _ inside :: ts =>
    match kind with
    | .tableHead => unsupportedInCells inside ++ unsupportedInSections ts
    | .tableBody => unsupportedInRows inside ++ unsupportedInSections ts
    | _ => unsupportedInSections ts

/-- The kinds left out in the rows of a table. -/
def unsupportedInRows : List Token → List Log.Record
  | [] => []
  | .mk _ _ _ _ inside :: ts => unsupportedInCells inside ++ unsupportedInRows ts

/-- The kinds left out in the cells of a row. -/
def unsupportedInCells : List Token → List Log.Record
  | [] => []
  | .mk kind _ _ _ inside :: ts =>
    match kind with
    | .tableCell => unsupportedInlines inside ++ unsupportedInCells ts
    | _ => unsupportedInCells ts

/-- The kinds left out inside a block, in the order in which they are met. -/
def unsupportedInlines : List Token → List Log.Record
  | [] => []
  | t :: ts => unsupportedInline t ++ unsupportedInlines ts

/-- The kinds left out at and in one token inside a block. -/
def unsupportedInline : Token → List Log.Record
  | .mk kind _ _ _ inside =>
    match kind with
    | .strong | .emphasis | .strikethrough | .link => unsupportedInlines inside
    | .text | .softBreak | .lineBreak | .codeSpan | .image | .inlineHtml => []
    | kind => [⟨.debug, .reader, "Ignoring unsupported inline token: " ++ kind.name⟩]

end

/-- The records of reading a sequence of tokens. -/
def readingLog (tokens : List Token) : List Log.Record :=
  unsupportedBlocks tokens
    ++ [⟨.debug, .reader,
      "Parsed " ++ toString (blocks tokens).length ++ " top-level blocks"⟩]

end Docsite.Document
