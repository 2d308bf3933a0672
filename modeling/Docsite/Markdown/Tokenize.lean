import Docsite.Markdown.Block.OfText
import Docsite.Markdown.Inline.OfText

/-!
# Docsite.Markdown.Tokenize

The tokens of a Markdown text.

Blocks come first: only when all of them are known, and with them every definition of a
label, is the text inside them read.  Definitions have no token.
-/

namespace Docsite.Markdown

/-! ## task items -/

/-- The box at the start of a text: whether it is checked, and the text behind it.  There
is white space behind a box, or nothing. -/
def taskBox? (s : List Char) : Option (Bool × List Char) :=
  match s with
  | '[' :: c :: ']' :: cs =>
    if (c = ' ' ∨ c = 'x' ∨ c = 'X') ∧ cs.head?.all Text.isBlank then
      some (c != ' ', Text.trimStart cs)
    else none
  | _ => none

/-- The box of an item: whether it is checked, and what is left of the paragraph that
the item begins with.  Definitions before the paragraph do not count. -/
def itemBox? : List Block → Option (Bool × List Char)
  | .definition _ :: blocks => itemBox? blocks
  | .paragraph source :: _ => taskBox? source
  | _ => none

/-! ## blocks -/

/-- The cells of a row of a table, with the alignments of their columns. -/
def cellTokens (k : InlineContext) (alignments : List (Option Alignment))
    (cells : List (List Char)) : List Token :=
  (alignments.zip cells).map fun (a, source) =>
    .mk .tableCell "" { align := a.map (·.name) } none (inlinesOf k source)

/-- The tokens of a table. -/
def tableToken (k : InlineContext) (alignments : List (Option Alignment))
    (header : List (List Char)) (rows : List (List (List Char))) : Token :=
  .around .table
    [.around .tableHead (cellTokens k alignments header),
     .around .tableBody (rows.map fun r => .around (.other "table_row") (cellTokens k alignments r))]

/-- The attributes of a list. -/
def listAttributes (mark : ListMark) (start : Nat) : Token.Attributes :=
  match mark with
  | .bullet _ => {}
  | .ordered _ => { ordered := true, start := start }

mutual

/-- The token of a block, if it has one. -/
def Block.token? (o : ReadingOptions) (k : InlineContext) : Block → Option Token
  | .paragraph source => some (.around .paragraph (inlinesOf k source))
  | .heading level source =>
    some (.mk .heading "" { level := some level } none (inlinesOf k source))
  | .code info content =>
    some (.mk .blockCode (.ofList content) { info := some (.ofList info) } none [])
  | .html content => some (.ofRaw .blockHtml (.ofList content))
  | .thematicBreak => some (.bare .thematicBreak)
  | .definition _ => none
  | .quote blocks => some (.around .blockQuote (Block.tokens o k blocks))
  | .list mark start tight items =>
    some (.mk .list "" (listAttributes mark start) (some tight) (Block.tokens o k items))
  | .item blocks =>
    let inside := Block.tokens o k blocks
    match if o.taskItems then itemBox? blocks else none with
    | some (checked, source) =>
      some (.mk (.other "task_list_item") "" { checked := some checked } none
        (.around .paragraph (inlinesOf k source) :: inside.drop 1))
    | none => some (.around (.other "list_item") inside)
  | .table alignments header rows => some (tableToken k alignments header rows)

/-- The tokens of blocks. -/
def Block.tokens (o : ReadingOptions) (k : InlineContext) : List Block → List Token
  | [] => []
  | b :: bs =>
    match b.token? o k with
    | some t => t :: Block.tokens o k bs
    | none => Block.tokens o k bs

end

/-- The tokens of a text. -/
def tokenize (o : ReadingOptions) (text : String) : List Token :=
  let blocks := blocksOf o text.toList
  Block.tokens o ⟨o.strikethrough, Block.definitionsAll blocks⟩ blocks

end Docsite.Markdown
