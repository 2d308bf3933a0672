import Docsite.Markdown.Line
import Docsite.Markdown.RawHtml
import Docsite.Text.Lines

/-!
# Docsite.Markdown.Block.Basic

The blocks of a text, with the source of their inline content still unread.

A block is closed when no later line can add to it; until then it is open.  An open
container holds the blocks that are closed inside it, the last first, and at most one
block that is open, so the open blocks of a text form one chain from the outermost
container to the innermost block.
-/

namespace Docsite.Markdown

/-! ## closed blocks -/

/-- The kind of a list, which all its items share. -/
inductive ListMark where
  | bullet (mark : Char)
  | ordered (delimiter : Char)
  deriving DecidableEq, Repr

/-- How the cells of a column stand. -/
inductive Alignment where
  | left
  | center
  | right
  deriving DecidableEq, Repr

/-- The name of an alignment. -/
def Alignment.name : Alignment → String
  | .left => "left"
  | .center => "center"
  | .right => "right"

/-- A closed block. -/
inductive Block where
  | paragraph (source : List Char)
  | heading (level : Nat) (source : List Char)
  | code (info : List Char) (content : List Char)
  | html (content : List Char)
  | thematicBreak
  | definition (d : Definition)
  | quote (blocks : List Block)
  | list (mark : ListMark) (start : Nat) (tight : Bool) (items : List Block)
  | item (blocks : List Block)
  | table (alignments : List (Option Alignment)) (header : List (List Char))
      (rows : List (List (List Char)))
  deriving Repr

/-! ## open blocks -/

/-- The fence of a code block. -/
structure Fence where
  mark : Char
  length : Nat
  /-- The indentation of the fence, which is taken off the lines of the code too. -/
  indent : Nat
  info : List Char
  deriving DecidableEq, Repr

/-- An open block; lines and closed blocks stand with the last first.  `gap` says that
the last line of a container was blank, and `spread` that a blank line separates two of
its blocks, or two items of a list or two blocks of an item of it. -/
inductive Open where
  | nothing
  | paragraph (lines : List (List Char))
  | fenced (fence : Fence) (lines : List (List Char))
  | indented (lines : List (List Char))
  | html (ending : RawHtml.BlockEnd) (lines : List (List Char))
  | quote (closed : List Block) (gap spread : Bool) (inner : Open)
  /-- A list and its last item.  The item goes on as long as lines are indented by
  `width`; it has none once it is over. -/
  | list (mark : ListMark) (start : Nat) (items : List Block) (width : Option Nat)
      (closed : List Block) (gap spread : Bool) (inner : Open)
  deriving Repr

/-- The inside of a container while it is open. -/
structure Body where
  closed : List Block := []
  gap : Bool := false
  spread : Bool := false
  inner : Open := .nothing
  deriving Repr

/-! ## closing -/

/-- The blocks of a paragraph that is over: the definitions at its start, and the
paragraph itself if there is something left of it. -/
def closeParagraph (lines : List (List Char)) : List Block :=
  let (ds, rest) := splitDefinitions (Text.unlines lines.reverse)
  ds.map .definition ++ (if rest.all isAsciiSpace then [] else [.paragraph rest])

/-- The text of an indented code block: blank lines at its end are none of its lines. -/
def indentedText (lines : List (List Char)) : List Char :=
  Text.unlines ((lines.dropWhile fun l => l.all Line.isIndent).reverse)

/-- The lines of a text, each with a line feed at its end. -/
def terminated (lines : List (List Char)) : List Char :=
  lines.flatMap fun l => l ++ ['\n']

/-- The blocks that an open block leaves when it is over. -/
def Open.close : Open → List Block
  | .nothing => []
  | .paragraph lines => closeParagraph lines
  | .fenced fence lines => [.code fence.info (terminated lines.reverse)]
  | .indented lines => [.code [] (indentedText lines)]
  | .html _ lines => [.html (Text.unlines lines.reverse)]
  | .quote closed _ _ inner => [.quote (closed.reverse ++ inner.close)]
  | .list mark start items _ closed _ spread inner =>
    [.list mark start (!spread) (items.reverse ++ [.item (closed.reverse ++ inner.close)])]

/-- The closed blocks of a body when its open block is over, the last first. -/
def Body.settled (b : Body) : List Block := b.inner.close.reverse ++ b.closed

/-- Is the innermost open block a paragraph? -/
def Open.endsInParagraph : Open → Bool
  | .paragraph _ => true
  | .quote _ _ _ inner => inner.endsInParagraph
  | .list _ _ _ _ _ _ _ inner => inner.endsInParagraph
  | _ => false

/-- Add a line to the paragraph that is the innermost open block. -/
def Open.addToParagraph (line : List Char) : Open → Open
  | .paragraph lines => .paragraph (line :: lines)
  | .quote closed gap spread inner => .quote closed gap spread (inner.addToParagraph line)
  | .list mark start items width closed gap spread inner =>
    .list mark start items width closed gap spread (inner.addToParagraph line)
  | o => o

end Docsite.Markdown
