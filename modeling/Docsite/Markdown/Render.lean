import Docsite.Document.Node
import Docsite.Markdown.Escape
import Docsite.Markdown.Indent
import Docsite.Markdown.Options
import Docsite.Text.Search

/-!
# Docsite.Markdown.Render

Writing a document as Markdown.

Blocks are written into text first, and a container then puts its mark before the lines
of that text, so code, HTML and lists inside keep their shape.  A text needs to know
where it stands: whether it is in a heading or in a table cell (`Place`).  That is
carried from node to node in the order of writing, because a heading or a table row ends
with the place outside it even where it stands inside another one; the depth of lists
is carried downwards only.

Every kind of node can be written anywhere, also where Markdown has no place for it.
-/

namespace Docsite.Markdown

open Document

/-! ## pieces -/

/-- Texts that are not empty, with a separator between neighbours. -/
def joinBlocks (separator : List Char) (texts : List (List Char)) : List Char :=
  separator.intercalate (texts.filter (!·.isEmpty))

/-- What stands between the blocks of a list: one line feed if it is tight, else two. -/
def spacing (tight : Bool) : List Char := if tight then ['\n'] else ['\n', '\n']

/-- A fenced code block.  The fence is longer than every run of its mark in the code. -/
def codeBlock (o : WritingOptions) (content : List Char) (language : Option String) : List Char :=
  let mark := o.fence.toList
  let length := max o.fenceMin (Text.longestRun mark content + 1)
  let fence := (List.replicate length.toNat mark).flatten
  let ending := if content.isEmpty || content.getLast? == some '\n' then [] else ['\n']
  fence ++ (language.getD "").toList ++ '\n' :: content ++ ending ++ fence

/-- Inline code.  It is closed by more backticks than any run inside, with a space before
a backtick at either end. -/
def inlineCode (content : List Char) : List Char :=
  let ticks := List.replicate (Text.longestRun ['\x60'] content + 1) '\x60'
  let pad := if content.head? == some '\x60' || content.getLast? == some '\x60' then [' '] else []
  ticks ++ pad ++ content ++ pad ++ ticks

/-- The parenthesised part of a link or an image: the target and, if there is one, the
title in double quotes. -/
def targetPart (target : List Char) (title : List Char) : List Char :=
  if title.isEmpty then '(' :: target ++ [')']
  else '(' :: target ++ ' ' :: '"' :: title ++ ['"', ')']

/-- A link around written content.  A URL with spaces stands in angle brackets. -/
def linkAround (content : List Char) (url : String) (title : Option String) : List Char :=
  let url := url.toList
  let target := if url.contains ' ' then '<' :: url ++ ['>'] else url
  let title := Text.replaceAll ['"'] ['\\', '"'] (title.getD "").toList
  '[' :: content ++ ']' :: targetPart target title

/-- An image.  The square brackets of its description are escaped. -/
def image (url alt : String) (title : Option String) : List Char :=
  let alt := Text.replaceAll [']'] ['\\', ']'] (Text.replaceAll ['['] ['\\', '['] alt.toList)
  '!' :: '[' :: alt ++ ']' :: targetPart url.toList (title.getD "").toList

/-- The mark of the item at a position of a list. -/
def itemMark (ordered : Bool) (start : Int) (bullet : Char) (position : Nat) : List Char :=
  if ordered then (toString (start + position)).toList ++ ['.', ' '] else [bullet, ' ']

/-- The bullet of lists at a depth. -/
def bulletAt (o : WritingOptions) (depth : Nat) : Char :=
  (o.bullets.toList[depth % o.bullets.length]?).getD '-'

/-- The body of a list item behind its mark. -/
def placeItem (mark body : List Char) : List Char :=
  indentLines mark (List.replicate mark.length ' ') [] body

/-- The bodies of a list's items behind their marks, from a position on. -/
def placeItems (ordered : Bool) (start : Int) (bullet : Char) :
    Nat → List (List Char) → List (List Char)
  | _, [] => []
  | position, body :: bodies =>
    placeItem (itemMark ordered start bullet position) body
      :: placeItems ordered start bullet (position + 1) bodies

/-- The box of a task item, before its text. -/
def taskBox : Option TaskStatus → List Char
  | none => []
  | some .checked => "[x] ".toList
  | some .unchecked => "[ ] ".toList

/-- A quoted text. -/
def quoteLines (body : List Char) : List Char :=
  indentLines ['>', ' '] ['>', ' '] ['>'] body

/-! ## tables -/

/-- The cells of one line of a table between pipes. -/
def tableLine (cells : List (List Char)) : List Char :=
  '|' :: ' ' :: " | ".toList.intercalate cells ++ [' ', '|']

/-- The mark of a column in the line below the header. -/
def alignmentMark (alignment : Option String) : List Char :=
  match alignment with
  | some "center" => ":---:".toList
  | some "right" => "---:".toList
  | some "left" => ":---".toList
  | _ => "---".toList

/-- A list cut or filled to a length. -/
def fit {α : Type} (n : Nat) (filler : α) (xs : List α) : List α :=
  xs.take n ++ List.replicate (n - xs.length) filler

/-- The lines of a table: the first row, the alignments, and the other rows, all with the
same number of columns. -/
def tableLines (alignments : List (Option String)) (rows : List (List (List Char))) :
    List (List Char) :=
  let columns := (rows.map List.length).foldl max 0
  match rows.map fun cells => tableLine (fit columns [] cells) with
  | [] => []
  | header :: others =>
    header :: tableLine ((fit columns none alignments).map alignmentMark) :: others

/-! ## nodes -/

/-- A leaf as it is written at a place. -/
def writeLeaf (o : WritingOptions) (place : Place) : Leaf → List Char
  | .text content => if o.escapeSpecial then escape place content.toList else content.toList
  | .inlineCode content => inlineCode content.toList
  | .codeBlock content language => codeBlock o content.toList language
  | .htmlBlock content => content.toList
  | .htmlInline content => content.toList
  | .image url alt title => image url alt title
  | .lineBreak => ['\\', '\n']
  | .thematicBreak => ['-', '-', '-']

mutual

/-- A node as it is written at a place and at a depth of lists, and the place after it. -/
def write (o : WritingOptions) (depth : Nat) (place : Place) : Node → List Char × Place
  | .leaf l => (writeLeaf o place l, place)
  | .branch .root kids =>
    let (texts, after) := writeAll o depth place kids
    (joinBlocks (spacing false) texts, after)
  | .branch (.heading level) kids =>
    let (texts, after) := writeAll o depth { place with inHeading := true } kids
    (List.replicate level.toNat '#' ++ ' ' :: texts.flatten, { after with inHeading := false })
  | .branch .quote kids =>
    let (texts, after) := writeAll o depth place kids
    (quoteLines (joinBlocks (spacing false) texts), after)
  | .branch (.list ordered start tight) kids =>
    let (bodies, after) := writeItems o (depth + 1) place tight kids
    ((spacing tight).intercalate (placeItems ordered start (bulletAt o depth) 0 bodies), after)
  | .branch (.item task) kids =>
    let (texts, after) := writeAll o depth place kids
    (placeItem ['-', ' '] (taskBox task ++ joinBlocks (spacing true) texts), after)
  | .branch (.table alignments) kids =>
    let (rows, after) := writeRows o depth place kids
    (Text.unlines (tableLines alignments rows), after)
  | .branch (.row _) kids =>
    let (cells, after) := writeCells o depth { place with inCell := true } kids
    (tableLine cells, { after with inCell := false })
  | .branch .paragraph kids =>
    let (texts, after) := writeAll o depth place kids
    (texts.flatten, after)
  | .branch (.cell _) kids =>
    let (texts, after) := writeAll o depth place kids
    (texts.flatten, after)
  | .branch .emphasis kids =>
    let (texts, after) := writeAll o depth place kids
    (o.emphasis.toList ++ texts.flatten ++ o.emphasis.toList, after)
  | .branch .strong kids =>
    let (texts, after) := writeAll o depth place kids
    ('*' :: '*' :: texts.flatten ++ ['*', '*'], after)
  | .branch .strikethrough kids =>
    let (texts, after) := writeAll o depth place kids
    ('~' :: '~' :: texts.flatten ++ ['~', '~'], after)
  | .branch (.link url title) kids =>
    let (texts, after) := writeAll o depth place kids
    (linkAround texts.flatten url title, after)

/-- Nodes written one after another. -/
def writeAll (o : WritingOptions) (depth : Nat) (place : Place) :
    List Node → List (List Char) × Place
  | [] => ([], place)
  | n :: ns =>
    let (text, between) := write o depth place n
    let (texts, after) := writeAll o depth between ns
    (text :: texts, after)

/-- The bodies of the items of a list.  What is no item stands for a body of its own. -/
def writeItems (o : WritingOptions) (depth : Nat) (place : Place) (tight : Bool) :
    List Node → List (List Char) × Place
  | [] => ([], place)
  | .branch (.item task) kids :: ns =>
    let (texts, between) := writeAll o depth place kids
    let (bodies, after) := writeItems o depth between tight ns
    ((taskBox task ++ joinBlocks (spacing tight) texts) :: bodies, after)
  | n :: ns =>
    let (body, between) := write o depth place n
    let (bodies, after) := writeItems o depth between tight ns
    (body :: bodies, after)

/-- The cells of the rows of a table.  What is no row counts as a row without cells. -/
def writeRows (o : WritingOptions) (depth : Nat) (place : Place) :
    List Node → List (List (List Char)) × Place
  | [] => ([], place)
  | .branch (.row _) kids :: ns =>
    let (cells, between) := writeCells o depth { place with inCell := true } kids
    let (rows, after) := writeRows o depth { between with inCell := false } ns
    (cells :: rows, after)
  | _ :: ns =>
    let (rows, after) := writeRows o depth place ns
    ([] :: rows, after)

/-- The contents of the cells of a row.  What is no cell is left out. -/
def writeCells (o : WritingOptions) (depth : Nat) (place : Place) :
    List Node → List (List Char) × Place
  | [] => ([], place)
  | .branch (.cell _) kids :: ns =>
    let (texts, between) := writeAll o depth place kids
    let (cells, after) := writeCells o depth between ns
    (texts.flatten :: cells, after)
  | _ :: ns => writeCells o depth place ns

end

/-- A written document with line feeds for all line endings, without blank lines at its
ends and without white space at its end. -/
def tidy (s : List Char) : List Char :=
  Text.trimEnd (Text.trimWhile (· == '\n') (Text.normalizeNewlines s))

/-- A document as Markdown, without a line feed at its end. -/
def render (o : WritingOptions) (n : Node) : String :=
  .ofList (tidy (write o 0 {} n).1)

end Docsite.Markdown
