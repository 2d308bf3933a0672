import Docsite.Markdown.Block.Basic

/-!
# Docsite.Markdown.Block.Table

Tables: a header line, a line of delimiters, and lines of cells.

A header comes in two forms.  A *boxed* line begins and ends with a pipe, and these two
pipes are no part of its cells; all other lines of its table are boxed too.  A *bare*
line only holds a pipe, and so do the other lines of its table.  Cells are divided by
every pipe that is not escaped, in code too.
-/

namespace Docsite.Markdown

/-- The two forms of tables. -/
inductive TableForm where
  | boxed
  | bare
  deriving DecidableEq, Repr

namespace Table

/-- Is the character white space around a cell? -/
def isCellSpace (c : Char) : Bool :=
  c == ' ' || c == '\t' || c == '\r' || c == '\n' || c.toNat == 0x0C

/-- The pieces of a text between its pipes, without white space around them.  `escaped`
says that the character before was an unescaped backslash. -/
def splitPipes (escaped : Bool) : List Char → List (List Char)
  | [] => [[]]
  | c :: cs =>
    if c = '|' ∧ !escaped then [] :: splitPipes false cs
    else
      match splitPipes (c == '\\' && !escaped) cs with
      | [] => [[c]]
      | cell :: cells => (c :: cell) :: cells

/-- The cells of a text. -/
def cellsOf (s : List Char) : List (List Char) :=
  (splitPipes false s).map (Text.trimWhile isCellSpace)

/-- The text between the outer pipes of a boxed line, which only spaces come before. -/
def boxed? (line : List Char) : Option (List Char) :=
  match Text.dropEndWhile Line.isIndent (line.dropWhile (· == ' ')) with
  | '|' :: cs => if cs.getLast? == some '|' && 2 ≤ cs.length then some cs.dropLast else none
  | _ => none

/-- The form of the table that a line may be the header of. -/
def headerForm? (line : List Char) : Option TableForm :=
  if (Line.whole line).indent < 4 then
    if (boxed? line).isSome then some .boxed
    else if (((Line.whole line).content.drop 1).contains '|') then some .bare
    else none
  else none

/-- The cells of a line of a table, if the line has the table's form. -/
def cells? (form : TableForm) (line : List Char) : Option (List (List Char)) :=
  match form with
  | .boxed => (boxed? line).map cellsOf
  | .bare => if line.contains '|' then some (cellsOf line) else none

/-- The alignment that a cell of the delimiter line stands for. -/
def alignment? (cell : List Char) : Option (Option Alignment) :=
  let (left, rest) := match cell with
    | ':' :: cs => (true, cs)
    | cs => (false, cs)
  let dashes := Text.dropEndWhile (· == ':') rest
  let right := rest.length - dashes.length
  if cell.isEmpty then some none
  else if dashes.isEmpty || !dashes.all (· == '-') || 1 < right then none
  else
    match left, right with
    | true, 0 => some (some .left)
    | true, _ => some (some .center)
    | false, 0 => some none
    | false, _ => some (some .right)

/-- The alignments that a delimiter line stands for; its first cell is not empty. -/
def alignments? (form : TableForm) (line : List Char) : Option (List (Option Alignment)) :=
  match cells? form line with
  | some ([] :: _) => none
  | some cells => cells.mapM alignment?
  | none => none

/-- What a line and those after it make up. -/
inductive Attempt where
  /-- No table. -/
  | none
  /-- A table that takes a number of lines after its header. -/
  | table (block : Block) (taken : Nat)
  /-- No table, because not all lines have the same number of cells; as many lines after
  the header are plain text too. -/
  | uneven (plain : Nat)

/-- The table whose header is a line, given the lines after it. -/
def attempt (header : List Char) : List (List Char) → Attempt
  | [] => .none
  | delimiters :: later =>
    match headerForm? header with
    | none => .none
    | some form =>
      match cells? form header, alignments? form delimiters with
      | some names, some alignments =>
        let rows := ((later.map (cells? form)).takeWhile Option.isSome).filterMap id
        if alignments.length = names.length ∧ rows.all (·.length == names.length) then
          .table (.table alignments names rows) (rows.length + 1)
        else .uneven (if form = .boxed then rows.length + 1 else 0)
      | _, _ => .none

end Table

end Docsite.Markdown
