import Docsite.Unicode.Alphanumeric

/-!
# Docsite.Markdown.Escape

Backslashes in plain text, so that it is read back as plain text.

Some characters are escaped wherever they stand.  Others matter in one place only: a
hash sign, or the last character of a mark that opens a block, at the start of a line;
an underscore that does not stand between two letters or digits; a pipe in a table
cell.  Text in a heading or in a table cell cannot open a block.
-/

namespace Docsite.Markdown

/-- Where a text stands, as far as escaping depends on it. -/
structure Place where
  inHeading : Bool := false
  inCell : Bool := false
  deriving DecidableEq, Repr

/-- The characters that are escaped wherever they stand. -/
def isAlwaysEscaped (c : Char) : Bool := "\\\x60*\x7b\x7d[]<".toList.contains c

/-- The number of digits before the `.` or `)` of an ordered list mark: one to nine
decimal digits of any script. -/
def orderedMark? (line : List Char) : Option Nat :=
  let digits := (line.take 9).takeWhile Unicode.isDecimalDigit
  match line.drop digits.length with
  | c :: _ => if !digits.isEmpty && (c == '.' || c == ')') then some digits.length else none
  | [] => none

/-- Is the line an underline of equals signs, spaces and tabs following? -/
def isUnderline (line : List Char) : Bool :=
  match line.dropWhile (· == '=') with
  | rest =>
    line.head? == some '='
      && (rest.dropWhile (fun c => c == ' ' || c == '\t')).head?.all (· == '\n')

/-- The position of the character to escape in a text that starts a line, if the line
would open a block: a bullet, a quote, an ordered list or an underlined heading. -/
def blockMark? (line : List Char) : Option Nat :=
  if line.head?.any ("-+>".toList.contains ·) then some 0
  else
    match orderedMark? line with
    | some n => some n
    | none => if isUnderline line then some 0 else none

/-- Is the character a letter or digit, and is there one? -/
def isWordChar (c : Option Char) : Bool := c.any Unicode.isAlphanumeric

/-- Escape what remains of a text.  `before` is the character before it, and `mark` the
distance to the character that would open a block on this line. -/
def escapeFrom (place : Place) (before : Option Char) (mark : Option Nat) :
    List Char → List Char
  | [] => []
  | c :: cs =>
    let lineStart := before.all (· == '\n')
    let mark :=
      if lineStart then
        if place.inHeading || place.inCell then none else blockMark? (c :: cs)
      else mark
    let escaped :=
      isAlwaysEscaped c || mark == some 0 || (c == '#' && lineStart)
        || (c == '_' && !(isWordChar before && isWordChar cs.head?)) || (c == '|' && place.inCell)
    let rest := escapeFrom place (some c) (mark.bind fun n => if n = 0 then none else some (n - 1)) cs
    if escaped then '\\' :: c :: rest else c :: rest

/-- A text with backslashes before every character that would be read as Markdown. -/
def escape (place : Place) (s : List Char) : List Char := escapeFrom place none none s

end Docsite.Markdown
