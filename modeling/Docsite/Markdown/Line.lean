import Docsite.Text.Blank

/-!
# Docsite.Markdown.Line

What is left of a line when its beginning has been taken by containers.

Indentation counts in columns.  A tab reaches to the next column that is a multiple of
four; where a container takes only a part of a tab, the rest of it stays as spaces.
-/

namespace Docsite.Markdown

/-- The rest of a line and the column in which it begins. -/
structure Line where
  column : Nat
  rest : List Char
  deriving DecidableEq, Repr

namespace Line

/-- A whole line. -/
def whole (s : List Char) : Line := ⟨0, s⟩

/-- Is the character a space or a tab? -/
def isIndent (c : Char) : Bool := c == ' ' || c == '\t'

/-- The columns that a tab takes from a column on. -/
def tabWidth (column : Nat) : Nat := 4 - column % 4

/-- The columns of white space at the start of a text that begins in a column. -/
def indentFrom (column : Nat) : List Char → Nat
  | ' ' :: cs => 1 + indentFrom (column + 1) cs
  | '\t' :: cs => tabWidth column + indentFrom (column + tabWidth column) cs
  | _ => 0

/-- The indentation of a line in columns. -/
def indent (l : Line) : Nat := indentFrom l.column l.rest

/-- Take at most `n` columns of white space off a text that begins in a column. -/
def skipFrom (n column : Nat) : List Char → Line
  | [] => ⟨column, []⟩
  | c :: cs =>
    if n = 0 then ⟨column, c :: cs⟩
    else if c = ' ' then skipFrom (n - 1) (column + 1) cs
    else if c = '\t' then
      if tabWidth column ≤ n then skipFrom (n - tabWidth column) (column + tabWidth column) cs
      else ⟨column + n, List.replicate (tabWidth column - n) ' ' ++ cs⟩
    else ⟨column, c :: cs⟩

/-- Take at most `n` columns of indentation off a line. -/
def skip (n : Nat) (l : Line) : Line := skipFrom n l.column l.rest

/-- The line from its first character that is no indentation. -/
def unindented (l : Line) : Line := l.skip l.indent

/-- The text of a line without its indentation. -/
def content (l : Line) : List Char := l.rest.dropWhile isIndent

/-- Take `n` characters off a line, each one column wide. -/
def advance (n : Nat) (l : Line) : Line := ⟨l.column + n, l.rest.drop n⟩

/-- Is there nothing on the line but white space? -/
def isBlank (l : Line) : Bool :=
  l.rest.all fun c => isIndent c || c.toNat == 0x0B || c.toNat == 0x0C

end Line

end Docsite.Markdown
