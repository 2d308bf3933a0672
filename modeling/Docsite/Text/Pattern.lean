/-!
# Docsite.Text.Pattern

Patterns over texts, for small formats that are given as regular expressions.

A pattern maps a text to every rest that it can leave after a match at the start, so
alternatives need no backtracking: `p.matches s` holds if some way of matching leaves
nothing.
-/

namespace Docsite.Text

/-- A pattern, as the rests that its matches at the start of a text leave. -/
abbrev Pattern := List Char → List (List Char)

namespace Pattern

/-- One character of a class. -/
def one (p : Char → Bool) : Pattern
  | c :: cs => if p c then [cs] else []
  | [] => []

/-- One given character. -/
def char (c : Char) : Pattern := one (· == c)

/-- A fixed word. -/
def word (w : String) : Pattern := fun s =>
  if w.toList.isPrefixOf s then [s.drop w.length] else []

/-- One pattern after another. -/
def andThen (p q : Pattern) : Pattern := fun s => (p s).flatMap q

/-- Patterns one after another. -/
def sequence (ps : List Pattern) : Pattern := ps.foldr andThen fun s => [s]

/-- Any of several patterns. -/
def anyOf (ps : List Pattern) : Pattern := fun s => ps.flatMap (· s)

/-- A pattern or nothing. -/
def optional (p : Pattern) : Pattern := fun s => s :: p s

/-- Any number of characters of a class. -/
def many (p : Char → Bool) : Pattern
  | [] => [[]]
  | c :: cs => (c :: cs) :: if p c then many p cs else []

/-- At least one character of a class. -/
def many1 (p : Char → Bool) : Pattern := andThen (one p) (many p)

/-- At least one and at most `n` matches of a pattern in a row. -/
def upTo (p : Pattern) : Nat → Pattern
  | 0 => fun _ => []
  | n + 1 => fun s => (p s).flatMap fun rest => rest :: upTo p n rest

/-- Does the pattern match the whole text? -/
def «matches» (p : Pattern) (s : List Char) : Bool := (p s).any List.isEmpty

end Pattern

end Docsite.Text
