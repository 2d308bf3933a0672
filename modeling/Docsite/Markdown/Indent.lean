import Docsite.Text.Blank
import Docsite.Text.Lines

/-!
# Docsite.Markdown.Indent

Putting a text into a container by writing something before each of its lines.
-/

namespace Docsite.Markdown

/-- The later lines of a container: `rest` before a line with text, `blank` for an
empty one. -/
def indentLater (rest blank : List Char) (line : List Char) : List Char :=
  if line.isEmpty then blank else rest ++ line

/-- Write `first` before the first line of a text and `rest` before the others.  An
empty first line is `first` without its trailing white space, an empty later line is
`blank`. -/
def indentLines (first rest blank : List Char) (s : List Char) : List Char :=
  match Text.lines s with
  | [] => []
  | l :: ls =>
    Text.unlines ((if l.isEmpty then Text.trimEnd first else first ++ l)
      :: ls.map (indentLater rest blank))

end Docsite.Markdown
