import Docsite.Markdown.Block.Basic

/-!
# Docsite.Markdown.Block.Start

Which block a line begins, if it begins one.

A line may go on a paragraph that is open just where the line stands (`Mood.inside`), or
an open paragraph deeper inside that would take any line that begins nothing
(`Mood.lazy`); some blocks do not begin there.
-/

namespace Docsite.Markdown

/-- What is open where a line stands. -/
inductive Mood where
  /-- No paragraph that the line could go on. -/
  | free
  /-- A paragraph in the same container. -/
  | inside
  /-- A paragraph in a container that the line does not belong to. -/
  | lazy
  deriving DecidableEq, Repr

/-- A block that a line begins, with the rest of the line for a container. -/
inductive Start where
  | heading (level : Nat) (source : List Char)
  | thematicBreak
  | fenced (fence : Fence)
  | indented (line : List Char)
  | html (ending : RawHtml.BlockEnd) (line : List Char)
  | quote (rest : Line)
  | item (mark : ListMark) (start : Nat) (width : Nat) (rest : Line)
  deriving Repr

/-! ## leaves -/

/-- The text of a heading without the closing run of hash signs, which stands alone or
after white space. -/
def dropClosingHashes (s : List Char) : List Char :=
  let body := Text.trimEnd s
  let stem := Text.dropEndWhile (· == '#') body
  if stem.length = body.length then s
  else if stem.isEmpty then []
  else if stem.getLast?.any Text.isBlank then Text.trimEnd stem
  else s

/-- A heading that begins with hash signs. -/
def headingStart? (s : List Char) : Option Start :=
  let hashes := (s.takeWhile (· == '#')).length
  let rest := s.drop hashes
  if 1 ≤ hashes ∧ hashes ≤ 6 ∧ rest.head?.all Line.isIndent then
    some (.heading hashes (dropClosingHashes (Text.trimWhile isAsciiSpace rest)))
  else none

/-- Is the text three or more of one mark, with nothing but white space besides? -/
def isThematicBreak (s : List Char) : Bool :=
  match s with
  | c :: _ =>
    "*-_".toList.contains c && s.all (fun d => d == c || Line.isIndent d) && 3 ≤ s.count c
  | [] => false

/-- The opening fence of a code block. -/
def fenceStart? (indent : Nat) (s : List Char) : Option Start :=
  match s with
  | c :: _ =>
    let length := (s.takeWhile (· == c)).length
    let info := s.drop length
    if (c == '\x60' || c == '~') && 3 ≤ length && !(c == '\x60' && info.contains '\x60') then
      some (.fenced ⟨c, length, indent, unescape info⟩)
    else none
  | [] => none

/-- The start of a block of HTML. -/
def htmlStart? (mood : Mood) (l : Line) (s : List Char) : Option Start :=
  match s with
  | '<' :: cs =>
    match RawHtml.strongStart? cs with
    | some ending => some (.html ending l.rest)
    | none =>
      if mood = .free ∧ RawHtml.isLoneTag cs then some (.html .beforeBlank l.rest) else none
  | _ => none

/-! ## containers -/

/-- The rest of a line after the mark of a quote and a space. -/
def quoteStart? (l : Line) : Option Line :=
  match l.unindented.rest with
  | '>' :: _ => some ((l.unindented.advance 1).skip 1)
  | _ => none

/-- The mark of a list item, the number it gives to the list, and the mark's length. -/
def itemMark? (s : List Char) : Option (ListMark × Nat × Nat) :=
  match s with
  | '-' :: _ | '+' :: _ | '*' :: _ => (s.head?).map fun c => (.bullet c, 1, 1)
  | _ =>
    let digits := (s.take 9).takeWhile Char.isDigit
    match digits, s.drop digits.length with
    | _ :: _, d :: _ =>
      if d = '.' ∨ d = ')' then
        some (.ordered d, (Unicode.numeral? 10 digits).getD 0, digits.length + 1)
      else none
    | _, _ => none

/-- The start of a list item.  A paragraph in the same container is not ended by an
empty item, nor by one whose number is not one. -/
def itemStart? (mood : Mood) (l : Line) : Option Start :=
  let body := l.unindented
  match itemMark? body.rest with
  | none => none
  | some (mark, number, length) =>
    let after := body.advance length
    let space := after.indent
    if after.isBlank then
      if mood = .inside then none
      else some (.item mark number (l.indent + length + 1) ⟨after.column, []⟩)
    else if space = 0 then none
    else if mood = .inside ∧ number ≠ 1 then none
    else
      let padding := if space ≤ 4 then space else 1
      some (.item mark number (l.indent + length + padding) (after.skip padding))

/-! ## all -/

/-- The block that a line that is not blank begins, if it begins one. -/
def start? (mood : Mood) (l : Line) : Option Start :=
  if 4 ≤ l.indent then
    if mood = .free then some (.indented (l.skip 4).rest) else none
  else
    let s := l.content
    match quoteStart? l with
    | some rest => some (.quote rest)
    | none =>
      match headingStart? s with
      | some start => some start
      | none =>
        match fenceStart? l.indent s with
        | some start => some start
        | none =>
          match htmlStart? mood l s with
          | some start => some start
          | none => if isThematicBreak s then some .thematicBreak else itemStart? mood l

/-- The level of the heading that a line makes of the paragraph before it. -/
def underlineLevel? (l : Line) : Option Nat :=
  match (Text.dropEndWhile Line.isIndent l.content) with
  | c :: cs =>
    if l.indent < 4 ∧ (c :: cs).all (· == c) then
      if c = '=' then some 1 else if c = '-' then some 2 else none
    else none
  | [] => none

end Docsite.Markdown
