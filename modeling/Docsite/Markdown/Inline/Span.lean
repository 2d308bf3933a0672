import Docsite.Markdown.Line
import Docsite.Markdown.Reference

/-!
# Docsite.Markdown.Inline.Span

Spans inside a paragraph whose text is not read as Markdown: code, addresses in angle
brackets, and the target in parentheses that follows the text of a link.

Each reader takes the text from behind the mark that begins the span, and answers with
the span and what follows it.
-/

namespace Docsite.Markdown

/-! ## code -/

/-- The text before the first run of exactly `n` backticks, and the text after the run.
`run` backticks in a row, which are part of `seen`, came before. -/
def untilBackticks? (n run : Nat) (seen : List Char) : List Char → Option (List Char × List Char)
  | [] => if run = n then some ((seen.drop n).reverse, []) else none
  | c :: cs =>
    if c = '\x60' then untilBackticks? n (run + 1) (c :: seen) cs
    else if run = n then some ((seen.drop n).reverse, c :: cs)
    else untilBackticks? n 0 (c :: seen) cs

/-- The code of a span: a line feed counts as a space, and one space on both sides is
taken off, unless there is nothing but spaces. -/
def codeOf (s : List Char) : List Char :=
  let s := s.map fun c => if c = '\n' then ' ' else c
  if s.head? = some ' ' ∧ s.getLast? = some ' ' ∧ s.any (· != ' ') then (s.drop 1).dropLast else s

/-- The code of a span that `n` backticks began. -/
def codeSpan? (n : Nat) (s : List Char) : Option (List Char × List Char) :=
  (untilBackticks? n 0 [] s).map fun (code, rest) => (codeOf code, rest)

/-! ## addresses -/

/-- Does the character belong to a scheme, behind its first letter? -/
def isSchemeChar (c : Char) : Bool := c.isAlphanum || "+.-".toList.contains c

/-- Is the text an absolute address: a scheme of two to thirty-two characters, a colon,
and anything? -/
def isAbsolute (s : List Char) : Bool :=
  let scheme := s.takeWhile (· != ':')
  scheme.length < s.length && 2 ≤ scheme.length && scheme.length ≤ 32
    && scheme.head?.any Char.isAlpha && scheme.all isSchemeChar

/-- Does the character belong to the name before the at sign of a mail address? -/
def isMailChar (c : Char) : Bool :=
  c.isAlphanum || ".!#$%&'*+/=?^_\x60\x7b|\x7d~-".toList.contains c

/-- Is the text a name of a domain: at most sixty-three letters, digits and hyphens, with
no hyphen at either end? -/
def isDomainName (s : List Char) : Bool :=
  s.length ≤ 63 && s.all (fun c => c.isAlphanum || c == '-')
    && s.head?.any Char.isAlphanum && s.getLast?.any Char.isAlphanum

/-- Is the text a mail address? -/
def isMail (s : List Char) : Bool :=
  let name := s.takeWhile (· != '@')
  let domain := s.drop (name.length + 1)
  name.length < s.length && !name.isEmpty && name.all isMailChar
    && (Text.splitAt '.' domain).all isDomainName

/-- An address in angle brackets, as it is written and as a URL. -/
def autolink? (s : List Char) : Option (List Char × String × List Char) :=
  let inside := s.takeWhile fun c => c != '<' && c != '>' && 0x20 < c.toNat
  match s.drop inside.length with
  | '>' :: rest =>
    let url := Unicode.percentEncode (Unicode.decodeReferences inside)
    if isAbsolute inside then some (inside, .ofList url, rest)
    else if isMail inside then some (inside, .ofList ("mailto:".toList ++ url), rest)
    else none
  | _ => none

/-! ## targets -/

/-- A target in parentheses: a destination, and perhaps a title after white space. -/
def inlineTarget? (s : List Char) : Option (Target × List Char) :=
  match destination? (skipToNext s) with
  | none => none
  | some (destination, rest) =>
    let next := skipToNext rest
    let (title, rest) :=
      match if next.length = rest.length then none else title? next with
      | some (title, rest) => (some title, rest)
      | none => (none, rest)
    match skipToNext rest with
    | ')' :: rest => some (⟨addressOf destination, titleOf title⟩, rest)
    | _ => none

/-- The target that a label in brackets names, or, if the brackets are empty or missing,
the one that the text of the link itself names.  `inside` is the text behind the link's
opening bracket, and `s` the text behind its closing one. -/
def labelTarget? (ds : List Definition) (inside s : List Char) : Option (Target × List Char) :=
  let own (rest : List Char) : Option (Target × List Char) :=
    match label? inside with
    | some (label, behind) =>
      if behind.length = s.length then (target? ds label).map fun target => (target, rest) else none
    | none => none
  match s with
  | '[' :: cs =>
    match labelInside? 999 cs with
    | some ([], rest) => own rest
    | some (label, rest) => (target? ds label).map fun target => (target, rest)
    | none => own s
  | _ => own s

/-- The target of a link, from the texts behind its two brackets. -/
def linkTarget? (ds : List Definition) (inside s : List Char) : Option (Target × List Char) :=
  match s with
  | '(' :: cs =>
    match inlineTarget? cs with
    | some found => some found
    | none => labelTarget? ds inside s
  | _ => labelTarget? ds inside s

end Docsite.Markdown
