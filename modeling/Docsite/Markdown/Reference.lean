import Docsite.Text.Blank
import Docsite.Unicode.CaseFold
import Docsite.Unicode.CharacterReference
import Docsite.Unicode.PercentEncoding
import Docsite.Unicode.Punctuation

/-!
# Docsite.Markdown.Reference

Where links point: destinations, titles, labels, and the definitions that give a label
its destination.

Each reader takes the text from the place where its part begins and answers with the part
and with what follows it.
-/

namespace Docsite.Markdown

/-- The target of a link: its address and, if there is one, its title. -/
structure Target where
  url : String
  title : Option String
  deriving DecidableEq, Repr

/-- The definition of a label. -/
structure Definition where
  /-- The label in the form in which labels are compared. -/
  label : List Char
  target : Target
  deriving DecidableEq, Repr

/-! ## escapes -/

/-- A text in which a backslash before ASCII punctuation is dropped. -/
def unescape : List Char → List Char
  | '\\' :: c :: cs =>
    if Unicode.isAsciiPunctuation c then c :: unescape cs else '\\' :: unescape (c :: cs)
  | c :: cs => c :: unescape cs
  | [] => []

/-- The address of a destination as it is written: escapes and character references are
replaced, and the result is encoded. -/
def addressOf (destination : List Char) : String :=
  .ofList (Unicode.percentEncode (Unicode.decodeReferences (unescape destination)))

/-- The title of a target; an empty one counts as none. -/
def titleOf (title : Option (List Char)) : Option String :=
  (title.filter (!·.isEmpty)).map fun t => .ofList (unescape t)

/-! ## destinations -/

/-- Is the character white space in ASCII? -/
def isAsciiSpace (c : Char) : Bool :=
  c == ' ' || (0x09 ≤ c.toNat && c.toNat ≤ 0x0D)

/-- The inside of a destination in angle brackets. -/
def angleDestination? : List Char → Option (List Char × List Char)
  | [] => none
  | '>' :: cs => some ([], cs)
  | '\n' :: _ => none
  | '<' :: _ => none
  | '\\' :: c :: cs =>
    if Unicode.isAsciiPunctuation c then
      (angleDestination? cs).map fun (d, rest) => ('\\' :: c :: d, rest)
    else (angleDestination? (c :: cs)).map fun (d, rest) => ('\\' :: d, rest)
  | c :: cs => (angleDestination? cs).map fun (d, rest) => (c :: d, rest)

/-- A destination without angle brackets, inside `depth` open parentheses.  It ends
before white space, a control character or a parenthesis that closes none of its own. -/
def bareDestination (depth : Nat) : List Char → Option (List Char × List Char)
  | [] => if depth = 0 then some ([], []) else none
  | '\\' :: c :: cs =>
    if Unicode.isAsciiPunctuation c then
      (bareDestination depth cs).map fun (d, rest) => ('\\' :: c :: d, rest)
    else (bareDestination depth (c :: cs)).map fun (d, rest) => ('\\' :: d, rest)
  | c :: cs =>
    if c.toNat ≤ 0x20 || c.toNat == 0x7F || (c == ')' && depth == 0) then
      if depth = 0 then some ([], c :: cs) else none
    else
      let inner := if c = '(' then depth + 1 else if c = ')' then depth - 1 else depth
      (bareDestination inner cs).map fun (d, rest) => (c :: d, rest)

/-- A destination of either form. -/
def destination? : List Char → Option (List Char × List Char)
  | '<' :: cs => angleDestination? cs
  | cs => bareDestination 0 cs

/-! ## titles -/

/-- The inside of a title up to the character that closes it.  One that is closed by a
parenthesis holds no opening one. -/
def titleUntil? (close : Char) : List Char → Option (List Char × List Char)
  | [] => none
  | '\\' :: c :: cs =>
    if Unicode.isAsciiPunctuation c then
      (titleUntil? close cs).map fun (t, rest) => ('\\' :: c :: t, rest)
    else (titleUntil? close (c :: cs)).map fun (t, rest) => ('\\' :: t, rest)
  | c :: cs =>
    if c = close then some ([], cs)
    else if c = '(' ∧ close = ')' then none
    else (titleUntil? close cs).map fun (t, rest) => (c :: t, rest)

/-- A title in double quotes, single quotes or parentheses. -/
def title? : List Char → Option (List Char × List Char)
  | '"' :: cs => titleUntil? '"' cs
  | '\'' :: cs => titleUntil? '\'' cs
  | '(' :: cs => titleUntil? ')' cs
  | _ => none

/-! ## labels -/

/-- The inside of a label after its opening bracket, at most `room` characters long. -/
def labelInside? (room : Nat) : List Char → Option (List Char × List Char)
  | [] => none
  | ']' :: cs => some ([], cs)
  | '[' :: _ => none
  | '\\' :: c :: cs =>
    if room < 2 then none
    else if Unicode.isAsciiPunctuation c then
      (labelInside? (room - 2) cs).map fun (l, rest) => ('\\' :: c :: l, rest)
    else (labelInside? (room - 1) (c :: cs)).map fun (l, rest) => ('\\' :: l, rest)
  | c :: cs =>
    if room = 0 then none
    else (labelInside? (room - 1) cs).map fun (l, rest) => (c :: l, rest)

/-- A label that is not blank, after its opening bracket. -/
def label? (s : List Char) : Option (List Char × List Char) :=
  (labelInside? 999 s).filter fun (l, _) => l.any (!Text.isBlank ·)

/-- The words of a text between white space, with one space between neighbours.
`pending` says that white space came before. -/
def collapse (pending : Bool) : List Char → List Char
  | [] => []
  | c :: cs =>
    if Text.isBlank c then collapse true cs
    else if pending then ' ' :: c :: collapse false cs
    else c :: collapse false cs

/-- A label in the form in which labels are compared: the case does not matter, nor how
much white space stands between words. -/
def normalLabel (label : List Char) : List Char :=
  Unicode.foldCase (collapse false (Text.trim label))

/-! ## definitions -/

/-- Is the character a space or a tab? -/
def isIndentSpace (c : Char) : Bool := c == ' ' || c == '\t'

/-- What follows white space with at most one line feed in it. -/
def skipToNext (s : List Char) : List Char :=
  match s.dropWhile isIndentSpace with
  | '\n' :: cs => cs.dropWhile isIndentSpace
  | cs => cs

/-- What follows if the line is over here. -/
def lineEnd? (s : List Char) : Option (List Char) :=
  match s.dropWhile isIndentSpace with
  | [] => some []
  | '\n' :: cs => some cs
  | _ => none

/-- The title of a definition and what follows its line; there has to be white space
before the title and nothing after it. -/
def definitionTitle? (s : List Char) : Option (List Char × List Char) :=
  let next := skipToNext s
  if next.length = s.length then none
  else
    match title? next with
    | some (t, rest) => (lineEnd? rest).map fun rest => (t, rest)
    | none => none

/-- A definition at the start of a paragraph, and what follows it. -/
def definition? (s : List Char) : Option (Definition × List Char) :=
  match s with
  | '[' :: cs =>
    match label? cs with
    | some (label, ':' :: cs) =>
      let cs := skipToNext cs
      match cs, destination? cs with
      | c :: _, some (destination, rest) =>
        if destination.isEmpty && c != '<' then none
        else
          let define (title : Option (List Char)) : Definition :=
            ⟨normalLabel label, ⟨addressOf destination, titleOf title⟩⟩
          match definitionTitle? rest with
          | some (t, rest) => some (define (some t), rest)
          | none => (lineEnd? rest).map fun rest => (define none, rest)
      | _, _ => none
    | _ => none
  | _ => none

/-- The definitions at the start of a paragraph and the rest of it; each takes at least
one of `fuel` characters. -/
def takeDefinitions : Nat → List Char → List Definition × List Char
  | 0, s => ([], s)
  | fuel + 1, s =>
    match definition? s with
    | some (d, rest) =>
      let (ds, rest) := takeDefinitions fuel rest
      (d :: ds, rest)
    | none => ([], s)

/-- The definitions at the start of a paragraph and the rest of it. -/
def splitDefinitions (s : List Char) : List Definition × List Char :=
  takeDefinitions s.length s

/-- The target of a label; the first definition counts. -/
def target? (ds : List Definition) (label : List Char) : Option Target :=
  (ds.find? (·.label == normalLabel label)).map (·.target)

end Docsite.Markdown
