import Docsite.Yaml.Resolve

/-!
# Docsite.Yaml.Scalar

String scalars of a YAML block mapping.

A scalar is written plain where that reads back as the same string, else in single
quotes, and in double quotes where only escapes can show its characters.  Lines are
never folded.
-/

namespace Docsite.Yaml

/-- The ways of writing a string. -/
inductive Style where
  | plain
  | single
  | double
  deriving DecidableEq, Repr

/-- Is the character a line break? -/
def isBreak (c : Char) : Bool :=
  c == '\n' || c.toNat == 0x85 || c.toNat == 0x2028 || c.toNat == 0x2029

/-- Does the character separate an indicator from what follows? -/
def isSeparator (c : Char) : Bool :=
  c.toNat == 0 || c == ' ' || c == '\t' || c == '\r' || isBreak c

/-- Can the character be shown without an escape? -/
def isShowable (c : Char) : Bool :=
  let n := c.toNat
  c == '\n' || (0x20 ≤ n && n ≤ 0x7E) || n == 0x85
    || ((0xA0 ≤ n && n ≤ 0xFFFD || 0x10000 ≤ n && n ≤ 0x10FFFE) && n != 0xFEFF)

/-- Do two neighbours of a text satisfy `p` and `q`? -/
def hasNeighbours (p q : Char → Bool) : List Char → Bool
  | a :: b :: cs => (p a && q b) || hasNeighbours p q (b :: cs)
  | _ => false

/-- Only a double quoted scalar can hold the text: it has a character that needs an
escape, or a space beside a line break. -/
def needsEscapes (s : List Char) : Bool :=
  s.any (!isShowable ·) || hasNeighbours (· == ' ') isBreak s || hasNeighbours isBreak (· == ' ') s

/-- A colon before a separator or the end, or a hash sign after a separator, would end
a plain scalar. -/
def endsPlain : List Char → Bool
  | [] => false
  | [c] => c == ':'
  | a :: b :: cs => (a == ':' && isSeparator b) || (isSeparator a && b == '#') || endsPlain (b :: cs)

/-- The text begins with a character, or a character and a separator, that YAML takes
for an indicator. -/
def startsWithIndicator : List Char → Bool
  | [] => false
  | c :: cs =>
    "#,[]\x7b\x7d&*!|>'\"%@\x60".toList.contains c
      || ("-?:".toList.contains c && (cs.isEmpty || cs.head?.any isSeparator))

/-- Does the text read back as itself without quotes? -/
def isPlain (s : List Char) : Bool :=
  !s.isEmpty && s.head? != some ' ' && s.getLast? != some ' ' && !s.any isBreak
    && !"---".toList.isPrefixOf s && !"...".toList.isPrefixOf s
    && !startsWithIndicator s && !endsPlain s && !readsAsOther s

/-- The style in which a text is written. -/
def styleOf (s : List Char) : Style :=
  if needsEscapes s then .double else if isPlain s then .plain else .single

/-- The body of a single quoted scalar.  A quote is doubled.  A run of line breaks gets
one line feed more if it begins with a line feed, and the next line is indented by two
spaces.  `inBreaks` says that the character before was a line break. -/
def singleQuoted (inBreaks : Bool) : List Char → List Char
  | [] => if inBreaks then [' ', ' '] else []
  | c :: cs =>
    if isBreak c then
      (if !inBreaks && c == '\n' then ['\n', '\n'] else [c]) ++ singleQuoted true cs
    else
      (if inBreaks then [' ', ' '] else [])
        ++ (if c == '\'' then ['\'', '\''] else [c]) ++ singleQuoted false cs

/-- Upper case hexadecimal digits of a number, filled with zeros to a width. -/
def hexadecimal (width n : Nat) : List Char :=
  let ds := (Nat.toDigits 16 n).map Char.toUpper
  List.replicate (width - ds.length) '0' ++ ds

/-- The characters whose escape is a single letter. -/
def escapeLetters : List (Nat × Char) :=
  [(0x00, '0'), (0x07, 'a'), (0x08, 'b'), (0x09, 't'), (0x0A, 'n'), (0x0B, 'v'), (0x0C, 'f'),
   (0x0D, 'r'), (0x1B, 'e'), (0x22, '"'), (0x5C, '\\'), (0x85, 'N'), (0x2028, 'L'), (0x2029, 'P')]

/-- One character of a double quoted scalar.  Only characters of the basic plane are
shown as they are. -/
def doubleQuotedChar (c : Char) : List Char :=
  let n := c.toNat
  match escapeLetters.lookup n with
  | some letter => ['\\', letter]
  | none =>
    if (0x20 ≤ n && n ≤ 0x7E) || (0xA0 ≤ n && n ≤ 0xFFFD && n != 0xFEFF) then [c]
    else if n ≤ 0xFF then '\\' :: 'x' :: hexadecimal 2 n
    else if n ≤ 0xFFFF then '\\' :: 'u' :: hexadecimal 4 n
    else '\\' :: 'U' :: hexadecimal 8 n

/-- A string scalar as it is written. -/
def scalar (s : List Char) : List Char :=
  match styleOf s with
  | .plain => s
  | .single => '\'' :: singleQuoted false s ++ ['\'']
  | .double => '"' :: s.flatMap doubleQuotedChar ++ ['"']

end Docsite.Yaml
