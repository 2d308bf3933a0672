import Docsite.Text.Blank
import Docsite.Yaml.Scalar

/-!
# Docsite.Proofs.Yaml.Reader

Block mappings of YAML, read line by line.

The reader takes the mappings in which every entry stands on a line of its own: a plain key, a
colon, and a scalar in any of the three styles.  Only a plain scalar can be something other than a
string; what it is hangs on its text alone (`tagOf`).  Whatever would go on over the end of a line,
and whatever is no scalar, is refused.
-/

namespace Docsite.Yaml

/-! ## values -/

/-- The type of a scalar. -/
inductive Tag where
  | string
  | boolean
  | null
  | number
  | date
  /-- The merge key, the value key, and an indicator that stands alone. -/
  | reserved
  deriving DecidableEq, Repr

/-- A scalar that was read. -/
structure Value where
  tag : Tag
  text : List Char
  deriving DecidableEq, Repr

/-- The spellings of null. -/
def nulls : List String := ["", "~", "null", "Null", "NULL"]

/-- The type of a plain scalar. -/
def tagOf (s : List Char) : Tag :=
  if booleans.any (·.toList == s) then .boolean
  else if reservedWords.any (·.toList == s) then
    if nulls.any (·.toList == s) then .null else .reserved
  else if integer.matches s || floating.matches s then .number
  else if timestamp.matches s then .date
  else .string

theorem tagOf_eq_string_iff (s : List Char) : tagOf s = .string ↔ readsAsOther s = false := by
  simp only [tagOf, readsAsOther, Bool.or_eq_false_iff]
  cases booleans.any (·.toList == s) <;> cases reservedWords.any (·.toList == s) <;>
    cases nulls.any (·.toList == s) <;> cases integer.matches s <;>
    cases floating.matches s <;> cases timestamp.matches s <;> decide

/-! ## plain scalars -/

/-- May the character stand in a line as it is?  The other line breaks of YAML may not, nor may
control characters. -/
def isLineChar (c : Char) : Bool :=
  let n := c.toNat
  c == '\t' || (0x20 ≤ n && n ≤ 0x7E)
    || (0xA0 ≤ n && n ≤ 0xFFFD && n != 0x2028 && n != 0x2029) || 0x10000 ≤ n

/-- Nothing comes, or a separator. -/
def isSeparated (s : List Char) : Bool := s.isEmpty || s.head?.any isSeparator

/-- Does a plain scalar begin here?  It begins with no indicator, except with one of three that has
something directly behind it. -/
def beginsPlain : List Char → Bool
  | [] => false
  | c :: cs =>
    if "-?:".toList.contains c then !isSeparated cs
    else !isSeparator c && !"#,[]\x7b\x7d&*!|>'\"%@\x60".toList.contains c

/-- Is a plain scalar over at a character?  It is at a colon that marks a key, before a comment, and
at any white space other than spaces. -/
def stopsPlain (c : Char) (cs : List Char) : Bool :=
  (c == ':' && isSeparated cs) || (isSeparator c && (c != ' ' || cs.head? == some '#'))

/-- The characters up to where a plain scalar is over, and the rest of the line. -/
def plainSpan : List Char → List Char × List Char
  | [] => ([], [])
  | c :: cs =>
    if stopsPlain c cs then ([], c :: cs)
    else (c :: (plainSpan cs).1, (plainSpan cs).2)

/-- A plain scalar has no spaces at its end. -/
def plain (s : List Char) : Value :=
  let text := Text.dropEndWhile (· == ' ') s
  ⟨tagOf text, text⟩

/-! ## quoted scalars -/

/-- The text up to the closing quote, and the rest of the line.  A quote that is doubled stands for
itself. -/
def readSingle : List Char → Option (List Char × List Char)
  | [] => none
  | '\'' :: '\'' :: cs => (readSingle cs).map fun (s, rest) => ('\'' :: s, rest)
  | '\'' :: cs => some ([], cs)
  | c :: cs => (readSingle cs).map fun (s, rest) => (c :: s, rest)

/-- The value of a hexadecimal digit. -/
def hexValue? (c : Char) : Option Nat :=
  if '0' ≤ c ∧ c ≤ '9' then some (c.toNat - '0'.toNat)
  else if 'a' ≤ c ∧ c ≤ 'f' then some (c.toNat - 'a'.toNat + 10)
  else if 'A' ≤ c ∧ c ≤ 'F' then some (c.toNat - 'A'.toNat + 10)
  else none

/-- One digit more. -/
def addDigit (value : Option Nat) (c : Char) : Option Nat :=
  value.bind fun n => (hexValue? c).map fun d => n * 16 + d

/-- The number that hexadecimal digits spell. -/
def ofHexadecimal? (digits : List Char) : Option Nat := digits.foldl addDigit (some 0)

/-- How many hexadecimal digits follow the letter of an escape. -/
def escapeWidths : List (Char × Nat) := [('x', 2), ('u', 4), ('U', 8)]

/-- What the other escapes stand for. -/
def escapeMeanings : List (Char × Nat) :=
  [('0', 0x00), ('a', 0x07), ('b', 0x08), ('t', 0x09), ('\t', 0x09), ('n', 0x0A), ('v', 0x0B),
   ('f', 0x0C), ('r', 0x0D), ('e', 0x1B), (' ', 0x20), ('"', 0x22), ('/', 0x2F), ('\\', 0x5C),
   ('N', 0x85), ('_', 0xA0), ('L', 0x2028), ('P', 0x2029)]

/-- The character of an escape, and how many characters the escape has behind its backslash. -/
def readEscape : List Char → Option (Char × Nat)
  | [] => none
  | c :: cs =>
    match escapeWidths.lookup c with
    | some width =>
      if cs.length < width then none
      else ((ofHexadecimal? (cs.take width)).filter fun n => n.isValidChar).map fun n =>
        (Char.ofNat n, width + 1)
    | none => (escapeMeanings.lookup c).map fun n => (Char.ofNat n, 1)

/-- The text up to the closing quote, and the rest of the line, after passing over the next `skip`
characters. -/
def readDouble : Nat → List Char → Option (List Char × List Char)
  | _, [] => none
  | skip + 1, _ :: cs => readDouble skip cs
  | 0, c :: cs =>
    if c = '"' then some ([], cs)
    else if c = '\\' then
      (readEscape cs).bind fun (d, taken) =>
        (readDouble taken cs).map fun (s, rest) => (d :: s, rest)
    else (readDouble 0 cs).map fun (s, rest) => (c :: s, rest)

/-! ## mappings -/

/-- Is there nothing left on a line but spaces, and a comment behind them? -/
def closesLine (rest : List Char) : Bool :=
  let behind := rest.dropWhile (· == ' ')
  behind.isEmpty || (rest.head? == some ' ' && behind.head? == some '#')

/-- A value, if nothing else stands behind it. -/
def alone (v : Value) (rest : List Char) : Option Value := if closesLine rest then some v else none

/-- The scalar that begins with the first character and takes all of the line. -/
def readScalar : List Char → Option Value
  | [] => some (plain [])
  | c :: cs =>
    if c = '\'' then (readSingle cs).bind fun (s, rest) => alone ⟨.string, s⟩ rest
    else if c = '"' then (readDouble 0 cs).bind fun (s, rest) => alone ⟨.string, s⟩ rest
    else if beginsPlain (c :: cs) then
      alone (plain (plainSpan (c :: cs)).1) (plainSpan (c :: cs)).2
    else none

/-- Does the line mark the beginning or the end of a document? -/
def isDocumentMark (l : List Char) : Bool :=
  ["---".toList, "...".toList].any fun mark => mark.isPrefixOf l && isSeparated (l.drop 3)

/-- The key and the value of a line. -/
def readEntry (l : List Char) : Option (Value × Value) :=
  if beginsPlain l && !isDocumentMark l then
    match (plainSpan l).2 with
    | ':' :: cs => (readScalar (cs.dropWhile (· == ' '))).map fun v => (plain (plainSpan l).1, v)
    | _ => none
  else none

/-- The entries of a mapping that is given by its lines, in order. -/
def readMapping (ls : List (List Char)) : Option (List (Value × Value)) :=
  if ls.all (·.all isLineChar) then ls.mapM readEntry else none

/-- A word by itself is a string, a date is a date, and a comment belongs to neither. -/
example : readMapping ["a: b  # c".toList, "d: 2020-01-02".toList, "e: '~'".toList] =
    some [(⟨.string, ['a']⟩, ⟨.string, ['b']⟩), (⟨.string, ['d']⟩, ⟨.date, "2020-01-02".toList⟩),
      (⟨.string, ['e']⟩, ⟨.string, ['~']⟩)] := by
  decide +kernel

end Docsite.Yaml
