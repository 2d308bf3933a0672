import Docsite.Text.Pattern

/-!
# Docsite.Yaml.Resolve

Plain words that YAML 1.1 reads as something other than a string.

`readsAsOther s` holds if a plain scalar `s` would be read as a boolean, null, a merge
or value key, a number or a timestamp.
-/

namespace Docsite.Yaml

open Text (Pattern)
open Text.Pattern

/-- A decimal digit or the underscore that groups digits. -/
def isGroupedDigit (c : Char) : Bool := c.isDigit || c == '_'

/-- A sign or nothing. -/
def sign : Pattern := optional (one (fun c => c == '-' || c == '+'))

/-- One or more groups `:59` of a number in base sixty. -/
def sexagesimal : Pattern := fun s =>
  upTo (sequence [char ':', optional (one fun c => '0' ≤ c && c ≤ '5'), one Char.isDigit])
    s.length s

/-- The spellings of the booleans; single letters are ordinary words. -/
def booleans : List String :=
  ["yes", "Yes", "YES", "no", "No", "NO", "true", "True", "TRUE", "false", "False", "FALSE",
   "on", "On", "ON", "off", "Off", "OFF"]

/-- The spellings of null, the merge key, the value key, and the lone indicators. -/
def reservedWords : List String :=
  ["", "~", "null", "Null", "NULL", "<<", "=", "!", "&", "*"]

/-- Integers: binary, octal, decimal, hexadecimal and in base sixty. -/
def integer : Pattern :=
  andThen sign <| anyOf
    [sequence [word "0b", many1 (fun c => c == '0' || c == '1' || c == '_')],
     sequence [char '0', many1 (fun c => ('0' ≤ c && c ≤ '7') || c == '_')],
     char '0',
     sequence [one (fun c => '1' ≤ c && c ≤ '9'), many isGroupedDigit],
     sequence [word "0x", many1 (fun c => c.isDigit || ('a' ≤ c && c ≤ 'f')
       || ('A' ≤ c && c ≤ 'F') || c == '_')],
     sequence [one (fun c => '1' ≤ c && c ≤ '9'), many isGroupedDigit, sexagesimal]]

/-- The exponent of a number, with its sign. -/
def exponent : Pattern :=
  sequence [one (fun c => c == 'e' || c == 'E'), one (fun c => c == '-' || c == '+'),
    many1 Char.isDigit]

/-- Floating point numbers, the infinities and the values that are no number. -/
def floating : Pattern :=
  anyOf
    [sequence [sign, one Char.isDigit, many isGroupedDigit, char '.', many isGroupedDigit,
       optional exponent],
     sequence [char '.', one Char.isDigit, many isGroupedDigit, optional exponent],
     sequence [sign, one Char.isDigit, many isGroupedDigit, sexagesimal, char '.',
       many isGroupedDigit],
     sequence [sign, char '.', anyOf [word "inf", word "Inf", word "INF"]],
     sequence [char '.', anyOf [word "nan", word "NaN", word "NAN"]]]

/-- Exactly two digits. -/
def twoDigits : Pattern := sequence [one Char.isDigit, one Char.isDigit]

/-- One digit or two. -/
def oneOrTwoDigits : Pattern := andThen (one Char.isDigit) (optional (one Char.isDigit))

/-- Spaces and tabs, perhaps none. -/
def gap : Pattern := many (fun c => c == ' ' || c == '\t')

/-- Dates, and dates with a time of day. -/
def timestamp : Pattern :=
  let year := sequence [twoDigits, twoDigits]
  anyOf
    [sequence [year, char '-', twoDigits, char '-', twoDigits],
     sequence
       [year, char '-', oneOrTwoDigits, char '-', oneOrTwoDigits,
        anyOf [one (fun c => c == 'T' || c == 't'), many1 (fun c => c == ' ' || c == '\t')],
        oneOrTwoDigits, char ':', twoDigits, char ':', twoDigits,
        optional (andThen (char '.') (many Char.isDigit)),
        optional (andThen gap (anyOf
          [char 'Z',
           sequence [one (fun c => c == '-' || c == '+'), oneOrTwoDigits,
             optional (andThen (char ':') twoDigits)]]))]]

/-- Would a plain scalar be read as anything but a string? -/
def readsAsOther (s : List Char) : Bool :=
  booleans.any (·.toList == s) || reservedWords.any (·.toList == s)
    || integer.matches s || floating.matches s || timestamp.matches s

end Docsite.Yaml
