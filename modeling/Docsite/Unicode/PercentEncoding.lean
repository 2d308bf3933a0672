/-!
# Docsite.Unicode.PercentEncoding

The characters of a URL that stand for themselves, and `%XX` for all the others.

A character outside the safe set is written as its UTF-8 bytes, each as a percent sign
and two upper case hexadecimal digits.  The percent sign itself is safe, so a text that
is encoded already is left as it is.
-/

namespace Docsite.Unicode

/-- Does the character stand for itself in a URL? -/
def isUrlSafe (c : Char) : Bool :=
  c.isAlphanum || "_.-~:/?#@!$&()*+,;=%".toList.contains c

/-- Two upper case hexadecimal digits. -/
def hexByte (b : UInt8) : List Char :=
  let digit (n : Nat) : Char := (Nat.digitChar n).toUpper
  [digit (b.toNat / 16), digit (b.toNat % 16)]

/-- The encoding of one character. -/
def percentEncodeChar (c : Char) : List Char :=
  if isUrlSafe c then [c] else (String.utf8EncodeChar c).flatMap fun b => '%' :: hexByte b

/-- Encode every character outside the safe set. -/
def percentEncode (s : List Char) : List Char := s.flatMap percentEncodeChar

end Docsite.Unicode
