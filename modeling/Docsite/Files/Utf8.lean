/-!
# Docsite.Files.Utf8

Bytes as UTF-8 text.

Decoding stops at the first byte that no well-formed text can have there, and reports
which bytes are at fault: the longest beginning of a character that was right up to that
byte, or the one byte with which no character begins.
-/

namespace Docsite.Files.Utf8

/-- Why bytes are no text. -/
inductive Reason where
  | invalidStart
  | invalidContinuation
  | unexpectedEnd
  deriving DecidableEq, Repr

/-- The wording of a reason. -/
def Reason.message : Reason → String
  | .invalidStart => "invalid start byte"
  | .invalidContinuation => "invalid continuation byte"
  | .unexpectedEnd => "unexpected end of data"

/-- Bytes at fault: the first of them with its position, and how many there are. -/
structure DecodeError where
  byte : UInt8
  position : Nat
  length : Nat
  reason : Reason
  deriving DecidableEq, Repr

/-- The wording of an error. -/
def DecodeError.message (e : DecodeError) : String :=
  let hex (n : Nat) : Char := Nat.digitChar n
  let place :=
    if e.length = 1 then
      "byte 0x" ++ .ofList [hex (e.byte.toNat / 16), hex (e.byte.toNat % 16)] ++ " in position "
        ++ toString e.position
    else
      "bytes in position " ++ toString e.position ++ "-" ++ toString (e.position + e.length - 1)
  "'utf-8' codec can't decode " ++ place ++ ": " ++ e.reason.message

/-- What a first byte calls for: the number of bytes that follow it, the least and the
greatest value of the next one, and the bits that it gives to the character. -/
structure Lead where
  following : Nat
  least : Nat
  greatest : Nat
  bits : Nat

/-- What a byte calls for at the start of a character. -/
def lead? (b : Nat) : Option Lead :=
  if b ≤ 0x7F then some ⟨0, 0, 0, b⟩
  else if b < 0xC2 then none
  else if b ≤ 0xDF then some ⟨1, 0x80, 0xBF, b - 0xC0⟩
  else if b = 0xE0 then some ⟨2, 0xA0, 0xBF, 0⟩
  else if b = 0xED then some ⟨2, 0x80, 0x9F, 0xD⟩
  else if b ≤ 0xEF then some ⟨2, 0x80, 0xBF, b - 0xE0⟩
  else if b = 0xF0 then some ⟨3, 0x90, 0xBF, 0⟩
  else if b ≤ 0xF3 then some ⟨3, 0x80, 0xBF, b - 0xF0⟩
  else if b = 0xF4 then some ⟨3, 0x80, 0x8F, 4⟩
  else none

/-- A character that is being read: the bytes still owed, the bounds of the next one, the
bits so far, and the first byte with the number of bytes read. -/
structure Pending where
  owed : Nat
  least : Nat
  greatest : Nat
  bits : Nat
  first : UInt8
  count : Nat

/-- Decode bytes that begin at a position. -/
def decodeFrom (position : Nat) (pending : Option Pending) :
    List UInt8 → Except DecodeError (List Char)
  | [] =>
    match pending with
    | none => .ok []
    | some p => .error ⟨p.first, position - p.count, p.count, .unexpectedEnd⟩
  | b :: bs =>
    match pending with
    | none =>
      match lead? b.toNat with
      | none => .error ⟨b, position, 1, .invalidStart⟩
      | some l =>
        if l.following = 0 then
          (decodeFrom (position + 1) none bs).map (Char.ofNat l.bits :: ·)
        else decodeFrom (position + 1) (some ⟨l.following, l.least, l.greatest, l.bits, b, 1⟩) bs
    | some p =>
      if p.least ≤ b.toNat ∧ b.toNat ≤ p.greatest then
        let bits := p.bits * 64 + (b.toNat - 0x80)
        if p.owed = 1 then (decodeFrom (position + 1) none bs).map (Char.ofNat bits :: ·)
        else decodeFrom (position + 1) (some ⟨p.owed - 1, 0x80, 0xBF, bits, p.first, p.count + 1⟩) bs
      else .error ⟨p.first, position - p.count, p.count, .invalidContinuation⟩

/-- The text that bytes encode, or the first fault. -/
def decode (bytes : List UInt8) : Except DecodeError (List Char) := decodeFrom 0 none bytes

/-- The bytes of a text. -/
def encode (s : List Char) : List UInt8 := s.flatMap String.utf8EncodeChar

end Docsite.Files.Utf8
