import Docsite.Markdown.Token
import Docsite.Text.Blank
import Docsite.Unicode.Punctuation

/-!
# Docsite.Markdown.Inline.Emphasis

Runs of `*`, `_` and `~~`, and the emphasis that they make up.

Whether a run may open or close emphasis is settled by the characters around it.  The
runs of a text are then taken from left to right: one that may close looks for the
nearest open run that it pairs with, and everything between the two becomes the inside of
a token.  A pair uses up one mark of each run, or two where both still have two; two make
strong emphasis.  What is left over is text.
-/

namespace Docsite.Markdown

/-! ## runs -/

/-- A run of one mark. -/
structure Run where
  mark : Char
  /-- The marks of the run in the text. -/
  length : Nat
  /-- The marks that no pair has used yet. -/
  left : Nat
  opens : Bool
  closes : Bool
  deriving DecidableEq, Repr

/-- A piece of a text whose emphasis is still to be found. -/
inductive Piece where
  | token (t : Token)
  | run (r : Run)
  deriving Repr

namespace Run

/-- Does a run lean against the character after it, given the one before? -/
def leans (before after : Char) : Bool :=
  !Unicode.isSpacing after
    && (!Unicode.isPunctuation after || Unicode.isSpacing before || Unicode.isPunctuation before)

/-- A run of emphasis marks between two characters.  One of underscores neither opens nor
closes inside a word. -/
def ofEmphasis (mark : Char) (length : Nat) (before after : Char) : Run :=
  let left := leans before after
  let right := leans after before
  if mark = '_' then
    ⟨mark, length, length, left && (!right || Unicode.isPunctuation before),
      right && (!left || Unicode.isPunctuation after)⟩
  else ⟨mark, length, length, left, right⟩

/-- The two tildes at the end of a run between two characters.  They close what is struck
out only if they are the whole run. -/
def ofTildes (length : Nat) (before after : Char) : Run :=
  ⟨'~', 2, 2, !Text.isBlank after, length == 2 && !Text.isBlank before⟩

/-- Does an open run pair with one that closes?  Where one of two runs of emphasis marks
could do both, their lengths may not add up to a multiple of three, unless both are
multiples of three. -/
def pairs (opening closing : Run) : Bool :=
  opening.mark == closing.mark
    && (closing.mark == '~' || !(opening.closes || closing.opens) || closing.length % 3 == 0
      || (opening.length + closing.length) % 3 != 0)

/-- The marks that a pair uses up. -/
def used (opening closing : Run) : Nat := if 2 ≤ opening.left ∧ 2 ≤ closing.left then 2 else 1

/-- A run of which a pair has used some marks. -/
def use (n : Nat) (r : Run) : Run := { r with left := r.left - n }

/-- The text of what is left of a run. -/
def text (r : Run) : Token := .ofRaw .text (.ofList (List.replicate r.left r.mark))

/-- The kind of token that a pair makes. -/
def kind (opening closing : Run) : Token.Kind :=
  if closing.mark = '~' then .strikethrough
  else if used opening closing = 2 then .strong
  else .emphasis

end Run

/-! ## pairing -/

/-- A run that is open, and the tokens between the open run below it and itself, the last
first. -/
structure OpenRun where
  run : Run
  before : List Token
  deriving Repr

/-- The open runs, the innermost first, and the tokens after the innermost, the last
first. -/
structure Emphasis where
  stack : List OpenRun := []
  tokens : List Token := []
  deriving Repr

namespace Emphasis

/-- The tokens of open runs that are never closed, before some tokens; all lists have the
last first. -/
def flatten (tokens : List Token) : List OpenRun → List Token
  | [] => tokens
  | o :: os => tokens ++ o.run.text :: flatten o.before os

/-- The open runs above the nearest one that pairs with a run, that one, and those
below. -/
def nearest? (r : Run) : List OpenRun → Option (List OpenRun × OpenRun × List OpenRun)
  | [] => none
  | o :: os =>
    if o.run.pairs r then some ([], o, os)
    else (nearest? r os).map fun (above, found, below) => (o :: above, found, below)

/-- A run that closes nothing is opened if it may be, and is text otherwise.  Text that
is struck out is not struck out again. -/
def leave (e : Emphasis) (r : Run) : Emphasis :=
  if r.opens && !(r.mark == '~' && e.stack.any (·.run.mark == '~')) then
    ⟨⟨r, e.tokens⟩ :: e.stack, []⟩
  else { e with tokens := r.text :: e.tokens }

/-- Pair a run with the nearest open one as long as marks of it are left; every pair uses
up at least one of `fuel` marks. -/
def meet : Nat → Emphasis → Run → Emphasis
  | 0, e, r => if r.left = 0 then e else e.leave r
  | fuel + 1, e, r =>
    if r.left = 0 then e
    else
      match if r.closes then nearest? r e.stack else none with
      | none => e.leave r
      | some (above, o, below) =>
        let n := o.run.used r
        let token := Token.around (o.run.kind r) (flatten e.tokens above).reverse
        let e' : Emphasis :=
          if o.run.left ≤ n then ⟨below, token :: o.before⟩
          else ⟨⟨o.run.use n, o.before⟩ :: below, [token]⟩
        e'.meet fuel (r.use n)

/-- Add a piece. -/
def add (e : Emphasis) : Piece → Emphasis
  | .token t => { e with tokens := t :: e.tokens }
  | .run r => e.meet r.length r

/-- The tokens of all that was added. -/
def finish (e : Emphasis) : List Token := (flatten e.tokens e.stack).reverse

end Emphasis

/-- The tokens of a sequence of pieces. -/
def Piece.tokens (pieces : List Piece) : List Token :=
  (pieces.foldl Emphasis.add {}).finish

end Docsite.Markdown
