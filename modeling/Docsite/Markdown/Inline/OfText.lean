import Docsite.Markdown.Inline.Emphasis
import Docsite.Markdown.Inline.Span
import Docsite.Markdown.RawHtml

/-!
# Docsite.Markdown.Inline.OfText

The tokens of the text inside a block.

The text is read from left to right, one piece at a time (`Reading.step`).  An opening
bracket may turn out to begin a link or an image when its closing bracket is met, so the
pieces before it are kept in a frame of their own until then.  A link holds no other
link: once one is found, the brackets around it can only begin images.
-/

namespace Docsite.Markdown

/-- What the reading of inline text depends on. -/
structure InlineContext where
  strikethrough : Bool
  definitions : List Definition

/-- An opening bracket that is not closed yet. -/
structure Bracket where
  image : Bool
  /-- May the bracket still begin what it stands for? -/
  active : Bool
  /-- The text behind the bracket. -/
  inside : List Char
  /-- The pieces before the bracket, back to the one before, the last first. -/
  before : List Piece

/-- A piece of plain text. -/
def Piece.text (s : List Char) : Piece := .token (.ofRaw .text (.ofList s))

/-- The text of a bracket that begins nothing. -/
def Bracket.text (b : Bracket) : Piece := .text (if b.image then ['!', '['] else ['['])

/-- What has been read of a text. -/
structure Reading where
  /-- The last character; before the first, a line feed stands for the edge. -/
  last : Char := '\n'
  /-- The pieces after the innermost bracket, the last first. -/
  pieces : List Piece := []
  brackets : List Bracket := []

namespace Reading

/-- Add a piece that ends with a character. -/
def add (r : Reading) (last : Char) (p : Piece) : Reading :=
  { r with last := last, pieces := p :: r.pieces }

/-- Add plain text that ends with a character. -/
def addText (r : Reading) (s : List Char) (last : Char) : Reading := r.add last (.text s)

/-! ## pieces -/

/-- Does the character begin anything but plain text? -/
def isSpecial (c : Char) : Bool :=
  "\\\x60<![]*_~".toList.contains c || isAsciiSpace c

/-- Read white space.  With a line feed in it, it is a line break, a hard one behind two
spaces. -/
def space (r : Reading) (s : List Char) : Reading × List Char :=
  let white := s.takeWhile isAsciiSpace
  let rest := s.dropWhile isAsciiSpace
  if white.contains '\n' then
    let hard := [' ', ' '].isPrefixOf (white.takeWhile (· != '\n')).reverse
    (r.add '\n' (.token (.bare (if hard then .lineBreak else .softBreak))), rest)
  else (r.addText white (white.getLast?.getD ' '), rest)

/-- Read what follows a backslash. -/
def escape (r : Reading) (s : List Char) : Reading × List Char :=
  match s with
  | '\n' :: cs => (r.add '\n' (.token (.bare .lineBreak)), cs.dropWhile isAsciiSpace)
  | c :: cs =>
    if Unicode.isAsciiPunctuation c then (r.addText [c] c, cs) else (r.addText ['\\'] '\\', s)
  | [] => (r.addText ['\\'] '\\', [])

/-- Read a run of backticks and the code behind it. -/
def code (r : Reading) (s : List Char) : Reading × List Char :=
  let ticks := s.takeWhile (· == '\x60')
  let rest := s.dropWhile (· == '\x60')
  match codeSpan? ticks.length rest with
  | some (code, rest) => (r.add '\x60' (.token (.ofRaw .codeSpan (.ofList code))), rest)
  | none => (r.addText ticks '\x60', rest)

/-- Read what follows `<`. -/
def angle (r : Reading) (s : List Char) : Reading × List Char :=
  match autolink? s with
  | some (written, url, rest) =>
    let inside := [Token.ofRaw .text (.ofList written)]
    (r.add '>' (.token (.mk .link "" { url } none inside)), rest)
  | none =>
    match RawHtml.afterPiece? s with
    | some rest =>
      let html := '<' :: s.take (s.length - rest.length)
      (r.add '>' (.token (.ofRaw .inlineHtml (.ofList html))), rest)
    | none => (r.addText ['<'] '<', s)

/-- Read a run of marks of emphasis. -/
def marks (c : Char) (r : Reading) (s : List Char) : Reading × List Char :=
  let length := (s.takeWhile (· == c)).length
  let rest := s.dropWhile (· == c)
  (r.add c (.run (.ofEmphasis c length r.last (rest.head?.getD '\n'))), rest)

/-- Read a run of tildes.  All but the last two are text, and so is a single one. -/
def tildes (r : Reading) (s : List Char) : Reading × List Char :=
  let run := s.takeWhile (· == '~')
  let rest := s.dropWhile (· == '~')
  if run.length < 2 then (r.addText run '~', rest)
  else
    let r' := if run.length = 2 then r else r.addText (run.drop 2) '~'
    (r'.add '~' (.run (.ofTildes run.length r.last (rest.head?.getD '\n'))), rest)

/-- Read an opening bracket; `s` is the text behind it. -/
def openBracket (image : Bool) (r : Reading) (s : List Char) : Reading × List Char :=
  (⟨'[', [], ⟨image, true, s, r.pieces⟩ :: r.brackets⟩, s)

/-- Brackets around a link; they cannot begin links of their own. -/
def aroundLink (bs : List Bracket) : List Bracket :=
  bs.map fun b => { b with active := b.active && b.image }

/-- Read a closing bracket; `s` is the text behind it. -/
def closeBracket (ds : List Definition) (r : Reading) (s : List Char) : Reading × List Char :=
  match r.brackets with
  | [] => (r.addText [']'] ']', s)
  | b :: bs =>
    match if b.active then linkTarget? ds b.inside s else none with
    | some (target, rest) =>
      let kind := if b.image then Token.Kind.image else .link
      let token := Token.mk kind "" { url := target.url, title := target.title } none
        (Piece.tokens r.pieces.reverse)
      (⟨')', .token token :: b.before, if b.image then bs else aroundLink bs⟩, rest)
    | none => (⟨']', .text [']'] :: r.pieces ++ b.text :: b.before, bs⟩, s)

/-- Read one piece of a text that is not empty. -/
def step (k : InlineContext) (r : Reading) (c : Char) (s : List Char) : Reading × List Char :=
  if isAsciiSpace c then r.space (c :: s)
  else
    match c with
    | '\\' => r.escape s
    | '\x60' => r.code (c :: s)
    | '<' => r.angle s
    | '*' | '_' => r.marks c (c :: s)
    | '~' => if k.strikethrough then r.tildes (c :: s) else (r.addText [c] c, s)
    | '!' =>
      match s with
      | '[' :: cs => r.openBracket true cs
      | _ => (r.addText [c] c, s)
    | '[' => r.openBracket false s
    | ']' => r.closeBracket k.definitions s
    | _ =>
      let plain := s.takeWhile (!isSpecial ·)
      (r.addText (c :: plain) ((c :: plain).getLast?.getD c), s.drop plain.length)

/-! ## whole texts -/

/-- Read a text to its end; every piece takes at least one of `fuel` characters. -/
def run (k : InlineContext) : Nat → Reading → List Char → Reading
  | 0, r, _ => r
  | _ + 1, r, [] => r
  | fuel + 1, r, c :: cs =>
    let (r', rest) := r.step k c cs
    run k fuel r' rest

/-- All pieces; brackets that are never closed are text. -/
def allPieces (r : Reading) : List Piece :=
  (r.pieces ++ r.brackets.flatMap fun b => b.text :: b.before).reverse

end Reading

/-- Is the character left out at the ends of a text? -/
def isOuterSpace (c : Char) : Bool :=
  c == ' ' || c == '\t' || c == '\n' || c == '\r' || c.toNat == 0x0C

/-- The tokens of a text inside a block; an empty one has a token too. -/
def inlinesOf (k : InlineContext) (source : List Char) : List Token :=
  match Text.trimWhile isOuterSpace source with
  | [] => [.ofRaw .text ""]
  | s => Piece.tokens (Reading.run k s.length {} s).allPieces

end Docsite.Markdown
