import Docsite.Markdown.Block.Start

/-!
# Docsite.Markdown.Block.Feed

Adding a line to the open blocks of a text.

The line goes down the chain of open blocks as far as it belongs to their containers.
Where it leaves the chain it may begin a new block, which ends the open blocks further
down; or it may be a lazy line that goes on the paragraph at the end of the chain; or it
ends those blocks and begins a paragraph.
-/

namespace Docsite.Markdown

/-! ## beginning a block -/

/-- What a block without blocks inside leaves in its container: closed blocks, and what
is open.  A block of HTML may be over with its first line. -/
def beginLeaf : Start → List Block × Open
  | .heading level source => ([.heading level source], .nothing)
  | .thematicBreak => ([.thematicBreak], .nothing)
  | .fenced fence => ([], .fenced fence [])
  | .indented line => ([], .indented [line])
  | .html ending line =>
    if ending.isIn line then ([.html line], .nothing) else ([], .html ending [line])
  | .quote _ | .item _ _ _ _ => ([], .nothing)

/-- What a new container holds after its first line.  `fuel` bounds the depth of the
containers that the line begins. -/
def fill : Nat → Line → List Block × Open
  | 0, l => if l.isBlank then ([], .nothing) else ([], .paragraph [l.content])
  | fuel + 1, l =>
    if l.isBlank then ([], .nothing)
    else
      match start? .free l with
      | none => ([], .paragraph [l.content])
      | some (.quote rest) =>
        let (closed, inner) := fill fuel rest
        ([], .quote closed false false inner)
      | some (.item mark start width rest) =>
        let (closed, inner) := fill fuel rest
        ([], .list mark start [] (some width) closed false false inner)
      | some s => beginLeaf s

/-- What a block that a line begins leaves in its container. -/
def beginBlock : Start → List Block × Open
  | .quote rest =>
    let (closed, inner) := fill rest.rest.length rest
    ([], .quote closed false false inner)
  | .item mark start width rest =>
    let (closed, inner) := fill rest.rest.length rest
    ([], .list mark start [] (some width) closed false false inner)
  | s => beginLeaf s

/-- A container in which a block begins after closed ones. -/
def Body.begin (closed : List Block) (gap spread : Bool) (new : List Block × Open) : Body :=
  ⟨new.1 ++ closed, false, spread || (gap && !closed.isEmpty), new.2⟩

/-! ## leaving a block -/

/-- A container after a line that is not blank and does not belong to its open block. -/
def Open.leave (o : Open) (closed : List Block) (gap spread : Bool) (l : Line) : Body :=
  let settled := o.close.reverse ++ closed
  match start? (if o.endsInParagraph then .lazy else .free) l, o with
  | none, o =>
    if o.endsInParagraph then ⟨closed, false, spread, o.addToParagraph l.content⟩
    else Body.begin settled gap spread ([], .paragraph [l.content])
  | some (.item mark number width rest), .list mark' start items _ closed' gap' spread' inner =>
    if mark = mark' then
      let (done, inner') := fill rest.rest.length rest
      let items := .item (closed'.reverse ++ inner.close) :: items
      ⟨closed, false, spread,
        .list mark start items (some width) done false (spread' || gap') inner'⟩
    else Body.begin settled gap spread (beginBlock (.item mark number width rest))
  | some s, _ => Body.begin settled gap spread (beginBlock s)

/-! ## going on with a block -/

/-- Does a line close a fenced code block? -/
def Fence.closedBy (f : Fence) (l : Line) : Bool :=
  let marks := (l.content.takeWhile (· == f.mark)).length
  l.indent < 4 && f.length ≤ marks && (l.content.drop marks).all Line.isIndent

/-- A container after a line, given its open block. -/
def Open.feed : Open → List Block → Bool → Bool → Line → Body
  | .nothing, closed, gap, spread, l =>
    if l.isBlank then ⟨closed, true, spread, .nothing⟩ else Open.nothing.leave closed gap spread l
  | .paragraph lines, closed, gap, spread, l =>
    let goOn (mood : Mood) : Body :=
      match start? mood l with
      | some s => Body.begin ((closeParagraph lines).reverse ++ closed) gap spread (beginBlock s)
      | none => ⟨closed, false, spread, .paragraph (l.content :: lines)⟩
    if l.isBlank then ⟨(closeParagraph lines).reverse ++ closed, true, spread, .nothing⟩
    else
      match underlineLevel? l with
      | none => goOn .inside
      | some level =>
        match (closeParagraph lines).reverse with
        | .paragraph source :: before =>
          ⟨.heading level source :: before ++ closed, false, spread, .nothing⟩
        | _ => goOn .free
  | .fenced fence lines, closed, _, spread, l =>
    if fence.closedBy l then
      ⟨(Open.fenced fence lines).close ++ closed, false, spread, .nothing⟩
    else ⟨closed, false, spread, .fenced fence ((l.skip fence.indent).rest :: lines)⟩
  | .indented lines, closed, gap, spread, l =>
    if l.isBlank then ⟨closed, true, spread, .indented ((l.skip 4).rest :: lines)⟩
    else if 4 ≤ l.indent then ⟨closed, false, spread, .indented ((l.skip 4).rest :: lines)⟩
    else (Open.indented lines).leave closed gap spread l
  | .html ending lines, closed, _, spread, l =>
    if ending = .beforeBlank ∧ l.isBlank then
      ⟨(Open.html ending lines).close ++ closed, true, spread, .nothing⟩
    else if ending.isIn l.rest then
      ⟨(Open.html ending (l.rest :: lines)).close ++ closed, false, spread, .nothing⟩
    else ⟨closed, l.isBlank, spread, .html ending (l.rest :: lines)⟩
  | .quote closed' gap' spread' inner, closed, gap, spread, l =>
    match if l.indent < 4 then quoteStart? l else none with
    | some rest =>
      let b := inner.feed closed' gap' spread' rest
      ⟨closed, false, spread, .quote b.closed b.gap b.spread b.inner⟩
    | none =>
      let o := Open.quote closed' gap' spread' inner
      if l.isBlank then ⟨o.close ++ closed, true, spread, .nothing⟩
      else o.leave closed gap spread l
  | .list mark start items width closed' gap' spread' inner, closed, gap, spread, l =>
    let ended : Open := .list mark start items none closed' true spread' inner
    match width with
    | none =>
      if l.isBlank then ⟨closed, true, spread, ended⟩
      else (Open.list mark start items none closed' gap' spread' inner).leave closed gap spread l
    | some w =>
      if l.isBlank && closed'.isEmpty && inner matches .nothing then
        ⟨closed, true, spread, ended⟩
      else if l.isBlank || w ≤ l.indent then
        let b := inner.feed closed' gap' spread' (if l.isBlank then .whole [] else l.skip w)
        ⟨closed, b.gap, spread, .list mark start items width b.closed b.gap b.spread b.inner⟩
      else (Open.list mark start items width closed' gap' spread' inner).leave closed gap spread l

/-- A container after a line. -/
def Body.feed (b : Body) (l : Line) : Body := b.inner.feed b.closed b.gap b.spread l

end Docsite.Markdown
