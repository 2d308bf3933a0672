import Docsite.Markdown.Block.Feed
import Docsite.Markdown.Block.Table
import Docsite.Markdown.Options

/-!
# Docsite.Markdown.Block.OfText

The blocks of a whole text.

Lines are added to the open blocks one by one.  Tables are found at the top level only:
where a line has become the text of a paragraph, it and the lines after it may make up a
table, which then takes the place of that line.
-/

namespace Docsite.Markdown

/-- Has the last line, at the top level, become text that is no part of a definition?
Answers with the lines of the paragraph before it. -/
def headerPlace? (b : Body) : Option (List (List Char)) :=
  match b.inner with
  | .paragraph (line :: before) =>
    let (_, rest) := splitDefinitions (Text.unlines (line :: before).reverse)
    if line.length ≤ rest.length then some before else none
  | _ => none

/-- The blocks at the top level after some lines.  The next `taken` lines belong to a
table already, and the next `plain` ones are the header of none. -/
def feedLines (tables : Bool) : List (List Char) → Nat → Nat → Body → Body
  | [], _, _, b => b
  | _ :: ls, taken + 1, plain, b => feedLines tables ls taken plain b
  | l :: ls, 0, plain, b =>
    let fed := b.feed (.whole l)
    match if tables && plain == 0 then Table.attempt l ls else .none with
    | .none => feedLines tables ls 0 (plain - 1) fed
    | .uneven lines =>
      feedLines tables ls 0 (if (headerPlace? fed).isSome then lines else 0) fed
    | .table block lines =>
      match headerPlace? fed with
      | none => feedLines tables ls 0 0 fed
      | some before =>
        let closed := block :: (closeParagraph before).reverse ++ fed.closed
        feedLines tables ls lines 0 ⟨closed, false, fed.spread, .nothing⟩

/-- The lines of a text, without the empty one after a line feed at its end. -/
def linesOf (s : List Char) : List (List Char) :=
  let ls := Text.lines s
  if ls.getLast? == some [] then ls.dropLast else ls

/-- The blocks of a text. -/
def blocksOf (o : ReadingOptions) (s : List Char) : List Block :=
  (feedLines o.tables (linesOf (Text.normalizeNewlines s)) 0 0 {}).settled.reverse

mutual

/-- The definitions in a block. -/
def Block.definitions : Block → List Definition
  | .definition d => [d]
  | .quote blocks => Block.definitionsAll blocks
  | .list _ _ _ items => Block.definitionsAll items
  | .item blocks => Block.definitionsAll blocks
  | _ => []

/-- The definitions in several blocks, in order. -/
def Block.definitionsAll : List Block → List Definition
  | [] => []
  | b :: bs => b.definitions ++ Block.definitionsAll bs

end

end Docsite.Markdown
