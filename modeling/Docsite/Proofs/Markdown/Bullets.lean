import Docsite.Document.OfTokens
import Docsite.Proofs.Markdown.Words

/-!
# Docsite.Proofs.Markdown.Bullets

Lines of a bullet and a word.

Such a line begins an item of a list, and one that follows it goes on the list.  With a backslash
before the bullet it is text like any other: it goes on a paragraph, and the backslash is no part
of what it says.
-/

namespace Docsite.Markdown

open Document

/-- A line with a bullet. -/
def bulleted (bullet : Char) (w : List Char) : List Char := bullet :: ' ' :: w

/-- The same line as text, with a backslash before the bullet. -/
def escaped (bullet : Char) (w : List Char) : List Char := '\\' :: bulleted bullet w

/-! ## lists -/

/-- What an item of one word holds. -/
theorem fill_word {w : List Char} (h : IsWord w) (column : Nat) :
    fill w.length ⟨column, w⟩ = ([], .paragraph [w]) := by
  obtain ⟨c, cs, rfl, plain⟩ := h.cons
  have quiet := isQuiet_of_isPlain plain
  rw [List.length_cons, fill, isBlank_mk quiet, if_neg Bool.false_ne_true, start?_mk quiet]
  simp only [content_mk (isIndent_of_isQuiet quiet)]

section

variable {bullet : Char} (is : bullet = '-' ∨ bullet = '+') {w : List Char} (h : IsWord w)
include is h

/-- A line with a bullet begins an item. -/
theorem start?_bulleted (mood : Mood) :
    start? mood (.whole (bulleted bullet w)) = some (.item (.bullet bullet) 1 2 ⟨2, w⟩) := by
  obtain ⟨c, cs, rfl, plain⟩ := h.cons
  have indent : Line.isIndent bullet = false := by rcases is with rfl | rfl <;> decide
  have quote : quoteStart? ⟨0, bulleted bullet (c :: cs)⟩ = none := by
    rw [bulleted, quoteStart?, unindented_mk indent]
    rcases is with rfl | rfl <;> rfl
  have heading : headingStart? (bulleted bullet (c :: cs)) = none := by
    rcases is with rfl | rfl <;> rfl
  have fence : fenceStart? 0 (bulleted bullet (c :: cs)) = none := by
    rcases is with rfl | rfl <;> rfl
  have html : htmlStart? mood ⟨0, bulleted bullet (c :: cs)⟩ (bulleted bullet (c :: cs)) = none := by
    rcases is with rfl | rfl <;> rfl
  have rule : isThematicBreak (bulleted bullet (c :: cs)) = false := by
    have other : c ≠ bullet := by
      rcases is with rfl | rfl <;> exact ne_of_isPlain plain (by decide)
    simp [isThematicBreak, bulleted, other, isIndent_of_isPlain plain]
  have start : (Line.mk 0 (bulleted bullet (c :: cs))).indent = 0 := indent_mk indent _ _
  have content : (Line.mk 0 (bulleted bullet (c :: cs))).content = bulleted bullet (c :: cs) :=
    content_mk indent _ _
  have whole : (Line.mk 0 (bulleted bullet (c :: cs))).unindented =
      ⟨0, bulleted bullet (c :: cs)⟩ := unindented_mk indent _ _
  have item : itemStart? mood ⟨0, bulleted bullet (c :: cs)⟩ =
      some (.item (.bullet bullet) 1 2 ⟨2, c :: cs⟩) := by
    have mark : itemMark? (bulleted bullet (c :: cs)) = some (.bullet bullet, 1, 1) := by
      rcases is with rfl | rfl <;> rfl
    have after : (Line.mk 0 (bulleted bullet (c :: cs))).advance 1 = ⟨1, ' ' :: c :: cs⟩ := rfl
    have space : (Line.mk 1 (' ' :: c :: cs)).indent = 1 := by
      have none := indent_mk (isIndent_of_isPlain plain) 2 cs
      rw [Line.indent] at none
      rw [Line.indent, Line.indentFrom, none]
    have rest : (Line.mk 1 (' ' :: c :: cs)).skip 1 = ⟨2, c :: cs⟩ := by
      simp [Line.skip, Line.skipFrom]
    have filled : (Line.mk 1 (' ' :: c :: cs)).isBlank = false := by
      have filled := isBlank_mk (isQuiet_of_isPlain plain) 2 cs
      rw [Line.isBlank] at filled ⊢
      rw [List.all_cons, filled, Bool.and_false]
    simp [itemStart?, whole, mark, after, space, filled, rest, start]
  rw [Line.whole, start?, start, content, if_neg (by decide)]
  simp only [quote, heading, fence, html, rule, item, Bool.false_eq_true, if_false]

/-- Where nothing is open, a line with a bullet begins a list. -/
theorem feed_bulleted (closed : List Block) (spread : Bool) :
    Body.feed ⟨closed, false, spread, .nothing⟩ (.whole (bulleted bullet w)) =
      ⟨closed, false, spread,
        .list (.bullet bullet) 1 [] (some 2) [] false false (.paragraph [w])⟩ := by
  have filled : (Line.whole (bulleted bullet w)).isBlank = false := by
    rcases is with rfl | rfl <;> rfl
  simp [Body.feed, Open.feed, filled, Open.leave, Open.endsInParagraph, start?_bulleted is h,
    Open.close, Body.begin, beginBlock, fill_word h]

/-- Where a list is open, a line with the same bullet is its next item. -/
theorem feed_next_bulleted (closed items : List Block) (spread : Bool)
    (before : List (List Char)) :
    Body.feed ⟨closed, false, spread,
        .list (.bullet bullet) 1 items (some 2) [] false false (.paragraph before)⟩
        (.whole (bulleted bullet w)) =
      ⟨closed, false, spread, .list (.bullet bullet) 1 (.item (closeParagraph before) :: items)
        (some 2) [] false false (.paragraph [w])⟩ := by
  have filled : (Line.whole (bulleted bullet w)).isBlank = false := by
    rcases is with rfl | rfl <;> rfl
  have flush : (Line.whole (bulleted bullet w)).indent = 0 := by
    rcases is with rfl | rfl <;> rfl
  simp [Body.feed, Open.feed, filled, flush, Open.leave, Open.endsInParagraph,
    start?_bulleted is h, Open.close, fill_word h]

end

/-- A word alone in a paragraph. -/
theorem closeParagraph_word {w : List Char} (h : IsWord w) :
    closeParagraph [w] = [.paragraph w] := by
  obtain ⟨c, cs, rfl, plain⟩ := h.cons
  exact closeParagraph_of_isQuiet (isQuiet_of_isPlain plain) (Text.unlines_singleton _)

/-- All the lines of a list, from the one after its first on. -/
theorem settled_bulleted {bullet : Char} (is : bullet = '-' ∨ bullet = '+') {w : List Char}
    {ws : List (List Char)} (first : IsWord w) (others : ∀ w ∈ ws, IsWord w)
    (closed items : List Block) (spread : Bool) :
    ((ws.map (bulleted bullet)).foldl (fun b l => b.feed (.whole l))
      (⟨closed, false, spread,
        .list (.bullet bullet) 1 items (some 2) [] false false (.paragraph [w])⟩ : Body)).settled =
      .list (.bullet bullet) 1 true
        (items.reverse ++ (w :: ws).map fun w => .item [.paragraph w]) :: closed := by
  -- Each line closes the item before it, so the open item changes with every step.
  induction ws generalizing w items with
  | nil => simp [Body.settled, Open.close, closeParagraph_word first]
  | cons w' ws ih =>
    rw [List.forall_mem_cons] at others
    rw [List.map_cons, List.foldl_cons, feed_next_bulleted is others.1, ih others.1 others.2,
      closeParagraph_word first]
    simp

/-! ## text on several lines -/

/-- The tokens of plain text, with a soft break for every line feed. -/
inductive Spells : List Token → List Char → Prop
  | nil : Spells [] []
  | text {ts : List Token} {s : List Char} (t : List Char) (rest : Spells ts s) :
    Spells (.ofRaw .text (.ofList t) :: ts) (t ++ s)
  | newline {ts : List Token} {s : List Char} (rest : Spells ts s) :
    Spells (.bare .softBreak :: ts) ('\n' :: s)

/-- However plain text was cut, it is one node. -/
theorem Spells.inlines_eq {ts : List Token} {s : List Char} (h : Spells ts s) (filled : ts ≠ []) :
    inlines ts = [Node.text (.ofList s)] := by
  induction h with
  | nil => contradiction
  | @text ts s t rest ih =>
    cases ts with
    | nil =>
      cases rest
      simp [inlines, inline?, consInline, Token.ofRaw]
    | cons u us =>
      rw [inlines, ih (by simp)]
      simp [inline?, consInline, Token.ofRaw]
  | @newline ts s rest ih =>
    cases ts with
    | nil =>
      cases rest
      simp [inlines, inline?, consInline, Token.bare]
    | cons u us =>
      rw [inlines, ih (by simp)]
      simp [inline?, consInline, Token.bare]

/-- Without runs of marks there is nothing to pair. -/
theorem tokens_map_token (ts : List Token) : Piece.tokens (ts.map .token) = ts := by
  have each (seen : List Token) :
      (ts.map Piece.token).foldl Emphasis.add ⟨[], seen⟩ = ⟨[], ts.reverse ++ seen⟩ := by
    induction ts generalizing seen with
    | nil => rfl
    | cons t ts ih => simp [Emphasis.add, ih]
  rw [Piece.tokens, each, Emphasis.finish, Emphasis.flatten, List.append_nil, List.reverse_reverse]

/-- The tokens of a line with a bullet, behind the line before it. -/
def lineTokens (bullet : Char) (w : List Char) : List Token :=
  [.bare .softBreak, .ofRaw .text (.ofList [bullet]), .ofRaw .text (.ofList [' ']),
    .ofRaw .text (.ofList w)]

theorem endsPlain_escaped (bullet : Char) (ws : List (List Char)) :
    EndsPlain (ws.flatMap fun w => '\n' :: escaped bullet w) := by
  cases ws with
  | nil => nofun
  | cons w ws =>
    intro c mem
    obtain rfl : '\n' = c := by simpa using mem
    decide

theorem spells_lineTokens (bullet : Char) (ws : List (List Char)) :
    Spells (ws.flatMap (lineTokens bullet)) (ws.flatMap fun w => '\n' :: bulleted bullet w) := by
  induction ws with
  | nil => exact .nil
  | cons w ws ih => exact .newline (.text [bullet] (.text [' '] (.text w ih)))

section

variable {bullet : Char} (is : bullet = '-' ∨ bullet = '+') (k : InlineContext)
include is

/-- One line with an escaped bullet is read in four pieces. -/
theorem run_escaped {w : List Char} (h : IsWord w) {rest : List Char} (ends : EndsPlain rest)
    (fuel : Nat) (r : Reading) :
    ∃ last, Reading.run k (fuel + 4) r ('\n' :: escaped bullet w ++ rest) =
      Reading.run k fuel
        { r with last, pieces := ((lineTokens bullet w).map .token).reverse ++ r.pieces } rest := by
  obtain ⟨last, read⟩ := run_word k fuel
    (((r.add '\n' (.token (.bare .softBreak))).addText [bullet] bullet).addText [' '] ' ') h ends
  obtain ⟨c, cs, rfl, plain⟩ := h.cons
  refine ⟨last, ?_⟩
  calc Reading.run k (fuel + 4) r ('\n' :: '\\' :: bullet :: ' ' :: (c :: cs ++ rest))
    _ = Reading.run k (fuel + 3) (r.add '\n' (.token (.bare .softBreak)))
          ('\\' :: bullet :: ' ' :: (c :: cs ++ rest)) := run_newline (by decide) _
    _ = Reading.run k (fuel + 2) ((r.add '\n' (.token (.bare .softBreak))).addText [bullet] bullet)
          (' ' :: (c :: cs ++ rest)) := run_bullet is _
    _ = Reading.run k (fuel + 1)
          (((r.add '\n' (.token (.bare .softBreak))).addText [bullet] bullet).addText [' '] ' ')
          (c :: cs ++ rest) := run_space plain _
    _ = _ := read

/-- Lines with escaped bullets are read one after another. -/
theorem run_escaped_lines {ws : List (List Char)} (h : ∀ w ∈ ws, IsWord w) (fuel : Nat)
    (r : Reading) (enough : (ws.flatMap fun w => '\n' :: escaped bullet w).length ≤ fuel) :
    ∃ last, Reading.run k fuel r (ws.flatMap fun w => '\n' :: escaped bullet w) =
      { r with last, pieces := ((ws.flatMap (lineTokens bullet)).map .token).reverse ++ r.pieces } := by
  induction ws generalizing fuel r with
  | nil => exact ⟨r.last, by rw [List.flatMap_nil, run_nil]; rfl⟩
  | cons w ws ih =>
    rw [List.forall_mem_cons] at h
    rw [List.flatMap_cons, List.length_append, List.length_cons, escaped, bulleted] at enough
    simp only [List.length_cons] at enough
    -- A line has at least as many characters as pieces.
    obtain ⟨more, rfl⟩ : ∃ more, fuel = more + 4 := ⟨fuel - 4, by omega⟩
    obtain ⟨between, line⟩ := run_escaped is k h.1 (endsPlain_escaped bullet ws) more r
    obtain ⟨last, lines⟩ := ih h.2 more
      { r with last := between, pieces := ((lineTokens bullet w).map .token).reverse ++ r.pieces }
      (by omega)
    refine ⟨last, ?_⟩
    rw [List.flatMap_cons, line, lines]
    simp

/-- A word and lines with escaped bullets are one text. -/
theorem inlines_escaped {v : List Char} {ws : List (List Char)} (first : IsWord v)
    (others : ∀ w ∈ ws, IsWord w) :
    inlines (inlinesOf k (Text.unlines (v :: ws.map (escaped bullet)))) =
      [Node.text (.ofList (Text.unlines (v :: ws.map (bulleted bullet))))] := by
  have lastPlain : ∀ c ∈ (Text.unlines (v :: ws.map (escaped bullet))).getLast?,
      isPlain c = true := by
    apply isPlain_of_mem_getLast?_unlines
    rw [List.forall_mem_cons, List.forall_mem_map]
    exact ⟨first.ends [], fun w mem => (others w mem).ends ['\\', bullet, ' ']⟩
  obtain ⟨c, cs, same, plain⟩ := first.cons
  have firstPlain : ∀ d ∈ (Text.unlines (v :: ws.map (escaped bullet))).head?,
      isPlain d = true := by
    rw [Text.unlines_cons, same]
    simpa using plain
  have positive := List.length_pos_iff.mpr first.filled
  rw [inlinesOf_of_ends k (by rw [Text.unlines_cons]; simp [first.filled]) firstPlain lastPlain,
    Text.unlines_cons, Text.unlines_cons, List.flatMap_map, List.flatMap_map, List.length_append]
  obtain ⟨more, length⟩ := Nat.exists_eq_add_of_le' positive
  obtain ⟨between, word⟩ := run_word k
    (more + (ws.flatMap fun w => '\n' :: escaped bullet w).length) {} first
    (endsPlain_escaped bullet ws)
  obtain ⟨last, lines⟩ := run_escaped_lines is k others
    (more + (ws.flatMap fun w => '\n' :: escaped bullet w).length)
    (({} : Reading).addText v between) (by omega)
  have enough : v.length + (ws.flatMap fun w => '\n' :: escaped bullet w).length =
      more + (ws.flatMap fun w => '\n' :: escaped bullet w).length + 1 := by omega
  rw [enough, word, lines]
  have pieces : Reading.allPieces
      { last, pieces := ((ws.flatMap (lineTokens bullet)).map Piece.token).reverse ++
          [Piece.text v] } =
      (Token.ofRaw .text (.ofList v) :: ws.flatMap (lineTokens bullet)).map .token := by
    simp [Reading.allPieces, Piece.text]
  have spells := (spells_lineTokens bullet ws).text v
  rw [← spells.inlines_eq (by simp), ← tokens_map_token (_ :: _), ← pieces]
  rfl

end

end Docsite.Markdown
