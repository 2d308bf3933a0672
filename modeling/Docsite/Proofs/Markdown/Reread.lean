import Docsite.Proofs.Markdown.Bullets

/-!
# Docsite.Proofs.Markdown.Reread

Documents that are written and read again.

A heading is written on one line behind its hash signs, and text in it is written without escaping
marks that open blocks, because a heading holds no blocks.  A heading that was read from an
underlined paragraph may have several lines, though, and those behind the first are read again as
lines of their own: where one of them begins with a bullet, they are a list.
-/

namespace Docsite.Markdown

open Document

/-- The document of a text. -/
def parsed (text : String) : Node := ofTokens (tokenize {} text)

/-- A document that is written and read again. -/
def reread (n : Node) : Node := parsed (render {} n)

mutual

/-- The blocks of a node, with their kinds and levels, without the lines of text in them. -/
def skeleton : Node → Node
  | .branch (.heading level) _ => .branch (.heading level) []
  | .branch .paragraph _ => .paragraph []
  | .branch (.table _) _ => .branch (.table []) []
  | .branch (.list ordered _ _) items => .branch (.list ordered 1 true) (skeletons items)
  | .branch (.item _) blocks => .branch (.item none) (skeletons blocks)
  | .branch b blocks => .branch b (skeletons blocks)
  | .leaf (.codeBlock _ _) => .leaf (.codeBlock "" none)
  | .leaf (.htmlBlock _) => .html ""
  | .leaf l => .leaf l

/-- The blocks of several nodes. -/
def skeletons : List Node → List Node
  | [] => []
  | n :: ns => skeleton n :: skeletons ns

end

/-! ## writing a heading -/

/-- In a heading only those characters are escaped that have a meaning inside a line. -/
theorem escape_heading {s : List Char}
    (h : ∀ c ∈ s, isAlwaysEscaped c = false ∧ c ≠ '#' ∧ c ≠ '_') :
    escape { inHeading := true } s = s := by
  have each (before : Option Char) : escapeFrom { inHeading := true } before none s = s := by
    induction s generalizing before with
    | nil => rfl
    | cons c cs ih =>
      rw [List.forall_mem_cons] at h
      obtain ⟨⟨plain, hash, underscore⟩, others⟩ := h
      rw [escapeFrom]
      simp [plain, hash, underscore, ih others]
  exact each none

/-- A text that begins with no line feed and ends with no white space is tidy. -/
theorem tidy_of_ends {s : List Char} (first : ∀ c ∈ s.head?, c ≠ '\n') (carriage : '\r' ∉ s)
    (last : ∀ c ∈ s.getLast?, Text.isBlank c = false) : tidy s = s := by
  have whole : Text.trimWhile (· == '\n') s = s := by
    refine Text.trimWhile_of_ends (fun c mem => by simpa using first c mem) fun c mem => ?_
    rw [beq_eq_false_iff_ne]
    rintro rfl
    exact absurd (last _ mem) (by decide)
  rw [tidy, Text.normalizeNewlines_of_notMem carriage, whole, Text.trimEnd]
  rcases List.eq_nil_or_concat s with rfl | ⟨cs, c, rfl⟩
  · rfl
  · rw [List.concat_eq_append] at last ⊢
    rw [Text.dropEndWhile_concat, last c (by simp), if_neg Bool.false_ne_true]

/-- A heading as it is written, if there is nothing to escape in it. -/
theorem render_heading {level : Nat} (bound : 1 ≤ level) {s : List Char} (filled : s ≠ [])
    (quiet : ∀ c ∈ s, isAlwaysEscaped c = false ∧ c ≠ '#' ∧ c ≠ '_') (carriage : '\r' ∉ s)
    (last : ∀ c ∈ s.getLast?, isPlain c = true) :
    render {} (.document [.branch (.heading level) [Node.text (.ofList s)]]) =
      .ofList (List.replicate level '#' ++ ' ' :: s) := by
  obtain ⟨more, rfl⟩ := Nat.exists_eq_add_of_le' bound
  have written : (write {} 0 {} (.document [.branch (.heading (more + 1 : Nat))
      [Node.text (.ofList s)]])).1 = List.replicate (more + 1) '#' ++ ' ' :: s := by
    simp [write, writeAll, writeLeaf, escape_heading quiet, joinBlocks]
  rw [render, written, tidy_of_ends]
  · simp [List.replicate_succ]
  · simp [carriage]
  · intro c mem
    obtain ⟨cs, d, rfl⟩ := (List.eq_nil_or_concat s).resolve_left filled
    exact isBlank_of_isPlain
      (last c (by simpa [List.getLast?_cons, List.getLast?_append] using mem))

/-! ## reading a heading -/

/-- A line of hash signs and a word is a heading. -/
theorem start?_heading (mood : Mood) {level : Nat} (bound : 1 ≤ level ∧ level ≤ 6) {v : List Char}
    (h : IsWord v) :
    start? mood (.whole (List.replicate level '#' ++ ' ' :: v)) = some (.heading level v) := by
  obtain ⟨more, rfl⟩ := Nat.exists_eq_add_of_le' bound.1
  have hash : Line.isIndent '#' = false := by decide
  have marks : ((List.replicate (more + 1) '#' ++ ' ' :: v).takeWhile (· == '#')) =
      List.replicate (more + 1) '#' := by
    rw [List.takeWhile_append_of_pos (by simp)]
    simp
  have trimmed : Text.trimWhile isAsciiSpace (' ' :: v) = v := by
    have first : ∀ c ∈ v.head?, isAsciiSpace c = false := fun c mem =>
      isAsciiSpace_of_isPlain (h.plain c (List.mem_of_mem_head? mem))
    have last : ∀ c ∈ v.getLast?, isAsciiSpace c = false := fun c mem =>
      isAsciiSpace_of_isPlain (h.plain c (List.mem_of_mem_getLast? mem))
    rw [Text.trimWhile, List.dropWhile_cons, if_pos (by decide)]
    exact Text.trimWhile_of_ends first last
  have kept : dropClosingHashes v = v := by
    obtain ⟨cs, c, rfl, plain⟩ := h.concat
    have hash : (c == '#') = false := by simpa using ne_of_isPlain plain (d := '#') (by decide)
    simp [dropClosingHashes, Text.trimEnd, Text.dropEndWhile_concat, isBlank_of_isPlain plain, hash]
  have heading : headingStart? (List.replicate (more + 1) '#' ++ ' ' :: v) =
      some (.heading (more + 1) v) := by
    have after : (List.replicate (more + 1) '#' ++ ' ' :: v).drop (more + 1) = ' ' :: v := by
      simp
    rw [headingStart?, marks, List.length_replicate, after, trimmed, kept, if_pos]
    exact ⟨bound.1, bound.2, rfl⟩
  rw [List.replicate_succ, List.cons_append] at heading ⊢
  have quote : quoteStart? ⟨0, '#' :: (List.replicate more '#' ++ ' ' :: v)⟩ = none := by
    rw [quoteStart?, unindented_mk hash]
    rfl
  rw [Line.whole, start?, indent_mk hash, content_mk hash, if_neg (by decide)]
  simp only [quote, heading]

/-! ## reading an underlined paragraph -/

section

variable {mark : Char} {level : Nat} (underlines : mark = '=' ∧ level = 1 ∨ mark = '-' ∧ level = 2)
  (more : Nat)
include underlines

theorem underlineLevel?_replicate :
    underlineLevel? (.whole (List.replicate (more + 1) mark)) = some level := by
  have indent : Line.isIndent mark = false := by
    rcases underlines with ⟨rfl, -⟩ | ⟨rfl, -⟩ <;> decide
  have content : Text.dropEndWhile Line.isIndent (List.replicate (more + 1) mark) =
      List.replicate (more + 1) mark := by
    rw [Text.dropEndWhile, List.reverse_replicate, List.replicate_succ, List.dropWhile_cons,
      indent, if_neg Bool.false_ne_true, ← List.replicate_succ, List.reverse_replicate]
  rw [List.replicate_succ] at content ⊢
  rw [Line.whole, underlineLevel?, content_mk indent, content, indent_mk indent]
  rcases underlines with ⟨rfl, rfl⟩ | ⟨rfl, rfl⟩ <;> simp

/-- An underlined paragraph is a heading. -/
theorem feed_underline {lines : List (List Char)} {source : List Char}
    (closes : closeParagraph lines = [.paragraph source]) (closed : List Block)
    (gap spread : Bool) :
    Body.feed ⟨closed, gap, spread, .paragraph lines⟩ (.whole (List.replicate (more + 1) mark)) =
      ⟨.heading level source :: closed, false, spread, .nothing⟩ := by
  have filled : (Line.whole (List.replicate (more + 1) mark)).isBlank = false := by
    rcases underlines with ⟨rfl, -⟩ | ⟨rfl, -⟩ <;> rfl
  simp only [Body.feed, Open.feed, filled, Bool.false_eq_true, if_false,
    underlineLevel?_replicate underlines, closes, List.reverse_singleton, List.nil_append,
    List.cons_append]

end

/-! ## written and read again -/

section

variable {bullet : Char} (is : bullet = '-' ∨ bullet = '+') {level : Nat}
  {v : List Char} {ws : List (List Char)} (first : IsWord v) (others : ∀ w ∈ ws, IsWord w)
include is first others

/-- An underlined paragraph with escaped bullets is a heading of several lines. -/
theorem blocksOf_underlined {mark : Char}
    (underlines : mark = '=' ∧ level = 1 ∨ mark = '-' ∧ level = 2) (more : Nat)
    (o : ReadingOptions) :
    blocksOf o (Text.unlines
        (v :: (ws.map (escaped bullet) ++ [List.replicate (more + 1) mark]))) =
      [.heading level (Text.unlines (v :: ws.map (escaped bullet)))] := by
  have clean : ∀ l ∈ v :: (ws.map (escaped bullet) ++ [List.replicate (more + 1) mark]),
      IsLine l := by
    rw [List.forall_mem_cons, List.forall_mem_append, List.forall_mem_map,
      List.forall_mem_singleton]
    refine ⟨first.isLine [] (by simp), fun w mem => ?_, ?_⟩
    · refine (others w mem).isLine ['\\', bullet, ' '] ?_
      rcases is with rfl | rfl <;> simp
    · rcases underlines with ⟨rfl, -⟩ | ⟨rfl, -⟩ <;>
        exact ⟨by simp, by simp, by simp, by simp⟩
  have quiet : ∀ l ∈ ws.map (escaped bullet), ∃ c cs, l = c :: cs ∧ isQuiet c = true := by
    rw [List.forall_mem_map]
    exact fun w mem => ⟨'\\', bulleted bullet w, rfl, by decide⟩
  obtain ⟨c, cs, rfl, plain⟩ := first.cons
  have begins : ({} : Body).feed (.whole (c :: cs)) =
      ⟨[], false, false, .paragraph [c :: cs]⟩ :=
    feed_nothing (isQuiet_of_isPlain plain) cs [] false false
  have closes : closeParagraph ((ws.map (escaped bullet)).reverse ++ [c :: cs]) =
      [.paragraph (Text.unlines ((c :: cs) :: ws.map (escaped bullet)))] := by
    rw [Text.unlines_cons, List.cons_append]
    apply closeParagraph_of_isQuiet (isQuiet_of_isPlain plain)
    rw [List.reverse_append, List.reverse_reverse, List.reverse_singleton, List.singleton_append,
      Text.unlines_cons, List.cons_append]
  -- One paragraph grows line by line, until the last line makes a heading of it.
  rw [blocksOf_unlines o (by simp) clean, List.foldl_cons, begins, List.foldl_append,
    foldl_feed_paragraph quiet, List.foldl_cons, List.foldl_nil,
    feed_underline underlines more closes]
  rfl

/-- A heading whose text goes on with bullets is read as a heading and a list. -/
theorem blocksOf_heading (bound : 1 ≤ level ∧ level ≤ 6) (some : ws ≠ []) (o : ReadingOptions) :
    blocksOf o (Text.unlines ((List.replicate level '#' ++ ' ' :: v) :: ws.map (bulleted bullet))) =
      [.heading level v, .list (.bullet bullet) 1 true (ws.map fun w => .item [.paragraph w])] := by
  have clean : ∀ l ∈ (List.replicate level '#' ++ ' ' :: v) :: ws.map (bulleted bullet),
      IsLine l := by
    rw [List.forall_mem_cons, List.forall_mem_map]
    refine ⟨?_, fun w mem => ?_⟩
    · rw [List.append_cons]
      exact first.isLine _ (by simp [List.mem_replicate])
    · refine (others w mem).isLine [bullet, ' '] ?_
      rcases is with rfl | rfl <;> simp
  have begins : ({} : Body).feed (.whole (List.replicate level '#' ++ ' ' :: v)) =
      ⟨[.heading level v], false, false, .nothing⟩ := by
    have filled : (Line.whole (List.replicate level '#' ++ ' ' :: v)).isBlank = false := by
      obtain ⟨more, rfl⟩ := Nat.exists_eq_add_of_le' bound.1
      rfl
    simp [Body.feed, Open.feed, filled, Open.leave, Open.endsInParagraph,
      start?_heading .free bound first, Open.close, Body.begin, beginBlock, beginLeaf]
  obtain ⟨w, ws, rfl⟩ := List.exists_cons_of_ne_nil some
  rw [List.forall_mem_cons] at others
  rw [blocksOf_unlines o (by simp) clean, List.foldl_cons, begins, List.map_cons, List.foldl_cons,
    feed_bulleted is others.1, settled_bulleted is others.1 others.2]
  rfl

end

/-- The node of a heading of the text. -/
theorem blocks_heading (o : ReadingOptions) (k : InlineContext) {level : Nat}
    (bound : 1 ≤ level ∧ level ≤ 6) (source : List Char) (bs : List Block) :
    blocks (Block.tokens o k (.heading level source :: bs)) =
      .branch (.heading level) (inlines (inlinesOf k source)) :: blocks (Block.tokens o k bs) := by
  have within : (1 : Int) ≤ level ∧ (level : Int) ≤ 6 := by omega
  simp [Block.tokens, Block.token?, blocks, block?, headingLevel, within]

/-- The nodes of the items of a list of words. -/
theorem items_words (o : ReadingOptions) (k : InlineContext) {ws : List (List Char)}
    (h : ∀ w ∈ ws, IsWord w) :
    items (Block.tokens o k (ws.map fun w => .item [.paragraph w])) =
      ws.map fun w => .branch (.item none) [Node.paragraph [Node.text (.ofList w)]] := by
  induction ws with
  | nil => rfl
  | cons w ws ih =>
    rw [List.forall_mem_cons] at h
    have noBox : itemBox? [.paragraph w] = none := by
      obtain ⟨c, cs, rfl, plain⟩ := h.1.cons
      rw [itemBox?, taskBox?]
      · intro d rest same
        exact absurd (List.cons.inj same).1 (ne_of_isPlain plain (by decide))
    have inside : blocks (Block.tokens o k [.paragraph w]) =
        [Node.paragraph [Node.text (.ofList w)]] := by
      simp [Block.tokens, Block.token?, blocks, block?, Token.around, inlinesOf_word k h.1, inlines,
        inline?, consInline, Token.ofRaw]
    have token : (Block.item [.paragraph w]).token? o k =
        some (.around (.other "list_item") (Block.tokens o k [.paragraph w])) := by
      simp [Block.token?, noBox]
    rw [List.map_cons, Block.tokens, token]
    simp only [Token.around, items, inside, ih h.2, List.map_cons]
    rfl

/-- Lines with bullets are the same in a heading as they are anywhere else. -/
theorem mem_bulleted {bullet : Char} (is : bullet = '-' ∨ bullet = '+') {v : List Char}
    {ws : List (List Char)} (first : IsWord v) (others : ∀ w ∈ ws, IsWord w) {c : Char}
    (mem : c ∈ Text.unlines (v :: ws.map (bulleted bullet))) :
    isAlwaysEscaped c = false ∧ c ≠ '#' ∧ c ≠ '_' ∧ c ≠ '\r' := by
  have ofWord (plain : isPlain c = true) :
      isAlwaysEscaped c = false ∧ c ≠ '#' ∧ c ≠ '_' ∧ c ≠ '\r' :=
    ⟨contains_of_isPlain plain (by decide), ne_of_isPlain plain (by decide),
      ne_of_isPlain plain (by decide), ne_of_isPlain plain (by decide)⟩
  rcases Text.mem_unlines mem with rfl | ⟨l, here, inside⟩
  · decide
  · rcases List.mem_cons.mp here with rfl | here
    · exact ofWord (first.plain c inside)
    · obtain ⟨w, mem, rfl⟩ := List.mem_map.mp here
      rw [bulleted, List.mem_cons, List.mem_cons] at inside
      rcases inside with rfl | rfl | inside
      · rcases is with rfl | rfl <;> decide
      · decide
      · exact ofWord ((others w mem).plain c inside)

/-- **Bullets in a heading are lost.**  A paragraph may be underlined although lines of it would be
a list if their bullets were not escaped.  It is a heading of several lines then, which is written
with the bullets as they are, and what is written is read as a heading of one line before a
list. -/
theorem reread_underlined {bullet : Char} (is : bullet = '-' ∨ bullet = '+') {mark : Char}
    {level : Nat} (underlines : mark = '=' ∧ level = 1 ∨ mark = '-' ∧ level = 2) (more : Nat)
    {v : List Char} {ws : List (List Char)} (first : IsWord v) (others : ∀ w ∈ ws, IsWord w)
    (some : ws ≠ []) :
    let source := String.ofList (Text.unlines
      (v :: (ws.map (escaped bullet) ++ [List.replicate (more + 1) mark])))
    parsed source = .document [.branch (.heading level)
        [Node.text (.ofList (Text.unlines (v :: ws.map (bulleted bullet))))]] ∧
      reread (parsed source) = .document [.branch (.heading level) [Node.text (.ofList v)],
        .branch (.list false 1 true)
          (ws.map fun w => .branch (.item none) [Node.paragraph [Node.text (.ofList w)]])] ∧
      skeleton (reread (parsed source)) ≠ skeleton (parsed source) := by
  intro source
  have bound : 1 ≤ level ∧ level ≤ 6 := by omega
  have read : parsed source = .document [.branch (.heading level)
      [Node.text (.ofList (Text.unlines (v :: ws.map (bulleted bullet))))]] := by
    rw [parsed, tokenize, String.toList_ofList, blocksOf_underlined is first others underlines,
      ofTokens, blocks_heading _ _ bound, inlines_escaped is _ first others]
    rfl
  have written : render {} (parsed source) = .ofList (Text.unlines
      ((List.replicate level '#' ++ ' ' :: v) :: ws.map (bulleted bullet))) := by
    rw [read, render_heading bound.1]
    · rw [Text.unlines_cons, Text.unlines_cons]
      simp
    · rw [Text.unlines_cons]
      simp [first.filled]
    · intro c mem
      obtain ⟨always, hash, underscore, -⟩ := mem_bulleted is first others mem
      exact ⟨always, hash, underscore⟩
    · exact fun mem => (mem_bulleted is first others mem).2.2.2 rfl
    · apply isPlain_of_mem_getLast?_unlines
      rw [List.forall_mem_cons, List.forall_mem_map]
      exact ⟨first.ends [], fun w mem => (others w mem).ends [bullet, ' ']⟩
  have again : reread (parsed source) = .document [.branch (.heading level)
      [Node.text (.ofList v)], .branch (.list false 1 true)
        (ws.map fun w => .branch (.item none) [Node.paragraph [Node.text (.ofList w)]])] := by
    rw [reread, written, parsed, tokenize, String.toList_ofList,
      blocksOf_heading is first others bound some, ofTokens, blocks_heading _ _ bound,
      inlinesOf_word _ first]
    simp [Block.tokens, Block.token?, blocks, block?, items_words _ _ others, listAttributes,
      listTight, inlines, inline?, consInline, Token.ofRaw]
  refine ⟨read, again, ?_⟩
  rw [again, read]
  simp [skeleton, skeletons]

/-- Two lines in a level-two heading, of which the second begins with a hyphen. -/
theorem reread_underlined_hyphen :
    ('-' = '-' ∨ '-' = '+') ∧ ('-' = '=' ∧ 2 = 1 ∨ '-' = '-' ∧ 2 = 2) ∧ IsWord ['a'] ∧
      (∀ w ∈ [['b']], IsWord w) ∧ [['b']] ≠ [] ∧
      reread (parsed "a\n\\- b\n---") = .document [.branch (.heading 2) [Node.text "a"],
        .branch (.list false 1 true) [.branch (.item none) [Node.paragraph [Node.text "b"]]]] := by
  have first : IsWord ['a'] := ⟨by simp, List.forall_mem_singleton.mpr (by decide)⟩
  have others : ∀ w ∈ [['b']], IsWord w := by
    rw [List.forall_mem_singleton]
    exact ⟨by simp, List.forall_mem_singleton.mpr (by decide)⟩
  exact ⟨.inl rfl, .inr ⟨rfl, rfl⟩, first, others, by simp,
    (reread_underlined (.inl rfl) (.inr ⟨rfl, rfl⟩) 2 first others (by simp)).2.1⟩

/-- Not every text has the blocks of what its document is written as. -/
theorem not_skeleton_reread :
    ¬ ∀ s : String, skeleton (reread (parsed s)) = skeleton (parsed s) := by
  intro same
  have wrong : skeleton (reread (parsed "a\n\\- b\n---\n")) ≠
      skeleton (parsed "a\n\\- b\n---\n") := by
    decide +kernel
  exact wrong (same _)

end Docsite.Markdown
