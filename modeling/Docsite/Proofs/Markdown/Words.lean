import Docsite.Document.OfTokens
import Docsite.Markdown.Render
import Docsite.Markdown.Tokenize

/-!
# Docsite.Proofs.Markdown.Words

Words, as they are read.

A character is plain if it is neither white space nor ASCII punctuation nor a digit.  No mark of
Markdown has such a character in it, so a line that begins with one begins no block and underlines
no paragraph, and a word of plain characters is one piece of text in a line.
-/

namespace Docsite.Markdown

open Document

/-- A character that has no meaning in Markdown, wherever it stands. -/
def isPlain (c : Char) : Bool :=
  !(Text.isBlank c || Unicode.isAsciiPunctuation c || c.isDigit)

/-- Some plain characters in a row. -/
structure IsWord (w : List Char) : Prop where
  filled : w ≠ []
  plain : ∀ c ∈ w, isPlain c = true

/-! ## plain characters -/

section

variable {c d : Char}

theorem isBlank_of_isPlain (h : isPlain c = true) : Text.isBlank c = false := by
  simp only [isPlain, Bool.not_eq_true', Bool.or_eq_false_iff] at h
  exact h.1.1

theorem isDigit_of_isPlain (h : isPlain c = true) : c.isDigit = false := by
  simp only [isPlain, Bool.not_eq_true', Bool.or_eq_false_iff] at h
  exact h.2

/-- A plain character is none of the others. -/
theorem ne_of_isPlain (h : isPlain c = true) (other : isPlain d = false) : c ≠ d := by
  rintro rfl
  rw [h] at other
  contradiction

theorem contains_of_isPlain (h : isPlain c = true) {s : List Char}
    (others : s.all (!isPlain ·) = true) : s.contains c = false := by
  rw [← Bool.not_eq_true, List.contains_iff_mem]
  intro mem
  have other := List.all_eq_true.mp others c mem
  rw [h] at other
  contradiction

theorem isIndent_of_not_isBlank (h : Text.isBlank c = false) : Line.isIndent c = false := by
  rw [Line.isIndent, Bool.or_eq_false_iff, beq_eq_false_iff_ne, beq_eq_false_iff_ne]
  constructor <;>
  · rintro rfl
    contradiction

theorem isIndent_of_isPlain (h : isPlain c = true) : Line.isIndent c = false :=
  isIndent_of_not_isBlank (isBlank_of_isPlain h)

/-- White space in ASCII is white space in the wide sense. -/
theorem isAsciiSpace_of_not_isBlank (h : Text.isBlank c = false) : isAsciiSpace c = false := by
  have space : c ≠ ' ' := by
    rintro rfl
    contradiction
  simp only [Text.isBlank, Bool.or_eq_false_iff] at h
  simp only [isAsciiSpace, Bool.or_eq_false_iff, beq_eq_false_iff_ne]
  exact ⟨space, h.1.1.1.1.1.1.1.1.1.1⟩

theorem isAsciiSpace_of_isPlain (h : isPlain c = true) : isAsciiSpace c = false :=
  isAsciiSpace_of_not_isBlank (isBlank_of_isPlain h)

theorem isOuterSpace_of_isPlain (h : isPlain c = true) : isOuterSpace c = false := by
  have formFeed : c.toNat ≠ 0x0C := by
    have space := isAsciiSpace_of_isPlain h
    intro same
    simp [isAsciiSpace, same] at space
  simp [isOuterSpace, ne_of_isPlain h (d := ' ') (by decide),
    ne_of_isPlain h (d := '\t') (by decide), ne_of_isPlain h (d := '\n') (by decide),
    ne_of_isPlain h (d := '\r') (by decide), formFeed]

theorem isSpecial_of_isPlain (h : isPlain c = true) : Reading.isSpecial c = false := by
  rw [Reading.isSpecial, contains_of_isPlain h (by decide), isAsciiSpace_of_isPlain h]
  rfl

end

namespace IsWord

variable {w : List Char}

theorem cons (h : IsWord w) : ∃ c cs, w = c :: cs ∧ isPlain c = true := by
  obtain ⟨c, cs, rfl⟩ := List.exists_cons_of_ne_nil h.filled
  exact ⟨c, cs, rfl, h.plain c List.mem_cons_self⟩

theorem concat (h : IsWord w) : ∃ cs c, w = cs ++ [c] ∧ isPlain c = true := by
  obtain ⟨cs, c, same⟩ := (List.eq_nil_or_concat w).resolve_left h.filled
  rw [List.concat_eq_append] at same
  exact ⟨cs, c, same, h.plain c (by simp [same])⟩

/-- A line ends with a plain character if there is a word at its end. -/
theorem ends (h : IsWord w) (p : List Char) :
    p ++ w ≠ [] ∧ ∀ c ∈ (p ++ w).getLast?, isPlain c = true := by
  obtain ⟨cs, c, rfl, plain⟩ := h.concat
  simp [← List.append_assoc, plain]

theorem notMem (h : IsWord w) {d : Char} (other : isPlain d = false) : d ∉ w := fun mem =>
  ne_of_isPlain (h.plain d mem) other rfl

end IsWord

/-- Lines that end with plain characters make up a text that ends with one. -/
theorem isPlain_of_mem_getLast?_unlines {ls : List (List Char)}
    (h : ∀ l ∈ ls, l ≠ [] ∧ ∀ c ∈ l.getLast?, isPlain c = true) :
    ∀ c ∈ (Text.unlines ls).getLast?, isPlain c = true := by
  induction ls with
  | nil => nofun
  | cons l ls ih =>
    rw [List.forall_mem_cons] at h
    cases ls with
    | nil => simpa using h.1.2
    | cons m ms =>
      have filled : Text.unlines (m :: ms) ≠ [] := by
        rw [Text.unlines_cons]
        simp [(h.2 m List.mem_cons_self).1]
      obtain ⟨cs, d, same⟩ := (List.eq_nil_or_concat _).resolve_left filled
      rw [List.concat_eq_append] at same
      have plain := ih h.2
      rw [same, List.getLast?_concat] at plain
      rwa [Text.unlines_cons_cons, same, ← List.cons_append, ← List.append_assoc,
        List.getLast?_concat]

/-! ## lines of text -/

/-- A character that is neither white space nor a digit, and that no mark of a block begins
with. -/
def isQuiet (c : Char) : Bool :=
  !(Text.isBlank c || ">#\x60~<*-_+=[".toList.contains c || c.isDigit)

section

variable {c : Char}

theorem ne_of_isQuiet (h : isQuiet c = true) {d : Char} (other : isQuiet d = false) : c ≠ d := by
  rintro rfl
  rw [h] at other
  contradiction

theorem isQuiet_of_isPlain (h : isPlain c = true) : isQuiet c = true := by
  rw [isQuiet, isBlank_of_isPlain h, isDigit_of_isPlain h, contains_of_isPlain h (by decide)]
  rfl

theorem isBlank_of_isQuiet (h : isQuiet c = true) : Text.isBlank c = false := by
  simp only [isQuiet, Bool.not_eq_true', Bool.or_eq_false_iff] at h
  exact h.1.1

theorem isIndent_of_isQuiet (h : isQuiet c = true) : Line.isIndent c = false := by
  simp [Line.isIndent, ne_of_isQuiet h (d := ' ') (by decide),
    ne_of_isQuiet h (d := '\t') (by decide)]

end

section

variable {c : Char} (h : Line.isIndent c = false) (column : Nat) (cs : List Char)
include h

theorem content_mk : (Line.mk column (c :: cs)).content = c :: cs := by
  rw [Line.content, List.dropWhile_cons, h, if_neg Bool.false_ne_true]

theorem indent_mk : (Line.mk column (c :: cs)).indent = 0 := by
  unfold Line.indent Line.indentFrom
  split
  · next same =>
    cases same
    contradiction
  · next same =>
    cases same
    contradiction
  · rfl

theorem unindented_mk : (Line.mk column (c :: cs)).unindented = ⟨column, c :: cs⟩ := by
  rw [Line.unindented, indent_mk h, Line.skip, Line.skipFrom, if_pos rfl]

end

section

variable {c : Char} (h : isQuiet c = true) (column : Nat) (cs : List Char)
include h

theorem isBlank_mk : (Line.mk column (c :: cs)).isBlank = false := by
  have blank := isBlank_of_isQuiet h
  have wide (n : Nat) (within : 0x09 ≤ n ∧ n ≤ 0x0D) : c.toNat ≠ n := by
    rintro rfl
    simp [Text.isBlank, within] at blank
  simp [Line.isBlank, isIndent_of_isQuiet h, wide 0x0B (by decide), wide 0x0C (by decide)]

theorem itemStart?_mk (mood : Mood) : itemStart? mood ⟨column, c :: cs⟩ = none := by
  have mark : itemMark? (c :: cs) = none := by
    have digit : c.isDigit = false := by
      simp only [isQuiet, Bool.not_eq_true', Bool.or_eq_false_iff] at h
      exact h.2
    unfold itemMark?
    split
    · next same => exact absurd (List.cons.inj same).1 (ne_of_isQuiet h (by decide))
    · next same => exact absurd (List.cons.inj same).1 (ne_of_isQuiet h (by decide))
    · next same => exact absurd (List.cons.inj same).1 (ne_of_isQuiet h (by decide))
    · simp [digit]
  rw [itemStart?, unindented_mk (isIndent_of_isQuiet h), mark]

/-- A line that begins with a quiet character begins no block. -/
theorem start?_mk (mood : Mood) : start? mood ⟨column, c :: cs⟩ = none := by
  have indent := isIndent_of_isQuiet h
  have quote : quoteStart? ⟨column, c :: cs⟩ = none := by
    rw [quoteStart?, unindented_mk indent]
    split
    · next same => exact absurd (List.cons.inj same).1 (ne_of_isQuiet h (by decide))
    · rfl
  have heading : headingStart? (c :: cs) = none := by
    simp [headingStart?, ne_of_isQuiet h (d := '#') (by decide)]
  have fence : fenceStart? 0 (c :: cs) = none := by
    simp [fenceStart?, ne_of_isQuiet h (d := '\x60') (by decide),
      ne_of_isQuiet h (d := '~') (by decide)]
  have html : htmlStart? mood ⟨column, c :: cs⟩ (c :: cs) = none := by
    simp [htmlStart?, ne_of_isQuiet h (d := '<') (by decide)]
  have rule : isThematicBreak (c :: cs) = false := by
    simp [isThematicBreak, ne_of_isQuiet h (d := '*') (by decide),
      ne_of_isQuiet h (d := '-') (by decide), ne_of_isQuiet h (d := '_') (by decide)]
  rw [start?, indent_mk indent, content_mk indent, if_neg (by decide)]
  simp only [quote, heading, fence, html, rule, itemStart?_mk h, Bool.false_eq_true, if_false]

/-- And it underlines nothing. -/
theorem underlineLevel?_mk : underlineLevel? ⟨column, c :: cs⟩ = none := by
  rw [underlineLevel?, content_mk (isIndent_of_isQuiet h),
    Text.dropEndWhile_cons (isIndent_of_isQuiet h)]
  simp [ne_of_isQuiet h (d := '=') (by decide), ne_of_isQuiet h (d := '-') (by decide)]

end

/-! ## blocks -/

/-- A line without a pipe is the header of no table. -/
theorem attempt_of_notMem {l : List Char} (h : '|' ∉ l) (ls : List (List Char)) :
    Table.attempt l ls = .none := by
  cases ls with
  | nil => rfl
  | cons m ms =>
    have boxed : Table.boxed? l = none := by
      unfold Table.boxed?
      split
      · next same =>
        have mem : '|' ∈ Text.dropEndWhile Line.isIndent (l.dropWhile (· == ' ')) := by simp [same]
        exact absurd ((List.dropWhile_suffix _).subset ((Text.dropEndWhile_prefix _ _).subset mem)) h
      · rfl
    have bare : '|' ∉ (Line.whole l).content.tail := fun mem =>
      h ((List.dropWhile_suffix _).subset (List.mem_of_mem_tail mem))
    have form : Table.headerForm? l = none := by
      simp [Table.headerForm?, boxed, bare]
    rw [Table.attempt, form]

/-- Without a pipe in any of the lines, the lines are added one by one. -/
theorem feedLines_of_notMem (tables : Bool) {ls : List (List Char)} (h : ∀ l ∈ ls, '|' ∉ l)
    (b : Body) : feedLines tables ls 0 0 b = ls.foldl (fun b l => b.feed (.whole l)) b := by
  induction ls generalizing b with
  | nil => rfl
  | cons l ls ih =>
    rw [List.forall_mem_cons] at h
    rw [feedLines, attempt_of_notMem h.1, ite_self, List.foldl_cons]
    exact ih h.2 _

/-- A line that is not empty and that no table is made of. -/
structure IsLine (l : List Char) : Prop where
  filled : l ≠ []
  newline : '\n' ∉ l
  carriage : '\r' ∉ l
  pipe : '|' ∉ l

/-- A word behind some marks is a line. -/
theorem IsWord.isLine {w : List Char} (h : IsWord w) (marks : List Char)
    (clean : ∀ c ∈ ['\n', '\r', '|'], c ∉ marks) : IsLine (marks ++ w) where
  filled := (h.ends marks).1
  newline := by simp [h.notMem (d := '\n') (by decide), clean '\n' (by simp)]
  carriage := by simp [h.notMem (d := '\r') (by decide), clean '\r' (by simp)]
  pipe := by simp [h.notMem (d := '|') (by decide), clean '|' (by simp)]

/-- The blocks of some lines. -/
theorem blocksOf_unlines (o : ReadingOptions) {ls : List (List Char)} (some : ls ≠ [])
    (h : ∀ l ∈ ls, IsLine l) :
    blocksOf o (Text.unlines ls) =
      (ls.foldl (fun b l => b.feed (.whole l)) ({} : Body)).settled.reverse := by
  have carriage : '\r' ∉ Text.unlines ls := by
    intro mem
    rcases Text.mem_unlines mem with same | ⟨l, inside, mem⟩
    · contradiction
    · exact (h l inside).carriage mem
  have cut : linesOf (Text.unlines ls) = ls := by
    rw [linesOf, Text.lines_unlines some fun l mem => (h l mem).newline]
    obtain ⟨before, last, rfl⟩ := (List.eq_nil_or_concat ls).resolve_left some
    simpa using (h last (by simp)).filled
  rw [blocksOf, Text.normalizeNewlines_of_notMem carriage, cut,
    feedLines_of_notMem _ fun l mem => (h l mem).pipe]

section

variable {c : Char} (h : isQuiet c = true) (cs : List Char) (closed : List Block) (gap spread : Bool)
include h

/-- Where nothing is open, a line of text begins a paragraph. -/
theorem feed_nothing :
    Body.feed ⟨closed, gap, spread, .nothing⟩ (.whole (c :: cs)) =
      Body.begin closed gap spread ([], .paragraph [c :: cs]) := by
  simp only [Body.feed, Open.feed, Line.whole, isBlank_mk h, Bool.false_eq_true, if_false,
    Open.leave, Open.endsInParagraph, start?_mk h, content_mk (isIndent_of_isQuiet h), Open.close,
    List.reverse_nil, List.nil_append]

/-- Where a paragraph is open, it goes on. -/
theorem feed_paragraph (lines : List (List Char)) :
    Body.feed ⟨closed, gap, spread, .paragraph lines⟩ (.whole (c :: cs)) =
      ⟨closed, false, spread, .paragraph ((c :: cs) :: lines)⟩ := by
  simp only [Body.feed, Open.feed, Line.whole, isBlank_mk h, Bool.false_eq_true, if_false,
    underlineLevel?_mk h, start?_mk h, content_mk (isIndent_of_isQuiet h)]

end

/-- And it goes on with every line that begins with a quiet character. -/
theorem foldl_feed_paragraph {ls : List (List Char)}
    (h : ∀ l ∈ ls, ∃ c cs, l = c :: cs ∧ isQuiet c = true) (closed : List Block) (spread : Bool)
    (lines : List (List Char)) :
    ls.foldl (fun b l => b.feed (.whole l)) (⟨closed, false, spread, .paragraph lines⟩ : Body) =
      ⟨closed, false, spread, .paragraph (ls.reverse ++ lines)⟩ := by
  induction ls generalizing lines with
  | nil => rfl
  | cons l ls ih =>
    rw [List.forall_mem_cons] at h
    obtain ⟨⟨c, cs, rfl, quiet⟩, others⟩ := h
    rw [List.foldl_cons, feed_paragraph quiet, ih others, List.reverse_cons, List.append_assoc,
      List.singleton_append]

/-- A paragraph that begins with a quiet character holds no definition. -/
theorem closeParagraph_of_isQuiet {c : Char} {cs : List Char} {lines : List (List Char)}
    (h : isQuiet c = true) (source : Text.unlines lines.reverse = c :: cs) :
    closeParagraph lines = [.paragraph (c :: cs)] := by
  have noDefinition : definition? (c :: cs) = none := by
    unfold definition?
    split
    · next same => exact absurd (List.cons.inj same).1 (ne_of_isQuiet h (by decide))
    · rfl
  have split : splitDefinitions (c :: cs) = ([], c :: cs) := by
    rw [splitDefinitions, List.length_cons, takeDefinitions, noDefinition]
  have text : (c :: cs).all isAsciiSpace = false := by
    rw [List.all_cons, isAsciiSpace_of_not_isBlank (isBlank_of_isQuiet h), Bool.false_and]
  rw [closeParagraph, source, split]
  simp only [text, Bool.false_eq_true, if_false, List.map_nil, List.nil_append]

/-! ## text in a line -/

/-- Does a text begin with a character that ends a piece of plain text, if it goes on at all? -/
def EndsPlain (s : List Char) : Prop := ∀ c ∈ s.head?, Reading.isSpecial c = true

/-- A word is read as one piece. -/
theorem run_word (k : InlineContext) (fuel : Nat) (r : Reading) {w : List Char} (h : IsWord w)
    {rest : List Char} (ends : EndsPlain rest) :
    ∃ last, Reading.run k (fuel + 1) r (w ++ rest) =
      Reading.run k fuel (r.addText w last) rest := by
  obtain ⟨c, cs, rfl, plain⟩ := h.cons
  have others : ∀ d ∈ cs, (!Reading.isSpecial d) = true := fun d mem => by
    rw [isSpecial_of_isPlain (h.plain d (List.mem_cons_of_mem _ mem))]
    rfl
  have stop : rest.takeWhile (!Reading.isSpecial ·) = [] := by
    cases rest with
    | nil => rfl
    | cons d ds =>
      have special := ends d rfl
      simp [special]
  have step : r.step k c (cs ++ rest) =
      (r.addText (c :: cs) ((c :: cs).getLast?.getD c), rest) := by
    rw [Reading.step, isAsciiSpace_of_isPlain plain, if_neg Bool.false_ne_true]
    · simp only [List.takeWhile_append_of_pos others, stop, List.append_nil, List.drop_left]
    all_goals exact ne_of_isPlain plain (by decide)
  exact ⟨(c :: cs).getLast?.getD c, by rw [List.cons_append, Reading.run, step]⟩

section

variable {k : InlineContext} {fuel : Nat} {r : Reading}

theorem run_nil : Reading.run k fuel r [] = r := by
  cases fuel <;> rfl

theorem step_of_isAsciiSpace {c : Char} (h : isAsciiSpace c = true) (s : List Char) :
    r.step k c s = r.space (c :: s) := by
  unfold Reading.step
  rw [if_pos h]

/-- A line feed before a line that is not indented is a soft break. -/
theorem run_newline {c : Char} (h : isAsciiSpace c = false) (cs : List Char) :
    Reading.run k (fuel + 1) r ('\n' :: c :: cs) =
      Reading.run k fuel (r.add '\n' (.token (.bare .softBreak))) (c :: cs) := by
  have white : isAsciiSpace '\n' = true := by decide
  have space : r.space ('\n' :: c :: cs) = (r.add '\n' (.token (.bare .softBreak)), c :: cs) := by
    simp [Reading.space, white, h]
  rw [Reading.run, step_of_isAsciiSpace white, space]

/-- A space between words is a piece of its own. -/
theorem run_space {c : Char} (h : isPlain c = true) (cs : List Char) :
    Reading.run k (fuel + 1) r (' ' :: c :: cs) =
      Reading.run k fuel (r.addText [' '] ' ') (c :: cs) := by
  have white : isAsciiSpace ' ' = true := by decide
  have space : r.space (' ' :: c :: cs) = (r.addText [' '] ' ', c :: cs) := by
    simp [Reading.space, white, isAsciiSpace_of_isPlain h]
  rw [Reading.run, step_of_isAsciiSpace white, space]

/-- An escaped bullet is a piece of text. -/
theorem run_bullet {bullet : Char} (is : bullet = '-' ∨ bullet = '+') (s : List Char) :
    Reading.run k (fuel + 1) r ('\\' :: bullet :: s) =
      Reading.run k fuel (r.addText [bullet] bullet) s := by
  rcases is with rfl | rfl <;> rfl

end

/-- A text that neither begins nor ends with white space is read from its first character to its
last. -/
theorem inlinesOf_of_ends (k : InlineContext) {s : List Char} (filled : s ≠ [])
    (first : ∀ c ∈ s.head?, isPlain c = true) (last : ∀ c ∈ s.getLast?, isPlain c = true) :
    inlinesOf k s = Piece.tokens (Reading.run k s.length {} s).allPieces := by
  have whole : Text.trimWhile isOuterSpace s = s :=
    Text.trimWhile_of_ends (fun c mem => isOuterSpace_of_isPlain (first c mem))
      (fun c mem => isOuterSpace_of_isPlain (last c mem))
  unfold inlinesOf
  rw [whole]
  split
  · contradiction
  · rfl

/-- The tokens of a word. -/
theorem inlinesOf_word (k : InlineContext) {w : List Char} (h : IsWord w) :
    inlinesOf k w = [.ofRaw .text (.ofList w)] := by
  have positive := List.length_pos_iff.mpr h.filled
  obtain ⟨n, length⟩ := Nat.exists_eq_add_of_le' positive
  obtain ⟨last, read⟩ := run_word k n {} h (nofun : EndsPlain [])
  rw [List.append_nil, run_nil] at read
  rw [inlinesOf_of_ends k h.filled, length, read]
  · rfl
  · exact fun c mem => h.plain c (List.mem_of_mem_head? mem)
  · exact fun c mem => h.plain c (List.mem_of_mem_getLast? mem)

end Docsite.Markdown
