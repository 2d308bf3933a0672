import Docsite.Markdown.Block.OfText
import Docsite.Proofs.Markdown.CellInlines

/-!
# Docsite.Proofs.Markdown.TableBlocks

What the reader of blocks makes of tables and definitions.

A table is read line by line, so its cells hold no line feed, and every pipe in a cell stands right
behind a backslash, because the line would have been cut there (`guarded_of_mem_cellsOf`).  The
address in a definition is encoded.  Both hold of all blocks of a text (`sound_blocksOf`), since no
line that is added to the open blocks makes a table or a definition in another way.
-/

namespace Docsite.Markdown

variable {s : List Char}

/-! ## the cells of a line -/

namespace Table

/-- The pieces of a line between its pipes are guarded, the first one with what is before it. -/
theorem guarded_splitPipes (escaped : Bool) {before : Char} (line : '\n' ∉ before :: s)
    (marked : escaped = true → before = '\\') : ∃ cell cells,
      splitPipes escaped s = cell :: cells ∧ Guarded (before :: cell) ∧
        ∀ other ∈ cells, Guarded other := by
  induction s generalizing escaped before with
  | nil => exact ⟨[], [], rfl, ⟨line, .singleton _⟩, nofun⟩
  | cons c cs ih =>
    rw [List.mem_cons, not_or] at line
    have first : '\n' ∉ [before] := by simpa using line.1
    rw [splitPipes]
    split
    · have later : '\n' ∉ ' ' :: cs := by simpa using (List.not_mem_of_not_mem_cons line.2)
      obtain ⟨cell, cells, cut, here, others⟩ := ih false later nofun
      refine ⟨[], _, rfl, ⟨first, .singleton _⟩, ?_⟩
      rw [cut, List.forall_mem_cons]
      exact ⟨here.within (List.suffix_cons ..).isInfix, others⟩
    · next goesOn =>
      have backslash : (c == '\\' && !escaped) = true → c = '\\' := by simp_all
      obtain ⟨cell, cells, cut, here, others⟩ := ih _ line.2 backslash
      rw [cut]
      refine ⟨c :: cell, cells, rfl, ⟨?_, ?_⟩, others⟩
      · exact List.not_mem_cons_of_ne_of_not_mem line.1 here.line
      · refine List.isChain_cons_cons.mpr ⟨fun pipe => marked ?_, here.pipes⟩
        simpa [pipe] using goesOn

theorem splitPipes_ne_nil (escaped : Bool) (s : List Char) : splitPipes escaped s ≠ [] := by
  cases s with
  | nil => simp [splitPipes]
  | cons c cs =>
    rw [splitPipes]
    split
    · simp
    · split <;> simp

theorem cellsOf_ne_nil (s : List Char) : cellsOf s ≠ [] :=
  mt List.map_eq_nil_iff.mp (splitPipes_ne_nil false s)

theorem guarded_of_mem_cellsOf (line : '\n' ∉ s) {cell : List Char} (mem : cell ∈ cellsOf s) :
    Guarded cell := by
  have behind : '\n' ∉ ' ' :: s := by simpa using line
  obtain ⟨first, others, cut, here, rest⟩ := guarded_splitPipes false behind nofun
  rw [cellsOf, cut, List.mem_map] at mem
  obtain ⟨piece, mem, rfl⟩ := mem
  have guarded : Guarded piece := by
    rcases List.mem_cons.mp mem with rfl | mem
    · exact here.within (List.suffix_cons ..).isInfix
    · exact rest piece mem
  exact guarded.within (Text.trimWhile_infix ..)

theorem within_of_boxed? {line inside : List Char} (h : boxed? line = some inside) :
    inside <:+: line := by
  have shortened : Text.dropEndWhile Line.isIndent (line.dropWhile (· == ' ')) <:+: line :=
    (Text.dropEndWhile_prefix ..).isInfix.trans (List.dropWhile_suffix _).isInfix
  unfold boxed? at h
  split at h
  · next cs pipe =>
    rw [pipe] at shortened
    split at h
    · obtain rfl := Option.some.inj h
      exact ((List.dropLast_prefix cs).isInfix.trans (List.suffix_cons ..).isInfix).trans shortened
    · contradiction
  · contradiction

/-- The cells of a line of a table are guarded, and there is one at least. -/
theorem cells?_eq_some {form : TableForm} {line : List Char} {cells : List (List Char)}
    (h : cells? form line = some cells) (newline : '\n' ∉ line) :
    cells ≠ [] ∧ ∀ cell ∈ cells, Guarded cell := by
  cases form with
  | boxed =>
    obtain ⟨inside, box, rfl⟩ := Option.map_eq_some_iff.mp h
    have within : '\n' ∉ inside := fun mem => newline ((within_of_boxed? box).subset mem)
    exact ⟨cellsOf_ne_nil inside, fun cell mem => guarded_of_mem_cellsOf within mem⟩
  | bare =>
    rw [cells?] at h
    split at h
    · obtain rfl := Option.some.inj h
      exact ⟨cellsOf_ne_nil line, fun cell mem => guarded_of_mem_cellsOf newline mem⟩
    · contradiction

end Table

/-! ## sound blocks -/

/-- The sources of a table: a cell at least in the header, an alignment for each of them, and
guarded cells everywhere. -/
structure TableSources (alignments : List (Option Alignment)) (header : List (List Char))
    (rows : List (List (List Char))) : Prop where
  filled : header ≠ []
  aligned : alignments.length = header.length
  header : ∀ cell ∈ header, Guarded cell
  rows : ∀ row ∈ rows, ∀ cell ∈ row, Guarded cell

/-- Are the tables in a block read from lines, and the addresses in its definitions encoded?  The
blocks in a list are its items. -/
inductive Block.Sound : Block → Prop
  | paragraph {source : List Char} : Sound (.paragraph source)
  | heading {level : Nat} {source : List Char} : Sound (.heading level source)
  | code {info content : List Char} : Sound (.code info content)
  | html {content : List Char} : Sound (.html content)
  | thematicBreak : Sound .thematicBreak
  | definition {d : Definition} (url : StaysInCell d.target.url.toList) : Sound (.definition d)
  | quote {blocks : List Block} (inside : ∀ b ∈ blocks, Sound b) : Sound (.quote blocks)
  | list {mark : ListMark} {start : Nat} {tight : Bool} {items : List Block}
      (are : ∀ i ∈ items, ∃ blocks, i = .item blocks) (inside : ∀ i ∈ items, Sound i) :
      Sound (.list mark start tight items)
  | item {blocks : List Block} (inside : ∀ b ∈ blocks, Sound b) : Sound (.item blocks)
  | table {alignments : List (Option Alignment)} {header : List (List Char)}
      {rows : List (List (List Char))} (sources : TableSources alignments header rows) :
      Sound (.table alignments header rows)

/-- Are the blocks that are closed inside an open one sound? -/
inductive Open.Sound : Open → Prop
  | nothing : Sound .nothing
  | paragraph {lines : List (List Char)} : Sound (.paragraph lines)
  | fenced {fence : Fence} {lines : List (List Char)} : Sound (.fenced fence lines)
  | indented {lines : List (List Char)} : Sound (.indented lines)
  | html {ending : RawHtml.BlockEnd} {lines : List (List Char)} : Sound (.html ending lines)
  | quote {closed : List Block} {gap spread : Bool} {inner : Open}
      (done : ∀ b ∈ closed, b.Sound) (inside : Sound inner) :
      Sound (.quote closed gap spread inner)
  | list {mark : ListMark} {start : Nat} {items : List Block} {width : Option Nat}
      {closed : List Block} {gap spread : Bool} {inner : Open}
      (are : ∀ i ∈ items, ∃ blocks, i = .item blocks) (before : ∀ i ∈ items, i.Sound)
      (done : ∀ b ∈ closed, b.Sound) (inside : Sound inner) :
      Sound (.list mark start items width closed gap spread inner)

/-- A container with sound blocks. -/
structure Body.Sound (body : Body) : Prop where
  done : ∀ b ∈ body.closed, b.Sound
  inside : body.inner.Sound

/-! ## definitions -/

theorem staysInCell_definition? {d : Definition} {rest : List Char}
    (h : definition? s = some (d, rest)) : StaysInCell d.target.url.toList := by
  unfold definition? at h
  split at h
  · split at h
    · next label cs _ =>
      dsimp only at h
      split at h
      · next destination rest _ _ =>
        suffices address : d.target.url = addressOf destination by
          rw [address]
          exact staysInCell_addressOf destination
        split at h
        · contradiction
        · split at h
          · obtain ⟨rfl, -⟩ := Prod.mk.inj (Option.some.inj h)
            rfl
          · obtain ⟨_, -, is⟩ := Option.map_eq_some_iff.mp h
            obtain ⟨rfl, -⟩ := Prod.mk.inj is
            rfl
      · contradiction
    · contradiction
  · contradiction

/-- The definitions at the start of a paragraph have encoded addresses. -/
theorem staysInCell_splitDefinitions {d : Definition} (mem : d ∈ (splitDefinitions s).1) :
    StaysInCell d.target.url.toList := by
  have all (fuel : Nat) : ∀ d ∈ (takeDefinitions fuel s).1, StaysInCell d.target.url.toList := by
    clear mem
    induction fuel generalizing s with
    | zero => exact nofun
    | succ fuel ih =>
      rw [takeDefinitions]
      split
      · next d rest read =>
        exact List.forall_mem_cons.mpr ⟨staysInCell_definition? read, ih⟩
      · exact nofun
  exact all _ d mem

/-! ## closing -/

theorem sound_closeParagraph (lines : List (List Char)) :
    ∀ b ∈ closeParagraph lines, b.Sound := by
  rw [closeParagraph, List.forall_mem_append, List.forall_mem_map]
  refine ⟨fun d mem => .definition (staysInCell_splitDefinitions mem), ?_⟩
  split
  · exact nofun
  · exact List.forall_mem_singleton.mpr .paragraph

/-- Blocks closed in a container, the last first, and those that its open block leaves. -/
theorem sound_reverse_append {closed left : List Block} (done : ∀ b ∈ closed, b.Sound)
    (more : ∀ b ∈ left, b.Sound) : ∀ b ∈ closed.reverse ++ left, b.Sound := by
  rw [List.forall_mem_append]
  exact ⟨fun b mem => done b (List.mem_reverse.mp mem), more⟩

theorem Open.Sound.close {o : Open} (sound : o.Sound) : ∀ b ∈ o.close, b.Sound := by
  induction sound with
  | nothing => exact nofun
  | paragraph => exact sound_closeParagraph _
  | fenced | indented => exact List.forall_mem_singleton.mpr .code
  | html => exact List.forall_mem_singleton.mpr .html
  | quote done _ ih => exact List.forall_mem_singleton.mpr (.quote (sound_reverse_append done ih))
  | list are before done _ ih =>
    refine List.forall_mem_singleton.mpr (.list ?_ ?_)
    · rw [List.forall_mem_append, List.forall_mem_singleton]
      exact ⟨fun i mem => are i (List.mem_reverse.mp mem), _, rfl⟩
    · exact sound_reverse_append before (List.forall_mem_singleton.mpr (.item (sound_reverse_append done ih)))

theorem Open.Sound.addToParagraph {o : Open} (sound : o.Sound) (line : List Char) :
    (o.addToParagraph line).Sound := by
  induction sound with
  | nothing => exact .nothing
  | paragraph => exact .paragraph
  | fenced => exact .fenced
  | indented => exact .indented
  | html => exact .html
  | quote done _ ih => exact .quote done ih
  | list are before done _ ih => exact .list are before done ih

/-! ## beginning -/

/-- Is what a block leaves in its container sound? -/
def SoundPair (new : List Block × Open) : Prop := (∀ b ∈ new.1, b.Sound) ∧ new.2.Sound

theorem sound_beginLeaf (start : Start) : SoundPair (beginLeaf start) := by
  cases start with
  | heading => exact ⟨List.forall_mem_singleton.mpr .heading, .nothing⟩
  | thematicBreak => exact ⟨List.forall_mem_singleton.mpr .thematicBreak, .nothing⟩
  | fenced => exact ⟨nofun, .fenced⟩
  | indented => exact ⟨nofun, .indented⟩
  | html ending line =>
    rw [beginLeaf]
    split
    · exact ⟨List.forall_mem_singleton.mpr .html, .nothing⟩
    · exact ⟨nofun, .html⟩
  | quote | item => exact ⟨nofun, .nothing⟩

theorem sound_fill (fuel : Nat) (l : Line) : SoundPair (fill fuel l) := by
  induction fuel generalizing l with
  | zero =>
    rw [fill]
    split
    · exact ⟨nofun, .nothing⟩
    · exact ⟨nofun, .paragraph⟩
  | succ fuel ih =>
    rw [fill]
    split
    · exact ⟨nofun, .nothing⟩
    · split
      · exact ⟨nofun, .paragraph⟩
      · next rest _ => exact ⟨nofun, .quote (ih rest).1 (ih rest).2⟩
      · next rest _ => exact ⟨nofun, .list nofun nofun (ih rest).1 (ih rest).2⟩
      · exact sound_beginLeaf _

theorem sound_beginBlock (start : Start) : SoundPair (beginBlock start) := by
  have inside (rest : Line) := sound_fill rest.rest.length rest
  cases start with
  | quote rest => exact ⟨nofun, .quote (inside rest).1 (inside rest).2⟩
  | item mark number width rest =>
    exact ⟨nofun, .list nofun nofun (inside rest).1 (inside rest).2⟩
  | _ => exact sound_beginLeaf _

theorem Body.sound_begin {closed : List Block} (done : ∀ b ∈ closed, b.Sound) (gap spread : Bool)
    {new : List Block × Open} (sound : SoundPair new) : (Body.begin closed gap spread new).Sound :=
  ⟨List.forall_mem_append.mpr ⟨sound.1, done⟩, sound.2⟩

/-! ## going on -/

theorem Open.Sound.leave {o : Open} (sound : o.Sound) {closed : List Block}
    (done : ∀ b ∈ closed, b.Sound) (gap spread : Bool) (l : Line) :
    (o.leave closed gap spread l).Sound := by
  have settled := sound_reverse_append sound.close done
  unfold Open.leave
  dsimp only
  split
  · split
    · exact ⟨done, sound.addToParagraph _⟩
    · exact Body.sound_begin settled gap spread ⟨nofun, .paragraph⟩
  · next mark number width rest mark' start items _ closed' gap' spread' inner _ =>
    split
    · cases sound with
      | list are before done' inside =>
        have item : (Block.item (closed'.reverse ++ inner.close)).Sound :=
          .item (sound_reverse_append done' inside.close)
        have new := sound_fill rest.rest.length rest
        refine ⟨done, .list ?_ (List.forall_mem_cons.mpr ⟨item, before⟩) new.1 new.2⟩
        exact List.forall_mem_cons.mpr ⟨⟨_, rfl⟩, are⟩
    · exact Body.sound_begin settled gap spread (sound_beginBlock _)
  · exact Body.sound_begin settled gap spread (sound_beginBlock _)

/-- A line after an open paragraph goes on it, makes a heading of it, or ends it. -/
theorem sound_feed_paragraph (lines : List (List Char)) {closed : List Block}
    (done : ∀ b ∈ closed, b.Sound) (gap spread : Bool) (l : Line) :
    ((Open.paragraph lines).feed closed gap spread l).Sound := by
  have settled := sound_reverse_append (sound_closeParagraph lines) done
  have begun (start : Start) := Body.sound_begin settled gap spread (sound_beginBlock start)
  have longer : Body.Sound ⟨closed, false, spread, .paragraph (l.content :: lines)⟩ :=
    ⟨done, .paragraph⟩
  rw [Open.feed]
  dsimp only
  split
  · exact ⟨settled, .nothing⟩
  · split
    · split
      · exact begun _
      · exact longer
    · split
      · next _ source before last =>
        rw [last, List.cons_append, List.forall_mem_cons] at settled
        exact ⟨List.forall_mem_cons.mpr ⟨.heading, settled.2⟩, .nothing⟩
      · split
        · exact begun _
        · exact longer

theorem Open.Sound.feed {o : Open} (sound : o.Sound) {closed : List Block}
    (done : ∀ b ∈ closed, b.Sound) (gap spread : Bool) (l : Line) :
    (o.feed closed gap spread l).Sound := by
  induction sound generalizing closed gap spread l with
  | nothing =>
    rw [Open.feed]
    split
    · exact ⟨done, .nothing⟩
    · exact Open.Sound.nothing.leave done gap spread l
  | paragraph => exact sound_feed_paragraph _ done gap spread l
  | fenced =>
    rw [Open.feed]
    split
    · exact ⟨List.forall_mem_append.mpr ⟨Open.Sound.fenced.close, done⟩, .nothing⟩
    · exact ⟨done, .fenced⟩
  | indented =>
    rw [Open.feed]
    split
    · exact ⟨done, .indented⟩
    · split
      · exact ⟨done, .indented⟩
      · exact Open.Sound.indented.leave done gap spread l
  | html =>
    rw [Open.feed]
    split
    · exact ⟨List.forall_mem_append.mpr ⟨Open.Sound.html.close, done⟩, .nothing⟩
    · split
      · exact ⟨List.forall_mem_append.mpr ⟨Open.Sound.html.close, done⟩, .nothing⟩
      · exact ⟨done, .html⟩
  | @quote closed' gap' spread' inner done' inside ih =>
    have quote : (Open.quote closed' gap' spread' inner).Sound := .quote done' inside
    rw [Open.feed]
    split
    · next rest _ =>
      have further := ih done' gap' spread' rest
      exact ⟨done, .quote further.done further.inside⟩
    · dsimp only
      split
      · exact ⟨List.forall_mem_append.mpr ⟨quote.close, done⟩, .nothing⟩
      · exact quote.leave done gap spread l
  | @list mark start items width closed' gap' spread' inner are before done' inside ih =>
    have ended : (Open.list mark start items none closed' true spread' inner).Sound :=
      .list are before done' inside
    have list (width : Option Nat) :
        (Open.list mark start items width closed' gap' spread' inner).Sound :=
      .list are before done' inside
    rw [Open.feed.eq_def]
    dsimp only
    split
    · split
      · exact ⟨done, ended⟩
      · exact (list none).leave done gap spread l
    · next w =>
      generalize (if l.isBlank then Line.whole [] else l.skip w) = rest
      have further := ih done' gap' spread' rest
      split_ifs
      · exact ⟨done, ended⟩
      · exact ⟨done, .list are before further.done further.inside⟩
      · exact (list (some w)).leave done gap spread l

theorem Body.Sound.feed {body : Body} (sound : body.Sound) (l : Line) : (body.feed l).Sound :=
  sound.inside.feed sound.done _ _ l

/-! ## whole texts -/

namespace Table

/-- A table is made of the cells of its lines. -/
theorem attempt_eq_table {header : List Char} {later : List (List Char)} {block : Block}
    {taken : Nat} (h : attempt header later = .table block taken) (newline : '\n' ∉ header)
    (newlines : ∀ line ∈ later, '\n' ∉ line) : block.Sound := by
  unfold attempt at h
  split at h
  · contradiction
  · next delimiters later =>
    split at h
    · contradiction
    · next form _ =>
      split at h
      · next names alignments read _ =>
        dsimp only at h
        split at h
        · next even =>
          obtain ⟨rfl, -⟩ := Attempt.table.inj h
          obtain ⟨filled, guarded⟩ := cells?_eq_some read newline
          refine .table ⟨filled, even.1, guarded, fun row mem => ?_⟩
          have taken : some row ∈ later.map (cells? form) := by
            rw [List.mem_filterMap] at mem
            obtain ⟨_, mem, rfl⟩ := mem
            exact List.takeWhile_subset _ mem
          obtain ⟨line, mem, read⟩ := List.mem_map.mp taken
          exact (cells?_eq_some read (newlines line (List.mem_cons_of_mem _ mem))).2
        · contradiction
      · contradiction

end Table

theorem Body.Sound.feedLines {lines : List (List Char)} (newlines : ∀ line ∈ lines, '\n' ∉ line)
    (tables : Bool) (taken plain : Nat) {body : Body} (sound : body.Sound) :
    (feedLines tables lines taken plain body).Sound := by
  fun_induction Markdown.feedLines tables lines taken plain body with
  | case1 => exact sound
  | case2 _ _ _ _ _ ih => exact ih (List.forall_mem_cons.mp newlines).2 sound
  | case3 _ _ _ _ _ _ ih | case4 _ _ _ _ _ _ _ ih | case5 _ _ _ _ _ _ _ _ _ ih =>
    exact ih (List.forall_mem_cons.mp newlines).2 (sound.feed _)
  | case6 l ls plain body fed block lines found before place closed ih =>
    rw [List.forall_mem_cons] at newlines
    have sound' : fed.Sound := sound.feed (.whole l)
    have table : block.Sound := by
      split at found
      · exact Table.attempt_eq_table found newlines.1 newlines.2
      · contradiction
    have above := sound_reverse_append (sound_closeParagraph before) sound'.done
    exact ih newlines.2 ⟨List.forall_mem_cons.mpr ⟨table, above⟩, .nothing⟩

theorem newline_notMem_linesOf {line : List Char} (mem : line ∈ linesOf s) : '\n' ∉ line := by
  apply Text.newline_notMem_of_mem_lines (s := s)
  unfold linesOf at mem
  dsimp only at mem
  split at mem
  · exact (List.dropLast_subset _) mem
  · exact mem

/-- **All blocks of a text are sound.** -/
theorem sound_blocksOf (o : ReadingOptions) (s : List Char) : ∀ b ∈ blocksOf o s, b.Sound := by
  have empty : ({} : Body).Sound := ⟨nofun, .nothing⟩
  have body := empty.feedLines (fun line => newline_notMem_linesOf (s := Text.normalizeNewlines s))
    o.tables 0 0
  intro b mem
  rw [blocksOf, List.mem_reverse] at mem
  exact sound_reverse_append body.inside.close body.done b mem

end Docsite.Markdown
