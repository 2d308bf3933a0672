import Docsite.Proofs.Markdown.Escape
import Docsite.Proofs.Markdown.LineStarts
import Mathlib.Algebra.GroupWithZero.Nat
import Mathlib.Data.List.Chain

/-!
# Docsite.Proofs.Markdown.TableLines

The lines of a written table, read back cell by cell.

A reader cuts a line at its pipes, except those right behind a backslash (`splitCells`).  A text
stays in its cell if it adds neither such a pipe nor a line feed (`StaysInCell`); texts put together
stay if each of them does, unless one that begins with a pipe meets a backslash.  The lines of a
table have all its columns just if every text in a cell stays there (`inShape_tableLines`).
-/

namespace Docsite.Markdown

variable {s t : List Char} {c : Char}

/-! ## texts that stay in their cell -/

/-- A text in one line, with its pipes right behind backslashes; but perhaps one at its start. -/
structure Guarded (s : List Char) : Prop where
  line : '\n' ∉ s
  pipes : s.IsChain fun before c => c = '|' → before = '\\'

/-- A text in one line with all its pipes right behind backslashes.  A space stands for what is
before it. -/
def StaysInCell (s : List Char) : Prop := Guarded (' ' :: s)

theorem guarded_iff : Guarded s ↔
    '\n' ∉ s ∧ s.IsChain fun before c => c = '|' → before = '\\' :=
  ⟨fun h => ⟨h.line, h.pipes⟩, fun h => ⟨h.1, h.2⟩⟩

instance (s : List Char) : Decidable (Guarded s) := decidable_of_iff' _ guarded_iff

instance (s : List Char) : Decidable (StaysInCell s) := inferInstanceAs (Decidable (Guarded _))

theorem Guarded.within (h : Guarded s) (part : t <:+: s) : Guarded t :=
  ⟨fun mem => h.line (part.subset mem), h.pipes.infix part⟩

theorem guarded_append : Guarded (s ++ t) ↔ Guarded s ∧ Guarded t ∧
    ∀ before ∈ s.getLast?, ∀ c ∈ t.head?, c = '|' → before = '\\' := by
  simp only [guarded_iff, List.mem_append, List.isChain_append, not_or]
  tauto

theorem staysInCell_iff : StaysInCell s ↔ Guarded s ∧ s.head? ≠ some '|' := by
  rw [StaysInCell, ← List.singleton_append, guarded_append]
  have space : Guarded [' '] := ⟨by decide, .singleton _⟩
  cases s with
  | nil => simp [space]
  | cons c cs => simp [space]

/-- Behind any character but a backslash, a text keeps its place as behind a space. -/
theorem guarded_cons (line : c ≠ '\n') (backslash : c ≠ '\\') :
    Guarded (c :: s) ↔ StaysInCell s := by
  rw [staysInCell_iff, ← List.singleton_append, guarded_append]
  have single : Guarded [c] := ⟨by simpa using Ne.symm line, .singleton _⟩
  cases s with
  | nil => simp [single]
  | cons d ds => simp [single, backslash]

theorem staysInCell_nil : StaysInCell [] := by decide

theorem staysInCell_cons (line : c ≠ '\n') (backslash : c ≠ '\\') (pipe : c ≠ '|') :
    StaysInCell (c :: s) ↔ StaysInCell s := by
  rw [staysInCell_iff, guarded_cons line backslash]
  simp [pipe]

/-- A text that begins with no pipe can be put behind any other. -/
theorem staysInCell_append (head : t.head? ≠ some '|') :
    StaysInCell (s ++ t) ↔ StaysInCell s ∧ StaysInCell t := by
  have joint : ∀ before ∈ (' ' :: s).getLast?, ∀ c ∈ t.head?, c = '|' → before = '\\' := by
    rintro before - c first rfl
    exact absurd first head
  rw [StaysInCell, ← List.cons_append, guarded_append, ← StaysInCell, staysInCell_iff (s := t)]
  rw [and_iff_left joint, and_iff_left head]

/-! ## cutting at pipes -/

/-- The pieces of a line between its pipes, but those right behind a backslash. -/
def splitCells (before : Char) : List Char → List (List Char)
  | [] => [[]]
  | c :: cs =>
    if c = '|' ∧ before ≠ '\\' then [] :: splitCells c cs
    else
      match splitCells c cs with
      | [] => [[c]]
      | w :: ws => (c :: w) :: ws

/-- The number of pipes that a line is cut at. -/
def openPipes (before : Char) : List Char → Nat
  | [] => 0
  | c :: cs => (if c = '|' ∧ before ≠ '\\' then 1 else 0) + openPipes c cs

theorem splitCells_ne_nil (before : Char) (s : List Char) : splitCells before s ≠ [] := by
  cases s with
  | nil => simp [splitCells]
  | cons c cs =>
    unfold splitCells
    split
    · simp
    · split <;> simp

theorem length_splitCells (before : Char) (s : List Char) :
    (splitCells before s).length = openPipes before s + 1 := by
  induction s generalizing before with
  | nil => rfl
  | cons c cs ih =>
    obtain ⟨w, ws, cut⟩ := List.exists_cons_of_ne_nil (splitCells_ne_nil c cs)
    have length := ih c
    rw [cut, List.length_cons] at length
    rw [splitCells, openPipes, cut]
    split <;> simp <;> omega

theorem openPipes_append (before : Char) (s t : List Char) :
    openPipes before (s ++ t) = openPipes before s + openPipes (s.getLast?.getD before) t := by
  induction s generalizing before with
  | nil => simp [openPipes]
  | cons c cs ih =>
    rw [List.cons_append, openPipes, openPipes, ih, List.getLast?_cons, Option.getD_some]
    omega

theorem openPipes_eq_zero (before : Char) (s : List Char) : openPipes before s = 0 ↔
    (before :: s).IsChain fun before c => c = '|' → before = '\\' := by
  induction s generalizing before with
  | nil => simp [openPipes]
  | cons c cs ih =>
    rw [openPipes, Nat.add_eq_zero_iff, ih, List.isChain_cons_cons]
    have here : (if c = '|' ∧ before ≠ '\\' then 1 else 0) = 0 ↔ (c = '|' → before = '\\') := by
      split <;> simp_all
    rw [here]

/-- A text stays in its cell if it is one line and is cut nowhere. -/
theorem staysInCell_iff_openPipes : StaysInCell s ↔ '\n' ∉ s ∧ openPipes ' ' s = 0 := by
  rw [StaysInCell, guarded_iff, openPipes_eq_zero, List.mem_cons]
  simp

theorem staysInCell_of_notMem (line : '\n' ∉ s) (pipe : '|' ∉ s) : StaysInCell s := by
  have uncut (before : Char) : openPipes before s = 0 := by
    clear line
    induction s generalizing before with
    | nil => rfl
    | cons c cs ih =>
      rw [List.mem_cons, not_or] at pipe
      rw [openPipes, if_neg fun cut => pipe.1 cut.1.symm, ih pipe.2]
  exact staysInCell_iff_openPipes.mpr ⟨line, uncut ' '⟩

/-- A pipe behind a text that is cut nowhere ends the piece, unless the text ends with a
backslash. -/
theorem splitCells_append {before : Char} (uncut : openPipes before s = 0)
    (last : s.getLast?.getD before ≠ '\\') (t : List Char) :
    splitCells before (s ++ '|' :: t) = s :: splitCells '|' t := by
  induction s generalizing before with
  | nil => rw [List.nil_append, splitCells, if_pos ⟨rfl, last⟩]
  | cons c cs ih =>
    rw [openPipes, Nat.add_eq_zero_iff] at uncut
    have goesOn : ¬(c = '|' ∧ before ≠ '\\') := by
      intro cut
      rw [if_pos cut] at uncut
      exact absurd uncut.1 Nat.one_ne_zero
    rw [List.getLast?_cons, Option.getD_some] at last
    rw [List.cons_append, splitCells, if_neg goesOn, ih uncut.2 last]

/-! ## the line of a row -/

/-- A cell as it stands in a line. -/
def spaced (cell : List Char) : List Char := ' ' :: (cell ++ [' '])

theorem getLast?_spaced (cell : List Char) : (spaced cell).getLast? = some ' ' := by
  rw [spaced, ← List.cons_append, List.getLast?_concat]

theorem openPipes_spaced (cell : List Char) : openPipes '|' (spaced cell) = openPipes ' ' cell := by
  rw [spaced, openPipes, openPipes_append]
  simp [openPipes]

/-- The line of a row is a pipe, and behind it each cell with a pipe. -/
theorem tableLine_eq {cells : List (List Char)} (some : cells ≠ []) :
    tableLine cells = '|' :: cells.flatMap fun cell => spaced cell ++ ['|'] := by
  obtain ⟨cell, cells, rfl⟩ := List.exists_cons_of_ne_nil some
  have others (cells : List (List Char)) :
      ' ' :: '|' :: (cells.flatMap fun cell => spaced cell ++ ['|']) =
        (cells.flatMap fun cell => " | ".toList ++ cell) ++ [' ', '|'] := by
    induction cells with
    | nil => rfl
    | cons cell cells ih =>
      rw [List.flatMap_cons, List.flatMap_cons, List.append_assoc _ _ [' ', '|'], ← ih]
      simp [spaced]
  rw [tableLine, intercalate_cons, List.flatMap_cons, List.cons_append, List.cons_append,
    List.append_assoc, ← others]
  simp [spaced]

/-- The cells of a row in which every text stays are just these. -/
theorem splitCells_flatMap {cells : List (List Char)} (stay : ∀ cell ∈ cells, StaysInCell cell) :
    splitCells '|' (cells.flatMap fun cell => spaced cell ++ ['|']) =
      cells.map spaced ++ [[]] := by
  induction cells with
  | nil => rfl
  | cons cell cells ih =>
    rw [List.forall_mem_cons] at stay
    have uncut : openPipes '|' (spaced cell) = 0 := by
      rw [openPipes_spaced]
      exact (staysInCell_iff_openPipes.mp stay.1).2
    have last : (spaced cell).getLast?.getD '|' ≠ '\\' := by
      rw [getLast?_spaced]
      decide
    rw [List.flatMap_cons, List.append_assoc, List.singleton_append, splitCells_append uncut last,
      ih stay.2, List.map_cons, List.cons_append]

/-- A row is cut behind each of its cells, and wherever a text in a cell is. -/
theorem openPipes_flatMap (cells : List (List Char)) :
    openPipes '|' (cells.flatMap fun cell => spaced cell ++ ['|']) =
      (cells.map (openPipes ' ')).sum + cells.length := by
  induction cells with
  | nil => rfl
  | cons cell cells ih =>
    rw [List.flatMap_cons, openPipes_append, openPipes_append, openPipes_spaced, getLast?_spaced,
      List.getLast?_concat]
    simp only [Option.getD_some, ih, List.map_cons, List.sum_cons, List.length_cons]
    simp [openPipes]
    omega

/-- A line begins and ends with a pipe, and between the two is a number of cells. -/
def HasColumns (columns : Nat) (line : List Char) : Prop :=
  ∃ cells, cells.length = columns ∧ splitCells ' ' line = [] :: (cells ++ [[]])

theorem HasColumns.openPipes_eq {columns : Nat} {line : List Char} (h : HasColumns columns line) :
    openPipes ' ' line = columns + 1 := by
  obtain ⟨cells, length, cut⟩ := h
  have count := congrArg List.length cut
  rw [length_splitCells, List.length_cons, List.length_append, length, List.length_singleton] at count
  exact Nat.succ.inj count

/-- The line of a row has a column for each cell just if no text in a cell is cut. -/
theorem hasColumns_tableLine {cells : List (List Char)} (some : cells ≠ [])
    (line : ∀ cell ∈ cells, '\n' ∉ cell) :
    HasColumns cells.length (tableLine cells) ↔ ∀ cell ∈ cells, StaysInCell cell := by
  rw [tableLine_eq some]
  constructor
  · intro columns
    have count := columns.openPipes_eq
    rw [openPipes, if_pos (by decide), openPipes_flatMap] at count
    have none : (cells.map (openPipes ' ')).sum = 0 := by omega
    rw [List.sum_eq_zero_iff_forall_eq_nat, List.forall_mem_map] at none
    exact fun cell mem => staysInCell_iff_openPipes.mpr ⟨line cell mem, none cell mem⟩
  · intro stay
    refine ⟨cells.map spaced, List.length_map .., ?_⟩
    rw [splitCells, if_pos (by decide), splitCells_flatMap stay]

/-! ## the lines of a table -/

theorem length_lines (s : List Char) : (Text.lines s).length = s.count '\n' + 1 := by
  induction s with
  | nil => rfl
  | cons c cs ih =>
    by_cases newline : c = '\n'
    · subst newline
      rw [Text.lines_newline, List.length_cons, ih, List.count_cons_self]
    · obtain ⟨l, ls, cut, cut'⟩ := Text.lines_cons newline cs
      rw [cut', List.count_cons_of_ne newline, ← ih, cut, List.length_cons, List.length_cons]

/-- Lines put together are more than they were if one of them holds a line feed. -/
theorem length_lines_unlines {ls : List (List Char)} (some : ls ≠ []) :
    (Text.lines (Text.unlines ls)).length = (ls.map (List.count '\n')).sum + ls.length := by
  induction ls with
  | nil => contradiction
  | cons l ls ih =>
    cases ls with
    | nil => simp [length_lines]
    | cons m ms =>
      rw [Text.unlines_cons_cons, Text.lines_append_newline, List.length_append, length_lines,
        ih (by simp)]
      simp only [List.map_cons, List.sum_cons, List.length_cons]
      omega

/-- A text has the shape of a table: a line for each row and one below the first, all with so many
columns. -/
structure InShape (rows columns : Nat) (s : List Char) : Prop where
  lines : (Text.lines s).length = rows + 1
  columns : ∀ line ∈ Text.lines s, HasColumns columns line

theorem notMem_of_notMem_tableLine {cells : List (List Char)} (some : cells ≠ [])
    (line : c ∉ tableLine cells) : ∀ cell ∈ cells, c ∉ cell := by
  intro cell mem inside
  rw [tableLine_eq some] at line
  refine line (List.mem_cons_of_mem _ (List.mem_flatMap.mpr ⟨cell, mem, ?_⟩))
  simp [spaced, inside]

theorem newline_notMem_tableLine {cells : List (List Char)} (line : ∀ cell ∈ cells, '\n' ∉ cell) :
    '\n' ∉ tableLine cells := by
  intro mem
  have inside : '\n' ∈ " | ".toList.intercalate cells := by simpa [tableLine] using mem
  rcases mem_intercalate inside with between | ⟨cell, there, inside⟩
  · exact absurd between (by decide)
  · exact line cell there inside

theorem staysInCell_alignmentMark (alignment : Option String) :
    StaysInCell (alignmentMark alignment) := by
  unfold alignmentMark
  split <;> decide

theorem length_fit {α : Type} (n : Nat) (filler : α) (xs : List α) :
    (fit n filler xs).length = n := by
  simp [fit]
  omega

theorem mem_fit_of_mem {α : Type} {n : Nat} {filler x : α} {xs : List α} (short : xs.length ≤ n)
    (mem : x ∈ xs) : x ∈ fit n filler xs := by
  rw [fit, List.take_of_length_le short]
  exact List.mem_append_left _ mem

/-- Lines with so many cells each have the shape of a table just if every text stays in its
cell. -/
theorem inShape_unlines {rows columns : Nat} {lines : List (List (List Char))}
    (filled : columns ≠ 0) (count : lines.length = rows + 1)
    (width : ∀ cells ∈ lines, cells.length = columns) :
    InShape rows columns (Text.unlines (lines.map tableLine)) ↔
      ∀ cells ∈ lines, ∀ cell ∈ cells, StaysInCell cell := by
  have some : lines.map tableLine ≠ [] := by
    rw [ne_eq, List.map_eq_nil_iff]
    exact List.ne_nil_of_length_eq_add_one count
  have filled (cells) (mem : cells ∈ lines) : cells ≠ [] := by
    rintro rfl
    exact filled (width [] mem).symm
  constructor
  · rintro ⟨total, columns⟩ cells mem
    rw [length_lines_unlines some, List.length_map, count] at total
    have none : ((lines.map tableLine).map (List.count '\n')).sum = 0 := by omega
    rw [List.sum_eq_zero_iff_forall_eq_nat, List.forall_mem_map] at none
    have line (l) (mem : l ∈ lines.map tableLine) : '\n' ∉ l := List.count_eq_zero.mp (none l mem)
    rw [Text.lines_unlines some line] at columns
    have mem' := List.mem_map_of_mem (f := tableLine) mem
    have cut := columns _ mem'
    rw [← width cells mem, hasColumns_tableLine (filled cells mem)
      (notMem_of_notMem_tableLine (filled cells mem) (line _ mem'))] at cut
    exact cut
  · intro stay
    have inLine (cells) (mem : cells ∈ lines) : ∀ cell ∈ cells, '\n' ∉ cell :=
      fun cell inside => (staysInCell_iff_openPipes.mp (stay cells mem cell inside)).1
    have cut : Text.lines (Text.unlines (lines.map tableLine)) = lines.map tableLine :=
      Text.lines_unlines some (List.forall_mem_map.mpr fun cells mem =>
        newline_notMem_tableLine (inLine cells mem))
    refine ⟨by rw [cut, List.length_map, count], ?_⟩
    rw [cut, List.forall_mem_map]
    intro cells mem
    rw [← width cells mem, hasColumns_tableLine (filled cells mem) (inLine cells mem)]
    exact stay cells mem

/-- The cells of the lines of a table: those of the rows, filled up, and the marks of the columns
below the first. -/
def lineCells (columns : Nat) (alignments : List (Option String)) :
    List (List (List Char)) → List (List (List Char))
  | [] => []
  | cells :: rows =>
    fit columns [] cells :: (fit columns none alignments).map alignmentMark
      :: rows.map (fit columns [])

theorem tableLines_eq (alignments : List (Option String)) (rows : List (List (List Char))) :
    tableLines alignments rows =
      (lineCells ((rows.map List.length).foldl max 0) alignments rows).map tableLine := by
  cases rows <;> simp [tableLines, lineCells]

theorem length_of_mem_lineCells {columns : Nat} {alignments : List (Option String)}
    {rows : List (List (List Char))} {cells : List (List Char)}
    (mem : cells ∈ lineCells columns alignments rows) : cells.length = columns := by
  cases rows with
  | nil => contradiction
  | cons first rows =>
    rw [lineCells, List.mem_cons, List.mem_cons, List.mem_map] at mem
    rcases mem with rfl | rfl | ⟨row, -, rfl⟩
    · exact length_fit ..
    · rw [List.length_map, length_fit]
    · exact length_fit ..

/-- Filling up and the marks add nothing that leaves its cell. -/
theorem forall_staysInCell_lineCells {columns : Nat} (alignments : List (Option String))
    {rows : List (List (List Char))} (short : ∀ cells ∈ rows, cells.length ≤ columns) :
    (∀ cells ∈ lineCells columns alignments rows, ∀ cell ∈ cells, StaysInCell cell) ↔
      ∀ cells ∈ rows, ∀ cell ∈ cells, StaysInCell cell := by
  have row {cells : List (List Char)} (short : cells.length ≤ columns) :
      (∀ cell ∈ fit columns [] cells, StaysInCell cell) ↔ ∀ cell ∈ cells, StaysInCell cell := by
    constructor
    · exact fun stay cell mem => stay cell (mem_fit_of_mem short mem)
    · intro stay cell mem
      rcases mem_fit mem with inside | rfl
      · exact stay cell inside
      · exact staysInCell_nil
  have marks : ∀ alignment ∈ fit columns none alignments, StaysInCell (alignmentMark alignment) :=
    fun alignment _ => staysInCell_alignmentMark alignment
  cases rows with
  | nil => rfl
  | cons first rows =>
    rw [List.forall_mem_cons] at short
    rw [lineCells, List.forall_mem_cons, List.forall_mem_cons, List.forall_mem_cons,
      List.forall_mem_map, List.forall_mem_map, row short.1, and_iff_right marks]
    exact and_congr_right' (forall₂_congr fun cells mem => row (short.2 cells mem))

/-- **A table has its shape just if all texts in its cells stay there.** -/
theorem inShape_tableLines (alignments : List (Option String)) {rows : List (List (List Char))}
    {columns : Nat} (is : (rows.map List.length).foldl max 0 = columns) (filled : columns ≠ 0) :
    InShape rows.length columns (Text.unlines (tableLines alignments rows)) ↔
      ∀ cells ∈ rows, ∀ cell ∈ cells, StaysInCell cell := by
  have short : ∀ cells ∈ rows, cells.length ≤ columns := by
    intro cells mem
    rw [← is, List.foldl_max]
    exact Nat.le_trans (List.le_max?_getD_of_mem (List.mem_map_of_mem mem)) (Nat.le_max_right ..)
  have count : (lineCells columns alignments rows).length = rows.length + 1 := by
    cases rows with
    | nil => exact absurd is.symm filled
    | cons first rows => rw [lineCells]; simp
  rw [tableLines_eq, is, inShape_unlines filled count fun _ => length_of_mem_lineCells,
    forall_staysInCell_lineCells alignments short]

end Docsite.Markdown
