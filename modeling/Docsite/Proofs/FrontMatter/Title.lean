import Docsite.Conversion
import Docsite.Proofs.Markdown.LineStarts
import Mathlib.Data.List.Induction

/-!
# Docsite.Proofs.FrontMatter.Title

Where the title of a page comes from.

The title is read off the lines of a page, and line feeds separate the blocks of a document, so it
is the title of the first block that has one (`writtenTitle?_joinBlocks`).  Trimming the page
cannot change a title that says something (`titleOf?_tidy`).  A block has a title if it is written
with a line that looks like a level-one heading: such a heading itself, or code or HTML with a line
of that form in it.  Nothing else can be, because nothing else brings a hash sign to the start of a
line (`blockTitle?_eq_none`).
-/

namespace Docsite.FrontMatter

open Document Markdown

/-! ## lines -/

theorem titleOf?_append_newline (s t : List Char) :
    titleOf? (s ++ '\n' :: t) = (titleOf? s).or (titleOf? t) := by
  rw [titleOf?, Text.lines_append_newline, List.findSome?_append]
  rfl

@[simp] theorem titleOf?_newline (s : List Char) : titleOf? ('\n' :: s) = titleOf? s :=
  titleOf?_append_newline [] s

theorem titleOf?_dropWhile_newline (s : List Char) :
    titleOf? (s.dropWhile (· == '\n')) = titleOf? s := by
  induction s with
  | nil => rfl
  | cons c cs ih =>
    by_cases newline : c = '\n'
    · subst newline
      simpa using ih
    · rw [List.dropWhile_cons_of_neg (by simpa using newline)]

theorem titleOfLine?_eq_none {l : List Char} (h : l.head? ≠ some '#') : titleOfLine? l = none := by
  unfold titleOfLine?
  split
  · exact absurd rfl h
  · rfl

theorem titleOf?_eq_none {s : List Char} (h : ∀ l ∈ Text.lines s, l.head? ≠ some '#') :
    titleOf? s = none :=
  List.findSome?_eq_none_iff.mpr fun l mem => titleOfLine?_eq_none (h l mem)

theorem titleOf?_heading {content : List Char} (oneLine : '\n' ∉ content) (some : content ≠ []) :
    titleOf? ('#' :: ' ' :: content) = .some (Text.trim content) := by
  obtain ⟨c, cs, rfl⟩ := List.exists_cons_of_ne_nil some
  have whole : '\n' ∉ '#' :: ' ' :: c :: cs := by simpa using oneLine
  rw [titleOf?, Text.lines_of_notMem whole]
  rfl

/-- A line of two hash signs and more is no title line. -/
theorem titleOf?_deeper {s : List Char} (h : hashless false ('#' :: '#' :: s) = true) :
    titleOf? ('#' :: '#' :: s) = none := by
  have hash : '#' ≠ '\n' := by decide
  have later := (head?_of_hashless h).2
  rw [Text.tail_lines_cons hash, Text.tail_lines_cons hash] at later
  obtain ⟨l, ls, cut, one⟩ := Text.lines_cons hash s
  obtain ⟨m, ms, one', two⟩ := Text.lines_cons hash ('#' :: s)
  rw [one] at one'
  obtain ⟨rfl, rfl⟩ := List.cons.inj one'
  rw [cut, List.tail_cons] at later
  have none : titleOfLine? ('#' :: '#' :: l) = none := rfl
  rw [titleOf?, two, List.findSome?_cons, none]
  exact List.findSome?_eq_none_iff.mpr fun k mem => titleOfLine?_eq_none (later k mem)

/-! ## trimming -/

theorem titleOfLine?_other {a b : Char} (h : ¬(a = '#' ∧ b = ' ')) (l : List Char) :
    titleOfLine? (a :: b :: l) = none := by
  unfold titleOfLine?
  split
  · next same =>
    simp only [List.cons.injEq] at same
    exact absurd ⟨same.1, same.2.1⟩ h
  · rfl

theorem titleOfLine?_concat {c : Char} (blank : Text.isBlank c = true) (l : List Char) :
    titleOfLine? (l ++ [c]) = some [] ∨ titleOfLine? (l ++ [c]) = titleOfLine? l := by
  rcases l with - | ⟨a, - | ⟨b, rest⟩⟩
  · exact .inr (by simp [titleOfLine?])
  · exact .inr (by simp [titleOfLine?])
  · by_cases mark : a = '#' ∧ b = ' '
    · obtain ⟨rfl, rfl⟩ := mark
      cases rest with
      | nil =>
        have nothing : Text.trim [c] = [] := Text.trim_concat blank []
        exact .inl (congrArg some nothing)
      | cons d ds =>
        have same := Text.trim_concat blank (d :: ds)
        exact .inr (congrArg some same)
    · exact .inr (by simp only [List.cons_append, titleOfLine?_other mark])

/-- White space at the end of a text does not matter, unless there is a title line that says
nothing. -/
theorem titleOf?_concat {c : Char} (blank : Text.isBlank c = true) {s : List Char}
    (worded : titleOf? (s ++ [c]) ≠ some []) : titleOf? (s ++ [c]) = titleOf? s := by
  by_cases newline : c = '\n'
  · subst newline
    rw [titleOf?_append_newline]
    cases titleOf? s <;> rfl
  · obtain ⟨ls, l, cut, longer⟩ := Text.lines_concat newline s
    rw [titleOf?, longer, List.findSome?_append] at worded ⊢
    rw [titleOf?, cut, List.findSome?_append]
    rw [List.findSome?_singleton] at worded ⊢
    rw [List.findSome?_singleton]
    -- The last line alone grows, so no other title can change.
    cases above : ls.findSome? titleOfLine? with
    | some title => rfl
    | none =>
      rw [above, Option.none_or] at worded
      rw [(titleOfLine?_concat blank l).resolve_left worded]

theorem titleOf?_dropEndWhile {p : Char → Bool} (blank : ∀ c, p c = true → Text.isBlank c = true)
    {s : List Char} (worded : titleOf? s ≠ some []) :
    titleOf? (Text.dropEndWhile p s) = titleOf? s := by
  induction s using List.reverseRecOn with
  | nil => rfl
  | append_singleton s c ih =>
    rw [Text.dropEndWhile_concat]
    split
    · next dropped =>
      have same := titleOf?_concat (blank c dropped) worded
      rw [same] at worded ⊢
      exact ih worded
    · rfl

/-- The title of a text when its line endings are normalized. -/
def writtenTitle? (s : List Char) : Option (List Char) := titleOf? (Text.normalizeNewlines s)

/-- A finished page has the title of what was written. -/
theorem titleOf?_tidy {s : List Char} (worded : writtenTitle? s ≠ some []) :
    titleOf? (tidy s) = writtenTitle? s := by
  have newlines : ∀ c, (c == '\n') = true → Text.isBlank c = true := by
    intro c is
    rw [eq_of_beq is]
    decide
  unfold writtenTitle? at worded ⊢
  have start := titleOf?_dropWhile_newline (Text.normalizeNewlines s)
  rw [← start] at worded ⊢
  have middle := titleOf?_dropEndWhile newlines worded
  rw [← middle] at worded ⊢
  exact titleOf?_dropEndWhile (fun _ => id) worded

/-! ## blocks -/

theorem writtenTitle?_append_newline (s t : List Char) :
    writtenTitle? (s ++ '\n' :: t) = (writtenTitle? s).or (writtenTitle? t) := by
  unfold writtenTitle?
  -- A carriage return right before the line feed is a part of it, and an empty line is gone.
  by_cases carriage : ∃ ds, s = ds ++ ['\r']
  · obtain ⟨ds, rfl⟩ := carriage
    have other (u : List Char) : Text.normalizeNewlines (ds ++ '\r' :: u) =
        Text.normalizeNewlines ds ++ Text.normalizeNewlines ('\r' :: u) :=
      Text.normalizeNewlines_append fun _ _ => by simp
    rw [List.append_assoc, List.singleton_append, other, other]
    simp only [Text.normalizeNewlines]
    rw [titleOf?_append_newline, titleOf?_append_newline]
    simp [titleOf?, titleOfLine?]
  · rw [Text.normalizeNewlines_append fun ds is => absurd ⟨ds, is⟩ carriage]
    rw [← titleOf?_append_newline]
    simp [Text.normalizeNewlines]

theorem writtenTitle?_append_flatMap (s : List Char) (ts : List (List Char)) :
    writtenTitle? (s ++ ts.flatMap (spacing false ++ ·)) =
      (writtenTitle? s).or (ts.findSome? writtenTitle?) := by
  induction ts generalizing s with
  | nil => simp
  | cons t ts ih =>
    have nothing : writtenTitle? [] = none := rfl
    have apart := writtenTitle?_append_newline [] (t ++ ts.flatMap (spacing false ++ ·))
    rw [ih t] at apart
    rw [List.flatMap_cons, List.findSome?_cons]
    simp [spacing] at apart ⊢
    rw [writtenTitle?_append_newline, apart, nothing]
    cases writtenTitle? t <;> rfl

/-- The title of blocks is that of the first block that has one. -/
theorem writtenTitle?_joinBlocks (ts : List (List Char)) :
    writtenTitle? (joinBlocks (spacing false) ts) = ts.findSome? writtenTitle? := by
  have filled : (ts.filter (!·.isEmpty)).findSome? writtenTitle? = ts.findSome? writtenTitle? := by
    induction ts with
    | nil => rfl
    | cons t ts ih =>
      cases t with
      | nil => exact ih
      | cons c cs =>
        rw [List.filter_cons_of_pos rfl, List.findSome?_cons, List.findSome?_cons, ih]
  rw [joinBlocks, ← filled]
  cases ts.filter (!·.isEmpty) with
  | nil => rfl
  | cons t ts =>
    rw [intercalate_cons, writtenTitle?_append_flatMap, List.findSome?_cons]
    cases writtenTitle? t <;> rfl

/-- The title that a block brings to a page. -/
def blockTitle? (n : Node) : Option (List Char) := writtenTitle? (write {} 0 {} n).1

theorem writtenTitle?_document (blocks : List Node) :
    writtenTitle? (write {} 0 {} (.document blocks)).1 = blocks.findSome? blockTitle? := by
  rw [write, writeAll_eq_map]
  simp only
  rw [writtenTitle?_joinBlocks, List.findSome?_map]
  rfl

/-- Is a node a heading of the first level? -/
def isTitleHeading : Node → Bool
  | .branch (.heading level) _ => level == 1
  | _ => false

theorem writtenTitle?_of_clean {s : List Char} (h : Clean s) : writtenTitle? s = none := by
  rw [writtenTitle?, Text.normalizeNewlines_of_notMem h.returns]
  exact titleOf?_eq_none fun l mem => head?_of_mem_lines h.hashes mem

/-- A heading of another level has no title line: neither its first line nor a later one. -/
theorem blockTitle?_heading {level : Int} {kids : List Node} (other : level ≠ 1)
    (tame : Tame (.branch (.heading level) kids)) :
    blockTitle? (.branch (.heading level) kids) = none := by
  have clean := clean_content tame rfl 0 { inHeading := true }
  rw [blockTitle?, write]
  simp only
  generalize (writeAll {} 0 { inHeading := true } kids).1.flatten = content at clean
  have behind : Clean (' ' :: content) := clean.cons (by decide) (by decide)
  have marks (k : Nat) (c : Char) (mem : c ∈ List.replicate k '#') : c = '#' :=
    List.eq_of_mem_replicate mem
  rcases level.toNat.eq_zero_or_pos with zero | pos
  · rw [zero]
    exact writtenTitle?_of_clean behind
  · obtain ⟨k, more⟩ : ∃ k, level.toNat = k + 2 := ⟨level.toNat - 2, by omega⟩
    have inLine : hashless false (List.replicate (k + 2) '#') = true :=
      hashless_of_notMem fun mem => absurd (marks _ _ mem) (by decide)
    have returns : '\r' ∉ List.replicate (k + 2) '#' ++ ' ' :: content := by
      rw [List.mem_append, not_or]
      exact ⟨fun mem => absurd (marks _ _ mem) (by decide), behind.returns⟩
    rw [more, writtenTitle?, Text.normalizeNewlines_of_notMem returns]
    exact titleOf?_deeper (hashless_append inLine behind.hashes)

/-- A block without code and HTML that is no heading of the first level brings no title. -/
theorem blockTitle?_eq_none {n : Node} (block : (Node.kind n).isBlock = true) (tame : Tame n)
    (other : isTitleHeading n = false) (code : Node.kind n ≠ .codeBlock)
    (html : Node.kind n ≠ .htmlBlock) : blockTitle? n = none := by
  by_cases heading : Node.kind n = .heading
  · cases n with
    | leaf l => cases l <;> contradiction
    | branch b kids =>
      cases b with
      | heading level => exact blockTitle?_heading (by simpa [isTitleHeading] using other) tame
      | _ => contradiction
  · have quiet : mayHash (Node.kind n) = false := by
      unfold mayHash
      split <;> first
        | rfl
        | contradiction
    exact writtenTitle?_of_clean ((write_block 0 {} n block tame).2 quiet)

/-- What a heading says, as it is written. -/
def headingText (content : List Node) : List Char :=
  (writeAll {} 0 { inHeading := true } content).1.flatten

theorem blockTitle?_titleHeading {content : List Node} (oneLine : '\n' ∉ headingText content)
    (returns : '\r' ∉ headingText content) (filled : headingText content ≠ []) :
    blockTitle? (.branch (.heading 1) content) = some (Text.trim (headingText content)) := by
  have whole : '\r' ∉ '#' :: ' ' :: headingText content := by simpa using returns
  have written : (write {} 0 {} (.branch (.heading 1) content)).1 =
      '#' :: ' ' :: headingText content := by
    rw [write]
    rfl
  rw [blockTitle?, written, writtenTitle?, Text.normalizeNewlines_of_notMem whole]
  exact titleOf?_heading oneLine filled

/-! ## pages -/

section

variable {s : Conversion.Settings} (marks : s.writing = {})
include marks

/-- A page has the title of its first block that has one, if that title says something. -/
theorem titleOf?_body {blocks : List Node} (worded : blocks.findSome? blockTitle? ≠ some []) :
    titleOf? (Conversion.body s (.document blocks)).toList = blocks.findSome? blockTitle? := by
  have written := writtenTitle?_document blocks
  rw [← written] at worded ⊢
  have nothing : titleOf? [] = none := rfl
  rw [Conversion.body, marks, String.toList_append, render, String.toList_ofList]
  show titleOf? (tidy _ ++ '\n' :: []) = _
  rw [titleOf?_append_newline, nothing, Option.or_none, titleOf?_tidy worded]

theorem titleOf?_titleHeading {before content after : List Node}
    (first : ∀ n ∈ before, blockTitle? n = none)
    (oneLine : ∀ c ∈ headingText content, c ≠ '\n' ∧ c ≠ '\r')
    (worded : Text.trim (headingText content) ≠ []) :
    titleOf? (Conversion.body s
        (.document (before ++ .branch (.heading 1) content :: after))).toList =
      some (Text.trim (headingText content)) := by
  have newline : '\n' ∉ headingText content := fun mem => (oneLine _ mem).1 rfl
  have returns : '\r' ∉ headingText content := fun mem => (oneLine _ mem).2 rfl
  have filled : headingText content ≠ [] := by
    intro empty
    rw [empty] at worded
    exact worded rfl
  have blocks : (before ++ .branch (.heading 1) content :: after).findSome? blockTitle? =
      some (Text.trim (headingText content)) := by
    rw [List.findSome?_append, List.findSome?_eq_none_iff.mpr first, Option.none_or,
      List.findSome?_cons, blockTitle?_titleHeading newline returns filled]
  rw [titleOf?_body marks (by simpa [blocks] using worded), blocks]

end

/-- Is a node one of prose: text without carriage returns, hard and thematic breaks, and what is
made of these, in the shape that Markdown has? -/
def isProse : Node → Bool
  | .leaf (.text content) => !content.toList.contains '\r'
  | .leaf .lineBreak => true
  | .leaf .thematicBreak => true
  | .leaf _ => false
  | .branch .root _ => false
  | .branch (.link _ _) _ => false
  | .branch b kids => kids.all fun n => b.admits (Node.kind n)

theorem tame_of_isProse {n : Node} (h : ∀ m ∈ n.subtrees, isProse m = true) : Tame n := by
  intro m mem
  have prose := h m mem
  cases m with
  | leaf l =>
    cases l with
    | text content =>
      have returns : '\r' ∉ content.toList := by simpa [isProse] using prose
      exact ⟨trivial, decide_eq_true returns⟩
    | lineBreak => exact ⟨trivial, by decide⟩
    | thematicBreak => exact ⟨trivial, by decide⟩
    | _ => contradiction
  | branch b kids =>
    cases b with
    | root => contradiction
    | link url title => contradiction
    | _ => exact ⟨List.all_eq_true.mp prose, rfl⟩

/-- **The title of a page is that of its first top heading.**  Blocks of prose before the first
heading of the first level bring no title, whatever headings stand in their quotes and lists, and
what comes behind that heading does not matter.  So if the heading is written on one line and says
something, the title, the label and the address of the page come from it alone. -/
theorem prepend?_titleHeading {s : Conversion.Settings} (marks : s.writing = {}) (tables : Tables)
    {before content : List Node} (blocks : ∀ n ∈ before, (Node.kind n).isBlock = true)
    (prose : ∀ m ∈ Tree.subtreesAll before, isProse m = true)
    (first : ∀ n ∈ before, isTitleHeading n = false)
    (oneLine : ∀ c ∈ headingText content, c ≠ '\n' ∧ c ≠ '\r')
    (worded : Text.trim (headingText content) ≠ []) (after : List Node) :
    let heading := Tree.branch (.heading 1) content
    let page := (Conversion.body s (.document (before ++ heading :: after))).toList
    let title := Text.trim (headingText content)
    let fm := ofTitle tables (.ofList title)
    titleOf? page = some title ∧
      prepend? tables page = some (fm, fm.block ++ '\n' :: '\n' :: page) := by
  intro heading page title fm
  have untitled : ∀ n ∈ before, blockTitle? n = none := by
    intro n mem
    have inside : ∀ m ∈ n.subtrees, isProse m = true := by
      intro m below
      exact prose m (Tree.subtrees_subset_all before n (Tree.mem_subtreesAll mem) below)
    have notVerbatim := inside n (Tree.mem_subtrees_self n)
    apply blockTitle?_eq_none (blocks n mem) (tame_of_isProse inside) (first n mem)
    all_goals
      intro kind
      cases n with
      | leaf l => cases l <;> contradiction
      | branch b kids => cases b <;> contradiction
  have titled : titleOf? page = some title := titleOf?_titleHeading marks untitled oneLine worded
  exact ⟨titled, by rw [prepend?, toOption_extractTitle, titled]; rfl⟩

/-- Headings in a quote and in a list, and hash signs in texts, before the heading, and code behind
it. -/
theorem prepend?_titleHeading_home :
    let before : List Node :=
      [.paragraph [Node.text "a\n# b", .leaf .lineBreak, Node.text "# c"],
        .branch .quote [.branch (.heading 1) [Node.text "d"]],
        .branch (.list false 1 true) [.branch (.item none) [.branch (.heading 1) [Node.text "e"]]],
        .branch (.heading 2) [Node.text "f\n# g"]]
    let heading : Node :=
      .branch (.heading 1) [.branch .emphasis [Node.text "User"], Node.text " guide "]
    let after : List Node := [.leaf (.codeBlock "# h" none), .branch (.heading 1) [Node.text "i"]]
    let page := (Conversion.body {} (.document (before ++ heading :: after))).toList
    (∀ n ∈ before, isTitleHeading n = false) ∧ titleOf? page = some "*User* guide".toList := by
  intro before heading after page
  have blocks : ∀ n ∈ before, (Node.kind n).isBlock = true := by decide
  have first : ∀ n ∈ before, isTitleHeading n = false := by decide
  have prose : ∀ m ∈ Tree.subtreesAll before, isProse m = true := by decide +kernel
  have text : headingText heading.children = "*User* guide ".toList := by decide +kernel
  have oneLine : ∀ c ∈ headingText heading.children, c ≠ '\n' ∧ c ≠ '\r' := by
    rw [text]
    simp
  have trimmed : Text.trim (headingText heading.children) = "*User* guide".toList := by
    rw [text]
    decide
  have worded : Text.trim (headingText heading.children) ≠ [] := by
    rw [trimmed]
    decide
  refine ⟨first, ?_⟩
  rw [← trimmed]
  exact (prepend?_titleHeading (s := {}) rfl {} blocks prose first oneLine worded after).1

/-! ## pages without a top heading -/

/-- The title line in a block that is written as it stands. -/
def verbatimTitle? : Node → Option (List Char)
  | .leaf (.codeBlock content language) => titleOf? (codeBlock {} content.toList language)
  | .html content => titleOf? content.toList
  | _ => none

theorem blockTitle?_eq_verbatimTitle? {n : Node} (block : (Node.kind n).isBlock = true)
    (tame : Tame n) (other : isTitleHeading n = false) : blockTitle? n = verbatimTitle? n := by
  have calm := isCalm_of_tame tame
  have nothing (code : Node.kind n ≠ .codeBlock) (html : Node.kind n ≠ .htmlBlock) :
      blockTitle? n = none := blockTitle?_eq_none block tame other code html
  cases n with
  | leaf l =>
    cases l with
    | codeBlock content language =>
      rw [blockTitle?, write, writtenTitle?]
      exact congrArg titleOf? (Text.normalizeNewlines_of_notMem (of_decide_eq_true calm))
    | htmlBlock content =>
      rw [blockTitle?, write, writtenTitle?]
      exact congrArg titleOf? (Text.normalizeNewlines_of_notMem (of_decide_eq_true calm))
    | _ => exact nothing nofun nofun
  | branch b kids =>
    have shown : verbatimTitle? (.branch b kids) = none := rfl
    rw [shown]
    apply nothing <;> cases b <;> nofun

end Docsite.FrontMatter
