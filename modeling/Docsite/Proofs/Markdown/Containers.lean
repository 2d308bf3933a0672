import Docsite.Proofs.Document.Shape
import Docsite.Proofs.Markdown.Layout
import Docsite.Proofs.Text.Lines

/-!
# Docsite.Proofs.Markdown.Containers

Blocks inside containers, on the finished page.

Blocks stand below each other in the document itself, in quotes and in the items of lists
(`Holder`).  Each of these writes its blocks one below the other and then puts something before the
lines.  When that is taken off again, all blocks of a holder are found on the page as they were
written (`found_of_holder`).
-/

namespace Docsite.Markdown

open Document Docsite.Tree

/-! ## holders -/

/-- What holds blocks in a document: the number of lists around it, whether it is an item of a tight
list, and the node itself. -/
inductive Holder (n : Node) : Nat → Bool → Node → Prop
  | root : Holder n 0 false n
  | quote {depth : Nat} {tight : Bool} {m : Node} {kids : List Node} :
    Holder n depth tight m → .branch .quote kids ∈ m.children →
    Holder n depth false (.branch .quote kids)
  | item {depth : Nat} {tight : Bool} {m : Node} {ordered : Bool} {start : Int} {close : Bool}
      {items : List Node} {task : Option TaskStatus} {kids : List Node} :
    Holder n depth tight m → .branch (.list ordered start close) items ∈ m.children →
    .branch (.item task) kids ∈ items → Holder n (depth + 1) close (.branch (.item task) kids)

/-- What is known of a node on the way down: if it can hold blocks it is a holder, and if it is a
list it stands in one. -/
structure OnTheWay (n m : Node) : Prop where
  holds : ∀ b kids, m = .branch b kids → b.holdsBlocks = true →
    ∃ depth tight, Holder n depth tight m
  list : Node.kind m = .list → ∃ depth tight p, Holder n depth tight p ∧ m ∈ p.children

/-- In a well-shaped document everything that can hold blocks is a holder. -/
theorem exists_holder {blocks : List Node} (shape : Node.WellShaped (.document blocks)) :
    ∀ m ∈ (Node.document blocks).subtrees, OnTheWay (.document blocks) m := by
  apply forall_subtrees
  · exact ⟨fun _ _ _ _ => ⟨0, false, .root⟩, nofun⟩
  · intro p mem way m child
    obtain ⟨c, siblings, rfl⟩ : ∃ c siblings, p = .branch c siblings := by
      cases p with
      | leaf l => contradiction
      | branch c siblings => exact ⟨c, siblings, rfl⟩
    have fits : c.admits (Node.kind m) = true :=
      (shape _ mem).admits _ (List.mem_map_of_mem child)
    have block (is : (Node.kind m).isBlock = true) :
        ∃ depth tight, Holder (.document blocks) depth tight (.branch c siblings) := by
      cases holds : c.holdsBlocks with
      | true => exact way.holds c siblings rfl holds
      | false =>
        rw [Branch.isBlock_of_admits holds fits] at is
        contradiction
    constructor
    · rintro b kids rfl holds
      cases b with
      | root => cases c <;> contradiction
      | quote =>
        obtain ⟨depth, tight, holder⟩ := block rfl
        exact ⟨depth, false, .quote holder child⟩
      | item task =>
        obtain ⟨ordered, start, close, rfl⟩ :
            ∃ ordered start close, c = .list ordered start close := by
          cases c <;> first
            | exact ⟨_, _, _, rfl⟩
            | contradiction
        obtain ⟨depth, tight, q, holder, inside⟩ := way.list rfl
        exact ⟨depth + 1, close, .item holder inside child⟩
      | _ => contradiction
    · intro is
      obtain ⟨depth, tight, holder⟩ := block (by rw [is]; rfl)
      exact ⟨depth, tight, _, holder, child⟩

/-! ## the page -/

/-- What is found on a page when what the containers put before its lines is taken off. -/
inductive Found (page : List Char) : List Char → Prop
  /-- A page is what was written, made tidy. -/
  | page {s : List Char} : tidy s = page → Found page s
  /-- Some of the lines, one below the other. -/
  | lines {s inner : List Char} {before after : List (List Char)} : Found page s →
    Text.lines s = before ++ Text.lines inner ++ after → Found page inner
  /-- What is quoted. -/
  | quote {inner : List Char} : Found page (quoteLines inner) → Found page inner
  /-- What stands in an item, behind its mark and its box. -/
  | item {inner : List Char} {ordered : Bool} {start : Int} {bullet : Char} {position : Nat}
      {task : Option TaskStatus} :
    Found page (placeItem (itemMark ordered start bullet position) (taskBox task ++ inner)) →
    Found page inner

/-- The blocks of a holder as they are written, one below the other. -/
def joined (o : WritingOptions) (depth : Nat) (tight : Bool) (m : Node) : List Char :=
  joinBlocks (spacing tight) (m.children.map fun k => (write o depth {} k).1)

theorem mem_spacing (tight : Bool) :
    (∃ s, spacing tight = s ++ ['\n']) ∧ ∃ s, spacing tight = '\n' :: s := by
  cases tight
  · exact ⟨⟨['\n'], rfl⟩, ['\n'], rfl⟩
  · exact ⟨⟨[], rfl⟩, [], rfl⟩

/-- A text among others with line feeds between them has its lines there. -/
theorem exists_lines_between (tight : Bool) (before after : List (List Char)) (t : List Char) :
    ∃ above below, Text.lines (before.flatMap (· ++ spacing tight) ++ t ++
      after.flatMap (spacing tight ++ ·)) = above ++ Text.lines t ++ below := by
  obtain ⟨⟨s, last⟩, s', first⟩ := mem_spacing tight
  have upper : ∃ above, ∀ u, Text.lines (before.flatMap (· ++ spacing tight) ++ u) =
      above ++ Text.lines u := by
    rcases List.eq_nil_or_concat before with rfl | ⟨ts, t, rfl⟩
    · exact ⟨[], fun u => rfl⟩
    · refine ⟨Text.lines (ts.flatMap (· ++ spacing tight) ++ (t ++ s)), fun u => ?_⟩
      rw [← Text.lines_append_newline]
      simp [last]
  have lower : ∃ below, Text.lines (t ++ after.flatMap (spacing tight ++ ·)) =
      Text.lines t ++ below := by
    cases after with
    | nil => exact ⟨[], by simp⟩
    | cons u us =>
      refine ⟨Text.lines (s' ++ (u ++ us.flatMap (spacing tight ++ ·))), ?_⟩
      rw [← Text.lines_append_newline]
      simp [first]
  obtain ⟨above, upper⟩ := upper
  obtain ⟨below, lower⟩ := lower
  exact ⟨above, below, by rw [List.append_assoc, upper, lower, List.append_assoc]⟩

/-- A block is found where the blocks around it are. -/
theorem Found.among {page t : List Char} {tight : Bool} {before after : List (List Char)}
    (h : Found page (leading (spacing tight) before ++ t ++ trailing (spacing tight) after)) :
    Found page t := by
  obtain ⟨above, below, cut⟩ := exists_lines_between tight (before.filter (!·.isEmpty))
    (after.filter (!·.isEmpty)) t
  exact .lines h cut

/-! ## what holders write -/

theorem indentLines_ne_nil (first rest blank : List Char) {s : List Char} (filled : s ≠ []) :
    indentLines first rest blank s ≠ [] := by
  unfold indentLines
  split
  · next none => exact absurd none (Text.lines_ne_nil s)
  · next l ls cut =>
    rw [Text.unlines_cons]
    cases ls with
    | cons m ms => simp
    | nil =>
      have whole := Text.unlines_lines s
      rw [cut, Text.unlines_singleton] at whole
      subst whole
      simp [filled]

theorem quoteLines_ne_nil (s : List Char) : quoteLines s ≠ [] := by
  cases s with
  | nil => decide
  | cons c cs => exact indentLines_ne_nil _ _ _ (by simp)

theorem placeItems_append_cons (ordered : Bool) (start : Int) (bullet : Char) (position : Nat)
    (before after : List (List Char)) (body : List Char) :
    placeItems ordered start bullet position (before ++ body :: after) =
      placeItems ordered start bullet position before ++
        placeItem (itemMark ordered start bullet (position + before.length)) body ::
          placeItems ordered start bullet (position + before.length + 1) after := by
  induction before generalizing position with
  | nil => rfl
  | cons b bs ih =>
    have next : position + 1 + bs.length = position + (b :: bs).length := by
      rw [List.length_cons]
      omega
    rw [List.cons_append, placeItems, placeItems, ih, next, List.cons_append]

section

variable (o : WritingOptions) (depth : Nat)

theorem write_document (blocks : List Node) :
    (write o 0 {} (.document blocks)).1 = joined o 0 false (.document blocks) := by
  rw [write, writeAll_eq_map]
  rfl

theorem write_quote (kids : List Node) :
    (write o depth {} (.branch .quote kids)).1 =
      quoteLines (joined o depth false (.branch .quote kids)) := by
  rw [write, writeAll_eq_map]
  rfl

/-- An item of a list stands behind its mark, with line feeds to the other items. -/
theorem write_list (ordered : Bool) (start : Int) (tight : Bool) (before after : List Node)
    (task : Option TaskStatus) (kids : List Node) :
    ∃ position, ∃ above below : List (List Char),
      (write o depth {} (.branch (.list ordered start tight)
          (before ++ .branch (.item task) kids :: after))).1 =
        above.flatMap (· ++ spacing tight) ++
          placeItem (itemMark ordered start (bulletAt o depth) position)
            (taskBox task ++ joined o (depth + 1) tight (.branch (.item task) kids)) ++
          below.flatMap (spacing tight ++ ·) := by
  rw [write, writeItems_eq_map]
  simp only
  rw [List.map_append, List.map_cons, placeItems_append_cons, intercalate_append_cons]
  exact ⟨_, _, _, rfl⟩

variable {o depth}

/-- A block stands among the other blocks of its holder. -/
theorem joined_eq {tight : Bool} {m k : Node} {before after : List Node}
    (children : m.children = before ++ k :: after) (filled : (write o depth {} k).1 ≠ []) :
    joined o depth tight m =
      leading (spacing tight) (before.map fun k => (write o depth {} k).1) ++
        (write o depth {} k).1 ++
        trailing (spacing tight) (after.map fun k => (write o depth {} k).1) := by
  rw [joined, children, List.map_append, List.map_cons, joinBlocks_append_cons _ filled]

/-- What a block is found in is not empty, unless the block is. -/
theorem joined_ne_nil {tight : Bool} {m k : Node} (child : k ∈ m.children)
    (filled : (write o depth {} k).1 ≠ []) : joined o depth tight m ≠ [] := by
  obtain ⟨before, after, children⟩ := List.append_of_mem child
  rw [joined_eq children filled]
  simp [filled]

theorem Found.child {page : List Char} {tight : Bool} {m k : Node} (child : k ∈ m.children)
    (filled : (write o depth {} k).1 ≠ []) (h : Found page (joined o depth tight m)) :
    Found page (write o depth {} k).1 := by
  obtain ⟨before, after, children⟩ := List.append_of_mem child
  rw [joined_eq children filled] at h
  exact h.among

end

/-- **The blocks of every holder are found on the page** as they were written, one below the
other. -/
theorem found_of_holder (o : WritingOptions) {blocks : List Node} {depth : Nat} {tight : Bool}
    {m : Node} (holder : Holder (.document blocks) depth tight m)
    (filled : joined o depth tight m ≠ []) :
    Found (render o (.document blocks)).toList (joined o depth tight m) := by
  induction holder with
  | root =>
    apply Found.page
    rw [render, String.toList_ofList, write_document]
  | @quote depth tight m kids _ child ih =>
    have quoted : (write o depth {} (.branch .quote kids)).1 ≠ [] := by
      rw [write_quote]
      exact quoteLines_ne_nil _
    have found := (ih (joined_ne_nil child quoted)).child child quoted
    rw [write_quote] at found
    exact .quote found
  | @item depth tight m ordered start close items task kids _ child inside ih =>
    obtain ⟨before, after, rfl⟩ := List.append_of_mem inside
    obtain ⟨position, above, below, written⟩ :=
      write_list o depth ordered start close before after task kids
    have item := indentLines_ne_nil (itemMark ordered start (bulletAt o depth) position)
      (List.replicate (itemMark ordered start (bulletAt o depth) position).length ' ') []
      (show taskBox task ++ joined o (depth + 1) close (.branch (.item task) kids) ≠ [] by
        simp [filled])
    rw [← placeItem] at item
    have list : (write o depth {} (.branch (.list ordered start close)
        (before ++ .branch (.item task) kids :: after))).1 ≠ [] := by
      rw [written]
      simp [item]
    have found := (ih (joined_ne_nil child list)).child child list
    rw [written] at found
    obtain ⟨upper, lower, cut⟩ := exists_lines_between close above below _
    exact .item (.lines found cut)

end Docsite.Markdown
