import Docsite.Markdown.Render

/-!
# Docsite.Proofs.Markdown.Layout

How the texts of neighbours are put together.

A container writes its children one after another and joins what is not empty.  Where a text
stands, in a heading or in a table cell, is handed from child to child, but outside both it comes
back as it was (`write_place`), so the children of such a container are written independently of
each other (`writeAll_eq_map`).  A text among its neighbours has a separator on each side on which
something is left (`joinBlocks_append_cons`).
-/

namespace Docsite.Markdown

open Document

/-! ## places -/

/-- Is a place in a heading or in a cell only where another one is? -/
structure Place.Below (p q : Place) : Prop where
  heading : p.inHeading = true → q.inHeading = true
  cell : p.inCell = true → q.inCell = true

namespace Place.Below

variable {p q r : Place}

theorem refl (p : Place) : p.Below p := ⟨id, id⟩

theorem trans (left : p.Below q) (right : q.Below r) : p.Below r :=
  ⟨right.heading ∘ left.heading, right.cell ∘ left.cell⟩

theorem leaveHeading (h : p.Below { q with inHeading := true }) :
    Place.Below { p with inHeading := false } q :=
  ⟨nofun, h.cell⟩

theorem leaveCell (h : p.Below { q with inCell := true }) :
    Place.Below { p with inCell := false } q :=
  ⟨h.heading, nofun⟩

theorem eq_outside (h : p.Below {}) : p = {} := by
  obtain ⟨heading, cell⟩ := p
  cases heading <;> cases cell <;> first
    | rfl
    | exact absurd (h.heading rfl) Bool.false_ne_true
    | exact absurd (h.cell rfl) Bool.false_ne_true

end Place.Below

section

variable (o : WritingOptions)

mutual

theorem write_below (depth : Nat) (place : Place) :
    (n : Node) → (write o depth place n).2.Below place
  | .leaf l => by
    rw [write]
    exact .refl _
  | .branch b kids => by
    cases b with
    | heading level =>
      rw [write]
      exact (writeAll_below depth _ kids).leaveHeading
    | list ordered start tight =>
      rw [write]
      exact writeItems_below (depth + 1) place tight kids
    | table alignments =>
      rw [write]
      exact writeRows_below depth place kids
    | row isHeader =>
      rw [write]
      exact (writeCells_below depth _ kids).leaveCell
    | _ =>
      rw [write]
      exact writeAll_below depth place kids

theorem writeAll_below (depth : Nat) (place : Place) :
    (ns : List Node) → (writeAll o depth place ns).2.Below place
  | [] => by
    rw [writeAll]
    exact .refl _
  | n :: ns => by
    rw [writeAll]
    exact (writeAll_below depth _ ns).trans (write_below depth place n)

theorem writeItems_below (depth : Nat) (place : Place) (tight : Bool) :
    (ns : List Node) → (writeItems o depth place tight ns).2.Below place
  | [] => by
    rw [writeItems]
    exact .refl _
  | .leaf l :: ns => by
    rw [writeItems]
    · exact (writeItems_below depth _ tight ns).trans (write_below depth place _)
    · nofun
  | .branch b kids :: ns => by
    cases b with
    | item task =>
      rw [writeItems]
      exact (writeItems_below depth _ tight ns).trans (writeAll_below depth place kids)
    | _ =>
      rw [writeItems]
      · exact (writeItems_below depth _ tight ns).trans (write_below depth place _)
      · nofun

theorem writeRows_below (depth : Nat) (place : Place) :
    (ns : List Node) → (writeRows o depth place ns).2.Below place
  | [] => by
    rw [writeRows]
    exact .refl _
  | .leaf l :: ns => by
    rw [writeRows]
    · exact writeRows_below depth place ns
    · nofun
  | .branch b kids :: ns => by
    cases b with
    | row isHeader =>
      rw [writeRows]
      exact (writeRows_below depth _ ns).trans (writeCells_below depth _ kids).leaveCell
    | _ =>
      rw [writeRows]
      · exact writeRows_below depth place ns
      · nofun

theorem writeCells_below (depth : Nat) (place : Place) :
    (ns : List Node) → (writeCells o depth place ns).2.Below place
  | [] => by
    rw [writeCells]
    exact .refl _
  | .leaf l :: ns => by
    rw [writeCells]
    · exact writeCells_below depth place ns
    · nofun
  | .branch b kids :: ns => by
    cases b with
    | cell alignment =>
      rw [writeCells]
      exact (writeCells_below depth _ ns).trans (writeAll_below depth place kids)
    | _ =>
      rw [writeCells]
      · exact writeCells_below depth place ns
      · nofun

end

/-- Outside headings and cells, a node is followed by the place that it stands at. -/
theorem write_place (depth : Nat) (n : Node) :
    write o depth {} n = ((write o depth {} n).1, {}) :=
  Prod.ext rfl (write_below o depth {} n).eq_outside

/-- Outside headings and cells, nodes are written independently of each other. -/
theorem writeAll_eq_map (depth : Nat) (ns : List Node) :
    writeAll o depth {} ns = (ns.map fun n => (write o depth {} n).1, {}) := by
  induction ns with
  | nil => rw [writeAll, List.map_nil]
  | cons n ns ih =>
    rw [writeAll, write_place]
    simp only [ih, List.map_cons]

/-- What is written behind the mark of an item, outside headings and cells. -/
def itemBody (depth : Nat) (tight : Bool) : Node → List Char
  | .branch (.item task) kids =>
    taskBox task ++ joinBlocks (spacing tight) (kids.map fun n => (write o depth {} n).1)
  | n => (write o depth {} n).1

theorem writeItems_eq_map (depth : Nat) (tight : Bool) (ns : List Node) :
    writeItems o depth {} tight ns = (ns.map (itemBody o depth tight), {}) := by
  induction ns with
  | nil => rw [writeItems, List.map_nil]
  | cons n ns ih =>
    have other (h : ∀ task kids, n ≠ .branch (.item task) kids) :
        writeItems o depth {} tight (n :: ns) = ((n :: ns).map (itemBody o depth tight), {}) := by
      rw [writeItems, write_place, List.map_cons, itemBody]
      · simp only [ih]
      · exact h
      · exact h
    cases n with
    | leaf l => exact other nofun
    | branch b kids =>
      cases b with
      | item task =>
        rw [writeItems, writeAll_eq_map, List.map_cons, itemBody]
        simp only [ih]
      | _ => exact other nofun

end

/-! ## neighbours -/

/-- What stands before a text among its neighbours: the texts before it that are not empty, each
with a separator behind it. -/
def leading (separator : List Char) (texts : List (List Char)) : List Char :=
  (texts.filter (!·.isEmpty)).flatMap (· ++ separator)

/-- What stands behind a text among its neighbours. -/
def trailing (separator : List Char) (texts : List (List Char)) : List Char :=
  (texts.filter (!·.isEmpty)).flatMap (separator ++ ·)

theorem intercalate_cons (separator t : List Char) (ts : List (List Char)) :
    separator.intercalate (t :: ts) = t ++ ts.flatMap (separator ++ ·) := by
  induction ts generalizing t with
  | nil => simp [List.intercalate]
  | cons u us ih =>
    rw [List.intercalate_cons_cons, ih, List.flatMap_cons, List.append_assoc, List.append_assoc]

/-- What is put together holds separators and what the parts hold. -/
theorem mem_intercalate {separator : List Char} {c : Char} {ts : List (List Char)}
    (h : c ∈ separator.intercalate ts) : c ∈ separator ∨ ∃ t ∈ ts, c ∈ t := by
  cases ts with
  | nil => contradiction
  | cons t ts =>
    rw [intercalate_cons] at h
    simp only [List.mem_append, List.mem_flatMap] at h
    rcases h with here | ⟨u, mem, separator | there⟩
    · exact .inr ⟨t, List.mem_cons_self, here⟩
    · exact .inl separator
    · exact .inr ⟨u, List.mem_cons_of_mem _ mem, there⟩

theorem intercalate_append_cons (separator t : List Char) (before after : List (List Char)) :
    separator.intercalate (before ++ t :: after) =
      before.flatMap (· ++ separator) ++ t ++ after.flatMap (separator ++ ·) := by
  induction before with
  | nil => rw [List.nil_append, intercalate_cons, List.flatMap_nil, List.nil_append]
  | cons u us ih =>
    have more : us ++ t :: after ≠ [] := by simp
    obtain ⟨v, vs, same⟩ := List.exists_cons_of_ne_nil more
    rw [List.cons_append, same, List.intercalate_cons_cons, ← same, ih, List.flatMap_cons]
    simp only [List.append_assoc]

/-- A text that is not empty has a separator on each side on which something is left. -/
theorem joinBlocks_append_cons (separator : List Char) {t : List Char} (filled : t ≠ [])
    (before after : List (List Char)) :
    joinBlocks separator (before ++ t :: after) =
      leading separator before ++ t ++ trailing separator after := by
  rw [joinBlocks, List.filter_append, List.filter_cons_of_pos (by simpa using filled),
    intercalate_append_cons, leading, trailing]

end Docsite.Markdown
