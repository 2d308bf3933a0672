import Docsite.Markdown.Writer

/-!
# Docsite.Proofs.Markdown.Writer

What a writer that is used again and again writes.

A visit changes two things of a writer: its output has the text of the node behind it, and the
place is the one that the node leaves.  The depth of lists comes back as it was, and so does what
a container found in the output (`run_visit`).  A document is begun afresh, so nothing of the
documents before it is left in its text (`run_renderEach`).
-/

namespace Docsite.Markdown.Writer

open Document

/-! ## steps -/

section

variable {α β : Type}

theorem run_bind (act : StateM Writer α) (next : α → StateM Writer β) (w : Writer) :
    (act >>= next).run w = (next (act.run w).1).run (act.run w).2 := rfl

theorem run_pure (a : α) (w : Writer) : (pure a : StateM Writer α).run w = (a, w) := rfl

theorem run_get (w : Writer) : (get : StateM Writer Writer).run w = (w, w) := rfl

theorem run_modify (f : Writer → Writer) (w : Writer) :
    (modify f : StateM Writer Unit).run w = ((), f w) := rfl

theorem run_emit (text : List Char) (w : Writer) :
    (emit text).run w = ((), { w with output := w.output ++ text }) := rfl

theorem run_clear (w : Writer) : clear.run w = ((), { w with output := [] }) := rfl

theorem run_setHeading (inHeading : Bool) (w : Writer) :
    (setHeading inHeading).run w =
      ((), { w with place := { w.place with inHeading := inHeading } }) := rfl

theorem run_setCell (inCell : Bool) (w : Writer) :
    (setCell inCell).run w = ((), { w with place := { w.place with inCell := inCell } }) := rfl

/-- What is done aside leaves no trace in the output. -/
theorem run_aside (act : StateM Writer α) (w : Writer) :
    (aside act).run w = ((act.run w).1, { (act.run w).2 with output := w.output }) := rfl

end

/-! ## nodes -/

section

variable (o : WritingOptions)

mutual

/-- **A visit puts the text of a node behind the output.** -/
theorem run_visit : (n : Node) → (w : Writer) →
    (visit o n).run w =
      ((), ⟨w.output ++ (write o w.depth w.place n).1, w.depth, (write o w.depth w.place n).2⟩)
  | .leaf l, w => by
    rw [visit, write]
    rfl
  | .branch b kids, w => by
    cases b with
    | list ordered start tight =>
      rw [visit, write]
      simp only [run_bind, run_get, run_modify, run_emit, run_visitItems kids tight,
        Nat.add_sub_cancel]
    | table alignments =>
      rw [visit, write]
      simp only [run_bind, run_emit, run_visitRows kids]
    | row isHeader =>
      rw [visit, write]
      simp only [run_bind, run_setCell, run_emit, run_visitCells kids]
    | heading level =>
      rw [visit, write]
      simp only [run_bind, run_setHeading, run_emit, run_inline kids]
    | root | quote | item task =>
      rw [visit, write]
      simp only [run_bind, run_emit, run_apart kids]
    | paragraph | cell alignment | emphasis | strong | strikethrough | link url title =>
      rw [visit, write]
      simp only [run_bind, run_emit, run_inline kids]

/-- Nodes visited one after another put their texts behind the output in their order. -/
theorem run_visitAll : (ns : List Node) → (w : Writer) →
    (visitAll o ns).run w =
      ((), ⟨w.output ++ (writeAll o w.depth w.place ns).1.flatten, w.depth,
        (writeAll o w.depth w.place ns).2⟩)
  | [], w => by
    rw [visitAll, writeAll, List.flatten_nil, List.append_nil]
    rfl
  | n :: ns, w => by
    rw [visitAll, writeAll]
    simp only [run_bind, run_visit n, run_visitAll ns, List.flatten_cons, List.append_assoc]

theorem run_inline (ns : List Node) (w : Writer) :
    (aside (visitInline o ns)).run w =
      ((writeAll o w.depth w.place ns).1.flatten,
        { w with place := (writeAll o w.depth w.place ns).2 }) := by
  rw [visitInline]
  simp only [run_aside, run_bind, run_clear, run_get, run_pure, run_visitAll ns, List.nil_append]

theorem run_visitApart : (ns : List Node) → (w : Writer) → ∃ output,
    (visitApart o ns).run w =
      ((writeAll o w.depth w.place ns).1, ⟨output, w.depth, (writeAll o w.depth w.place ns).2⟩)
  | [], w => ⟨w.output, by rw [visitApart, writeAll]; rfl⟩
  | n :: ns, w => by
    obtain ⟨output, others⟩ := run_visitApart ns
      ⟨(write o w.depth w.place n).1, w.depth, (write o w.depth w.place n).2⟩
    refine ⟨output, ?_⟩
    rw [visitApart, writeAll]
    simp only [run_bind, run_clear, run_get, run_pure, run_visit n, List.nil_append, others]

theorem run_apart (ns : List Node) (w : Writer) :
    (aside (visitApart o ns)).run w =
      ((writeAll o w.depth w.place ns).1, { w with place := (writeAll o w.depth w.place ns).2 }) := by
  obtain ⟨output, texts⟩ := run_visitApart ns w
  simp only [run_aside, texts]

theorem run_visitItems : (ns : List Node) → (tight : Bool) → (w : Writer) →
    (visitItems o tight ns).run w =
      ((writeItems o w.depth w.place tight ns).1,
        { w with place := (writeItems o w.depth w.place tight ns).2 })
  | [], tight, w => by
    rw [visitItems, writeItems]
    rfl
  | n :: ns, tight, w => by
    have other (h : ∀ task kids, n ≠ .branch (.item task) kids) :
        (visitItems o tight (n :: ns)).run w =
          ((writeItems o w.depth w.place tight (n :: ns)).1,
            { w with place := (writeItems o w.depth w.place tight (n :: ns)).2 }) := by
      rw [visitItems, writeItems]
      · simp only [run_bind, run_aside, run_clear, run_get, run_pure, run_visit n,
          run_visitItems ns tight, List.nil_append]
      · exact h
      · exact h
    cases n with
    | leaf l => exact other nofun
    | branch b kids =>
      cases b with
      | item task =>
        rw [visitItems, writeItems]
        simp only [run_bind, run_pure, run_apart kids, run_visitItems ns tight]
      | _ => exact other nofun

theorem run_visitRows : (ns : List Node) → (w : Writer) →
    (visitRows o ns).run w =
      ((writeRows o w.depth w.place ns).1, { w with place := (writeRows o w.depth w.place ns).2 })
  | [], w => by
    rw [visitRows, writeRows]
    rfl
  | n :: ns, w => by
    have other (h : ∀ isHeader kids, n ≠ .branch (.row isHeader) kids) :
        (visitRows o (n :: ns)).run w =
          ((writeRows o w.depth w.place (n :: ns)).1,
            { w with place := (writeRows o w.depth w.place (n :: ns)).2 }) := by
      rw [visitRows, writeRows]
      · simp only [run_bind, run_pure, run_visitRows ns]
      · exact h
      · exact h
    cases n with
    | leaf l => exact other nofun
    | branch b kids =>
      cases b with
      | row isHeader =>
        rw [visitRows, writeRows]
        simp only [run_bind, run_setCell, run_pure, run_visitCells kids, run_visitRows ns]
      | _ => exact other nofun

theorem run_visitCells : (ns : List Node) → (w : Writer) →
    (visitCells o ns).run w =
      ((writeCells o w.depth w.place ns).1, { w with place := (writeCells o w.depth w.place ns).2 })
  | [], w => by
    rw [visitCells, writeCells]
    rfl
  | n :: ns, w => by
    have other (h : ∀ alignment kids, n ≠ .branch (.cell alignment) kids) :
        (visitCells o (n :: ns)).run w =
          ((writeCells o w.depth w.place (n :: ns)).1,
            { w with place := (writeCells o w.depth w.place (n :: ns)).2 }) := by
      rw [visitCells, writeCells]
      · exact run_visitCells ns w
      · exact h
      · exact h
    cases n with
    | leaf l => exact other nofun
    | branch b kids =>
      cases b with
      | cell alignment =>
        rw [visitCells, writeCells]
        simp only [run_bind, run_pure, run_inline kids, run_visitCells ns]
      | _ => exact other nofun

end

/-! ## documents -/

theorem run_renderNext (n : Node) (w : Writer) :
    ((renderNext o n).run w).1 = render o n := by
  have start : (set ({} : Writer) : StateM Writer PUnit).run w = ((), {}) := rfl
  rw [renderNext, render]
  simp only [run_bind, start, run_visit, run_get, run_clear, run_pure, List.nil_append]

/-- **Each document is written as if it were the only one**, whatever the writer has been used for
before. -/
theorem run_renderEach (documents : List Node) (w : Writer) :
    ((renderEach o documents).run w).1 = documents.map (render o) := by
  induction documents generalizing w with
  | nil => rfl
  | cons n ns ih =>
    rw [renderEach, List.mapM_cons]
    simp only [run_bind, run_pure, run_renderNext]
    rw [← renderEach, ih, List.map_cons]

end

end Docsite.Markdown.Writer
