import Docsite.Text.Blank
import Docsite.Text.Lines

/-!
# Docsite.Proofs.Text.Lines

Lines of texts that are put together, and trimming.

A line feed between two texts keeps their lines apart (`lines_append_newline`), and a character at
the end of a text goes on its last line (`lines_concat`).  Line endings are normalized on each side
of a cut alone, unless the cut is inside one (`normalizeNewlines_append`).
-/

namespace Docsite.Text

/-- A text is its first line, and then nothing or a line feed. -/
theorem exists_head_lines (s : List Char) :
    ∃ l ls rest, lines s = l :: ls ∧ s = l ++ rest ∧ ∀ c ∈ rest.head?, c = '\n' := by
  obtain ⟨l, ls, cut⟩ := List.exists_cons_of_ne_nil (lines_ne_nil s)
  refine ⟨l, ls, ls.flatMap ('\n' :: ·), cut, ?_, ?_⟩
  · rw [← unlines_cons, ← cut, unlines_lines]
  · cases ls <;> simp

theorem mem_of_mem_lines {c : Char} {s l : List Char} (mem : l ∈ lines s) (inside : c ∈ l) :
    c ∈ s := by
  induction s generalizing l with
  | nil => simp [List.mem_singleton.mp mem] at inside
  | cons d ds ih =>
    by_cases newline : d = '\n'
    · subst newline
      simp only [lines_newline, List.mem_cons] at mem
      rcases mem with rfl | later
      · contradiction
      · exact List.mem_cons_of_mem _ (ih later inside)
    · obtain ⟨m, ms, cut, cut'⟩ := lines_cons newline ds
      simp only [cut, cut', List.mem_cons] at mem ih ⊢
      rcases mem with rfl | later
      · exact (List.mem_cons.mp inside).imp_right (ih (.inl rfl))
      · exact .inr (ih (.inr later) inside)

theorem tail_lines_cons {c : Char} (h : c ≠ '\n') (cs : List Char) :
    (lines (c :: cs)).tail = (lines cs).tail := by
  obtain ⟨l, ls, cut, cut'⟩ := lines_cons h cs
  rw [cut, cut', List.tail_cons, List.tail_cons]

/-- Two texts with a line feed between them have the lines of both. -/
theorem lines_append_newline (s t : List Char) :
    lines (s ++ '\n' :: t) = lines s ++ lines t := by
  induction s with
  | nil => rw [List.nil_append, lines_newline, lines_nil, List.singleton_append]
  | cons c cs ih =>
    by_cases newline : c = '\n'
    · subst newline
      rw [List.cons_append, lines_newline, lines_newline, ih, List.cons_append]
    · obtain ⟨l, ls, cut, cut'⟩ := lines_cons newline cs
      obtain ⟨m, ms, whole, whole'⟩ := lines_cons newline (cs ++ '\n' :: t)
      rw [ih, cut, List.cons_append, List.cons.injEq] at whole
      rw [List.cons_append, whole', cut', ← whole.1, ← whole.2, List.cons_append]

/-- A character behind a text goes on its last line. -/
theorem lines_concat {c : Char} (h : c ≠ '\n') (s : List Char) :
    ∃ ls l, lines s = ls ++ [l] ∧ lines (s ++ [c]) = ls ++ [l ++ [c]] := by
  induction s with
  | nil => exact ⟨[], [], rfl, by simp [lines, h]⟩
  | cons d ds ih =>
    obtain ⟨ls, l, cut, longer⟩ := ih
    by_cases newline : d = '\n'
    · subst newline
      exact ⟨[] :: ls, l, by simp [cut], by simp [longer]⟩
    · obtain ⟨m, ms, first, first'⟩ := lines_cons newline ds
      obtain ⟨k, ks, last, last'⟩ := lines_cons newline (ds ++ [c])
      rw [List.cons_append, first', last']
      rw [cut] at first
      rw [longer] at last
      cases ls with
      | nil =>
        obtain ⟨rfl, rfl⟩ := List.cons.inj first
        obtain ⟨rfl, rfl⟩ := List.cons.inj last
        exact ⟨[], d :: l, rfl, rfl⟩
      | cons j js =>
        obtain ⟨rfl, rfl⟩ := List.cons.inj first
        obtain ⟨rfl, rfl⟩ := List.cons.inj last
        exact ⟨(d :: j) :: js, l, rfl, rfl⟩

/-- Line endings on both sides of a cut are normalized alone, unless one is cut through. -/
theorem normalizeNewlines_append {s t : List Char}
    (h : ∀ ds, s = ds ++ ['\r'] → t.head? ≠ some '\n') :
    normalizeNewlines (s ++ t) = normalizeNewlines s ++ normalizeNewlines t := by
  induction s using normalizeNewlines.induct with
  | case1 => rfl
  | case2 cs ih =>
    have rest := ih fun ds is => h ('\r' :: '\n' :: ds) (by rw [is]; rfl)
    rw [List.cons_append, List.cons_append, normalizeNewlines, normalizeNewlines, rest,
      List.cons_append]
  | case3 cs other ih =>
    have rest := ih fun ds is => h ('\r' :: ds) (by rw [is]; rfl)
    have stillOther : ∀ ds, cs ++ t ≠ '\n' :: ds := by
      intro ds is
      cases cs with
      | nil => exact h [] rfl (by rw [← List.nil_append t, is]; rfl)
      | cons e es => exact other es (by rw [(List.cons.inj is).1])
    rw [List.cons_append, normalizeNewlines, normalizeNewlines, rest, List.cons_append]
    · exact other
    · exact stillOther
  | case4 c cs _ other ih =>
    have rest := ih fun ds is => h (c :: ds) (by rw [is]; rfl)
    rw [List.cons_append, normalizeNewlines, normalizeNewlines, rest, List.cons_append]
    all_goals
      intros
      simp_all

theorem return_notMem_normalizeNewlines (s : List Char) : '\r' ∉ normalizeNewlines s := by
  induction s using normalizeNewlines.induct with
  | case1 => simp [normalizeNewlines]
  | case2 cs ih =>
    rw [normalizeNewlines, List.mem_cons]
    exact not_or.mpr ⟨by decide, ih⟩
  | case3 cs other ih =>
    rw [normalizeNewlines, List.mem_cons]
    · exact not_or.mpr ⟨by decide, ih⟩
    · exact other
  | case4 c cs _ other ih =>
    rw [normalizeNewlines, List.mem_cons]
    · exact not_or.mpr ⟨fun is => other is.symm, ih⟩
    all_goals
      intros
      simp_all

/-! ## trimming -/

theorem trim_concat {c : Char} (blank : isBlank c = true) (s : List Char) :
    trim (s ++ [c]) = trim s := by
  simp only [trim, trimWhile, List.dropWhile_append]
  split
  · next empty =>
    simp only [List.isEmpty_iff] at empty
    simp [blank, empty]
  · simp [dropEndWhile_concat, blank]

/-- A text that nothing is trimmed off has no white space at its ends. -/
theorem not_isBlank_of_trim {s : List Char} (h : trim s = s) :
    (∀ c ∈ s.head?, isBlank c = false) ∧ ∀ c ∈ s.getLast?, isBlank c = false := by
  have longer (t : List Char) (c : Char) : (trim t).length ≠ (c :: t).length := by
    have part : trim t <:+: t := trimWhile_infix isBlank t
    have short := part.length_le
    rw [List.length_cons]
    omega
  constructor
  · intro c first
    obtain ⟨cs, rfl⟩ := List.head?_eq_some_iff.mp first
    refine Bool.eq_false_iff.mpr fun blank => longer cs c ?_
    have dropped : trim (c :: cs) = trim cs := by
      rw [trim, trimWhile, List.dropWhile_cons, if_pos blank, ← trimWhile, ← trim]
    rw [← dropped, h]
  · intro c last
    obtain ⟨cs, rfl⟩ := List.getLast?_eq_some_iff.mp last
    refine Bool.eq_false_iff.mpr fun blank => longer cs c ?_
    rw [← trim_concat blank, h]
    simp

end Docsite.Text
