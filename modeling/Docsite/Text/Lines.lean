/-!
# Docsite.Text.Lines

Text as lists of characters, cut into lines at the line feed and nothing else.

`lines` keeps every piece, the empty ones too, so a text of `n` line feeds has
`n + 1` lines and `unlines` gives the text back (`unlines_lines`).  Line endings
of other systems are made line feeds once, where text enters (`normalizeNewlines`),
and after that no function of this library looks for them.
-/

namespace Docsite.Text

/-- The pieces of a text between its line feeds; the empty text is one empty line. -/
def lines : List Char → List (List Char)
  | [] => [[]]
  | c :: cs =>
    if c = '\n' then [] :: lines cs
    else
      match lines cs with
      | [] => [[c]]
      | l :: ls => (c :: l) :: ls

/-- Lines with one line feed between neighbours. -/
def unlines (ls : List (List Char)) : List Char := ['\n'].intercalate ls

/-- A carriage return, alone or before a line feed, becomes one line feed. -/
def normalizeNewlines : List Char → List Char
  | [] => []
  | '\r' :: '\n' :: cs => '\n' :: normalizeNewlines cs
  | '\r' :: cs => '\n' :: normalizeNewlines cs
  | c :: cs => c :: normalizeNewlines cs

@[simp] theorem lines_nil : lines [] = [[]] := rfl

theorem lines_ne_nil (s : List Char) : lines s ≠ [] := by
  cases s with
  | nil => simp
  | cons c cs =>
    unfold lines
    split
    · simp
    · split <;> simp

@[simp] theorem lines_newline (cs : List Char) : lines ('\n' :: cs) = [] :: lines cs := by
  simp [lines]

theorem lines_cons {c : Char} (h : c ≠ '\n') (cs : List Char) :
    ∃ l ls, lines cs = l :: ls ∧ lines (c :: cs) = (c :: l) :: ls := by
  obtain ⟨l, ls, e⟩ := List.exists_cons_of_ne_nil (lines_ne_nil cs)
  exact ⟨l, ls, e, by simp [lines, h, e]⟩

/-- Cutting into lines loses nothing. -/
theorem unlines_lines (s : List Char) : unlines (lines s) = s := by
  induction s with
  | nil => rfl
  | cons c cs ih =>
    by_cases h : c = '\n'
    · subst h
      obtain ⟨l, ls, e⟩ := List.exists_cons_of_ne_nil (lines_ne_nil cs)
      rw [lines_newline, e]
      rw [e] at ih
      simpa [unlines, List.intercalate] using ih
    · obtain ⟨l, ls, e, e'⟩ := lines_cons h cs
      rw [e']
      rw [e] at ih
      cases ls with
      | nil => simpa [unlines, List.intercalate] using ih
      | cons m ms => simpa [unlines, List.intercalate] using ih

/-- No line holds a line feed. -/
theorem newline_notMem_of_mem_lines {s l : List Char} (h : l ∈ lines s) : '\n' ∉ l := by
  induction s generalizing l with
  | nil => simp_all
  | cons c cs ih =>
    by_cases hc : c = '\n'
    · subst hc
      rw [lines_newline, List.mem_cons] at h
      rcases h with rfl | h
      · simp
      · exact ih h
    · obtain ⟨m, ms, e, e'⟩ := lines_cons hc cs
      rw [e', List.mem_cons] at h
      rcases h with rfl | h
      · intro hm
        rcases List.mem_cons.1 hm with rfl | hm
        · exact hc rfl
        · exact ih (e ▸ List.mem_cons_self ..) hm
      · exact ih (e ▸ List.mem_cons_of_mem _ h)

/-! ## lines put together -/

@[simp] theorem unlines_singleton (l : List Char) : unlines [l] = l := by simp [unlines]

theorem unlines_cons_cons (l m : List Char) (ls : List (List Char)) :
    unlines (l :: m :: ls) = l ++ '\n' :: unlines (m :: ls) := by
  simp [unlines, List.intercalate_cons_cons]

/-- Every line but the first has a line feed before it. -/
theorem unlines_cons (l : List Char) (ls : List (List Char)) :
    unlines (l :: ls) = l ++ ls.flatMap ('\n' :: ·) := by
  induction ls generalizing l with
  | nil => simp
  | cons m ms ih => rw [unlines_cons_cons, ih, List.flatMap_cons, List.cons_append]

/-- Lines put together hold line feeds and what the lines hold. -/
theorem mem_unlines {c : Char} {ls : List (List Char)} (h : c ∈ unlines ls) :
    c = '\n' ∨ ∃ l ∈ ls, c ∈ l := by
  induction ls with
  | nil => contradiction
  | cons l ls ih =>
    cases ls with
    | nil => exact .inr ⟨l, List.mem_cons_self, by simpa using h⟩
    | cons m ms =>
      rw [unlines_cons_cons, List.mem_append, List.mem_cons] at h
      rcases h with here | rfl | later
      · exact .inr ⟨l, List.mem_cons_self, here⟩
      · exact .inl rfl
      · exact (ih later).imp_right fun ⟨l', mem, inside⟩ => ⟨l', List.mem_cons_of_mem _ mem, inside⟩

theorem lines_append {l : List Char} (h : '\n' ∉ l) (s : List Char) :
    lines (l ++ '\n' :: s) = l :: lines s := by
  induction l with
  | nil => rw [List.nil_append, lines_newline]
  | cons c cs ih =>
    rw [List.mem_cons, not_or] at h
    rw [List.cons_append, lines, if_neg (Ne.symm h.1), ih h.2]

theorem lines_of_notMem {l : List Char} (h : '\n' ∉ l) : lines l = [l] := by
  induction l with
  | nil => rfl
  | cons c cs ih =>
    rw [List.mem_cons, not_or] at h
    rw [lines, if_neg (Ne.symm h.1), ih h.2]

/-- Lines put together are cut at the same places again. -/
theorem lines_unlines {ls : List (List Char)} (filled : ls ≠ []) (h : ∀ l ∈ ls, '\n' ∉ l) :
    lines (unlines ls) = ls := by
  induction ls with
  | nil => contradiction
  | cons l ls ih =>
    rw [List.forall_mem_cons] at h
    cases ls with
    | nil => rw [unlines_singleton, lines_of_notMem h.1]
    | cons m ms => rw [unlines_cons_cons, lines_append h.1, ih (by simp) h.2]

/-- Without carriage returns there is nothing to normalize. -/
theorem normalizeNewlines_of_notMem {s : List Char} (h : '\r' ∉ s) : normalizeNewlines s = s := by
  induction s with
  | nil => rfl
  | cons c cs ih =>
    rw [List.mem_cons, not_or] at h
    rw [normalizeNewlines, ih h.2]
    · rintro _ rfl
      exact absurd rfl h.1
    · rintro rfl
      exact absurd rfl h.1

end Docsite.Text
