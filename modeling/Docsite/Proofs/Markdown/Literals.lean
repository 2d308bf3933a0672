import Docsite.Proofs.Markdown.Escape
import Docsite.Proofs.Text.Search

/-!
# Docsite.Proofs.Markdown.Literals

Destinations and titles that are read as they stand.

Their readers take one character after another, and a backslash before punctuation together with
that punctuation (`Escapes`).  A text without such a pair is literal: taking the backslashes off does
not change it (`unescape_eq_self_iff`).  Whether the reader of a kind of destination goes on to the
end of a literal text depends on its other characters (`angleDestination?_append`,
`bareDestination_append`).  A title may be written with backslashes before its double quotes, and is
read back if it was literal before (`titleUntil?_quoted`).
-/

namespace Docsite.Markdown

/-! ## literal text -/

/-- Do a character and what follows it begin with an escape? -/
def Escapes (c : Char) (s : List Char) : Prop :=
  c = '\\' ∧ ∃ d ∈ s.head?, Unicode.isAsciiPunctuation d = true

/-- A text that stands for itself: no backslash in it is before punctuation. -/
def IsLiteral (s : List Char) : Prop :=
  ∀ c, Unicode.isAsciiPunctuation c = true → ¬['\\', c] <:+: s

section

variable {c : Char} {s : List Char}

theorem isLiteral_nil : IsLiteral [] := fun c _ => by simp

theorem isLiteral_cons : IsLiteral (c :: s) ↔ ¬Escapes c s ∧ IsLiteral s := by
  have here (d : Char) : ['\\', d] <+: c :: s ↔ c = '\\' ∧ s.head? = some d := by
    cases s <;> simp [List.cons_prefix_cons, eq_comm]
  simp only [IsLiteral, Escapes, List.infix_cons_iff, here, not_or, Option.mem_def]
  constructor
  · intro h
    exact ⟨fun ⟨same, d, first, mark⟩ => (h d mark).1 ⟨same, first⟩, fun d mark => (h d mark).2⟩
  · intro h d mark
    exact ⟨fun ⟨same, first⟩ => h.1 ⟨same, d, first, mark⟩, h.2 d mark⟩

theorem IsLiteral.of_append {t : List Char} (h : IsLiteral (s ++ t)) : IsLiteral s :=
  fun c mark found => h c mark (found.trans (List.prefix_append s t).isInfix)

theorem escapes_of_ne (other : c ≠ '\\') : ¬Escapes c s := fun h => other h.1

theorem Escapes.exists_cons (h : Escapes c s) :
    c = '\\' ∧ ∃ d t, s = d :: t ∧ Unicode.isAsciiPunctuation d = true := by
  obtain ⟨same, d, first, mark⟩ := h
  obtain ⟨t, rfl⟩ := List.head?_eq_some_iff.mp first
  exact ⟨same, d, t, rfl, mark⟩

theorem Escapes.append (h : Escapes c s) (t : List Char) : Escapes c (s ++ t) := by
  obtain ⟨same, d, u, rfl, mark⟩ := h.exists_cons
  exact ⟨same, d, rfl, mark⟩

/-- Only the first character behind matters. -/
theorem escapes_congr {t : List Char} (same : s.head? = t.head?) : Escapes c s ↔ Escapes c t := by
  rw [Escapes, Escapes, same]

/-- A backslash that begins no escape stands before no punctuation. -/
theorem not_isAsciiPunctuation (plain : ¬Escapes '\\' (c :: s)) :
    ¬Unicode.isAsciiPunctuation c = true :=
  fun mark => plain ⟨rfl, c, rfl, mark⟩

/-- What is no escape stays. -/
theorem unescape_plain (plain : ¬Escapes c s) : unescape (c :: s) = c :: unescape s := by
  cases s with
  | nil =>
    rw [unescape]
    intro d t _ none
    exact List.cons_ne_nil d t none.symm
  | cons d s =>
    by_cases backslash : c = '\\'
    · subst backslash
      rw [unescape, if_neg (not_isAsciiPunctuation plain)]
    · exact unescape_cons backslash _

theorem unescape_sublist (s : List Char) : (unescape s).Sublist s := by
  fun_induction unescape s with
  | case1 c cs mark ih => exact (ih.cons_cons c).cons '\\'
  | case2 c cs other ih => exact ih.cons_cons '\\'
  | case3 c cs _ ih => exact ih.cons_cons c
  | case4 => exact .slnil

/-- One more character makes a text at most one character longer, and never shorter. -/
theorem length_unescape_cons (c : Char) (s : List Char) :
    (unescape s).length ≤ (unescape (c :: s)).length ∧
      (unescape (c :: s)).length ≤ (unescape s).length + 1 := by
  induction s generalizing c with
  | nil =>
    rw [unescape_plain (s := []) fun h => by simp [Escapes] at h]
    simp
  | cons d t ih =>
    have next := ih d
    by_cases escape : Escapes c (d :: t)
    · obtain ⟨rfl, e, u, same, mark⟩ := escape.exists_cons
      obtain ⟨rfl, rfl⟩ := List.cons.inj same
      rw [unescape_backslash mark, List.length_cons]
      omega
    · rw [unescape_plain escape, List.length_cons]
      omega

/-- Nothing but backslashes is dropped. -/
theorem count_unescape (other : c ≠ '\\') (s : List Char) : (unescape s).count c = s.count c := by
  fun_induction unescape s with
  | case1 d ds mark ih => simp [List.count_cons, ih, Ne.symm other]
  | case2 d ds _ ih => rw [List.count_cons, List.count_cons, ih]
  | case3 d ds _ ih => rw [List.count_cons, List.count_cons, ih]
  | case4 => rfl

/-- A text is literal if taking the backslashes off changes nothing. -/
theorem unescape_eq_self_iff : unescape s = s ↔ IsLiteral s := by
  induction s with
  | nil => exact iff_of_true rfl isLiteral_nil
  | cons c s ih =>
    rw [isLiteral_cons]
    by_cases escape : Escapes c s
    · refine iff_of_false (fun same => ?_) fun h => h.1 escape
      obtain ⟨rfl, d, t, rfl, mark⟩ := escape.exists_cons
      have shorter := (unescape_sublist t).length_le
      have equal := congrArg List.length same
      rw [unescape_backslash mark, List.length_cons, List.length_cons, List.length_cons] at equal
      omega
    · rw [unescape_plain escape, List.cons.injEq, ih]
      simp [escape]

instance : Decidable (IsLiteral s) := decidable_of_iff _ unescape_eq_self_iff

end

/-! ## one character more -/

section

variable {c : Char} {s : List Char}

theorem angleDestination?_plain (plain : ¬Escapes c s) :
    angleDestination? (c :: s) =
      if c = '>' then some ([], s)
      else if c = '\n' ∨ c = '<' then none
      else (angleDestination? s).map fun (d, rest) => (c :: d, rest) := by
  conv => lhs; unfold angleDestination?
  split
  · contradiction
  · next same => cases same; rfl
  · next same => cases same; rfl
  · next same => cases same; rfl
  · next d t same =>
    cases same
    simp [not_isAsciiPunctuation plain]
  · next closed newline opened _ same =>
    cases same
    simp_all

theorem bareDestination_plain {depth : Nat} (plain : ¬Escapes c s) :
    bareDestination depth (c :: s) =
      if c.toNat ≤ 0x20 || c.toNat == 0x7F || (c == ')' && depth == 0) then
        if depth = 0 then some ([], c :: s) else none
      else
        let inner := if c = '(' then depth + 1 else if c = ')' then depth - 1 else depth
        (bareDestination inner s).map fun (d, rest) => (c :: d, rest) := by
  conv => lhs; unfold bareDestination
  split
  · contradiction
  · next d t same =>
    cases same
    simp [not_isAsciiPunctuation plain]
  · next same => cases same; rfl

theorem titleUntil?_plain {close : Char} (plain : ¬Escapes c s) (backslash : close ≠ '\\') :
    titleUntil? close (c :: s) =
      if c = close then some ([], s)
      else if c = '(' ∧ close = ')' then none
      else (titleUntil? close s).map fun (t, rest) => (c :: t, rest) := by
  conv => lhs; unfold titleUntil?
  split
  · contradiction
  · next d t same =>
    cases same
    simp [not_isAsciiPunctuation plain, Ne.symm backslash]
  · next same => cases same; rfl

end

/-! ## destinations -/

/-- Is every parenthesis that opens closed again, the first `depth` of them before the text? -/
def isBalanced : Nat → List Char → Bool
  | depth, [] => depth == 0
  | depth, c :: s =>
    if c = '(' then isBalanced (depth + 1) s
    else if c = ')' then depth != 0 && isBalanced (depth - 1) s
    else isBalanced depth s

section

variable {c b : Char} {s url : List Char}

/-- At the end of a literal text, only the last character can begin an escape. -/
theorem isLiteral_cons_concat (literal : IsLiteral (c :: s)) (rest : List Char) :
    IsLiteral (c :: s ++ [b]) ↔ ¬Escapes c (s ++ b :: rest) ∧ IsLiteral (s ++ [b]) := by
  have same : Escapes c (s ++ [b]) ↔ Escapes c (s ++ b :: rest) :=
    escapes_congr (by cases s <;> rfl)
  rw [List.cons_append, isLiteral_cons, same]

/-- If it does, nothing but that character is behind it. -/
theorem eq_nil_of_escapes {rest : List Char} (literal : IsLiteral (c :: s))
    (escape : Escapes c (s ++ b :: rest)) :
    c = '\\' ∧ s = [] ∧ Unicode.isAsciiPunctuation b = true := by
  cases s with
  | nil =>
    obtain ⟨rfl, d, first, mark⟩ := escape
    obtain rfl := Option.some.inj first
    exact ⟨rfl, rfl, mark⟩
  | cons d s => exact absurd ((escapes_congr rfl).mp escape) (isLiteral_cons.mp literal).1

/-- A literal text is read up to a closing angle bracket if nothing in it ends it early. -/
theorem angleDestination?_append (literal : IsLiteral url) (rest : List Char) :
    angleDestination? (url ++ '>' :: rest) = some (url, rest) ↔
      IsLiteral (url ++ ['>']) ∧ ∀ c ∈ url, c ≠ '<' ∧ c ≠ '>' ∧ c ≠ '\n' := by
  induction url with
  | nil => simp [angleDestination?, isLiteral_cons, isLiteral_nil, Escapes]
  | cons c s ih =>
    rw [isLiteral_cons_concat literal rest, List.forall_mem_cons, List.cons_append]
    by_cases escape : Escapes c (s ++ '>' :: rest)
    · -- the last character would take the bracket with it
      obtain ⟨rfl, rfl, mark⟩ := eq_nil_of_escapes literal escape
      refine iff_of_false (fun read => ?_) fun h => h.1.1 escape
      simp [angleDestination?, mark] at read
    · rw [angleDestination?_plain escape]
      have later := ih (isLiteral_cons.mp literal).2
      by_cases closed : c = '>'
      · simp [closed]
      · by_cases bad : c = '\n' ∨ c = '<'
        · rw [if_neg closed, if_pos bad]
          refine iff_of_false nofun fun h => ?_
          rcases bad with rfl | rfl
          · exact h.2.1.2.2 rfl
          · exact h.2.1.1 rfl
        · rw [not_or] at bad
          simp [closed, bad, escape, ← later]

/-- Without brackets, it is read up to a space or a closing parenthesis if the parentheses in it are
balanced and nothing else ends it early. -/
theorem bareDestination_append (ends : b = ' ' ∨ b = ')') (literal : IsLiteral url) (depth : Nat)
    (rest : List Char) :
    bareDestination depth (url ++ b :: rest) = some (url, b :: rest) ↔
      IsLiteral (url ++ [b]) ∧ (∀ c ∈ url, 0x20 < c.toNat ∧ c.toNat ≠ 0x7F) ∧
        isBalanced depth url = true := by
  induction url generalizing depth with
  | nil =>
    have plain (t : List Char) : ¬Escapes b t := by
      rcases ends with rfl | rfl <;> exact escapes_of_ne (by decide)
    rw [List.nil_append, List.nil_append, bareDestination_plain (plain rest)]
    rcases ends with rfl | rfl
    · simp [isLiteral_cons, isLiteral_nil, plain, isBalanced]
    · by_cases outside : depth = 0
      · simp [outside, isLiteral_cons, isLiteral_nil, plain, isBalanced]
      · simp [outside, isBalanced]
  | cons c s ih =>
    rw [isLiteral_cons_concat literal rest, List.forall_mem_cons, List.cons_append]
    by_cases escape : Escapes c (s ++ b :: rest)
    · -- the last character would take the parenthesis with it
      obtain ⟨rfl, rfl, mark⟩ := eq_nil_of_escapes literal escape
      refine iff_of_false (fun read => ?_) fun h => h.1.1 escape
      simp [bareDestination, mark] at read
    · rw [bareDestination_plain escape]
      have later := ih (isLiteral_cons.mp literal).2
      by_cases control : c.toNat ≤ 0x20 || c.toNat == 0x7F
      · have printed : ¬(0x20 < c.toNat ∧ c.toNat ≠ 0x7F) := by
          rw [Bool.or_eq_true, decide_eq_true_eq, beq_iff_eq] at control
          omega
        rw [control, Bool.true_or, if_pos rfl]
        refine iff_of_false (fun read => ?_) fun h => printed h.2.1.1
        split at read <;> simp at read
      · have printed : 0x20 < c.toNat ∧ c.toNat ≠ 0x7F := by
          rw [Bool.or_eq_true, decide_eq_true_eq, beq_iff_eq] at control
          omega
        rw [Bool.not_eq_true] at control
        rw [control, Bool.false_or]
        by_cases closing : c = ')'
        · subst closing
          by_cases outside : depth = 0
          · simp [outside, isBalanced]
          · simp [outside, isBalanced, escape, ← later]
        · by_cases opening : c = '('
          · subst opening
            simp [isBalanced, escape, ← later]
          · simp [opening, closing, isBalanced, escape, printed, ← later]

end

/-! ## titles -/

/-- A title with a backslash before each double quote. -/
def quoted (title : List Char) : List Char := Text.replaceAll ['"'] ['\\', '"'] title

section

variable {c : Char} {s : List Char}

theorem quoted_nil : quoted [] = [] := rfl

theorem quoted_quote : quoted ('"' :: s) = '\\' :: '"' :: quoted s := by
  simp [quoted, Text.replaceAll_singleton]

theorem quoted_cons (other : c ≠ '"') : quoted (c :: s) = c :: quoted s := by
  simp [quoted, Text.replaceAll_singleton, other]

theorem isAsciiPunctuation_quote : Unicode.isAsciiPunctuation '"' = true := by decide

/-- Backslashes are put in before double quotes only, so no more can be taken off again. -/
theorem length_unescape_quoted_le (s : List Char) :
    (unescape (quoted s)).length ≤ s.length := by
  induction s with
  | nil => exact Nat.le_refl 0
  | cons c s ih =>
    rw [List.length_cons]
    by_cases quote : c = '"'
    · subst quote
      rw [quoted_quote, unescape_backslash isAsciiPunctuation_quote]
      exact Nat.succ_le_succ ih
    · have longer := (length_unescape_cons c (quoted s)).2
      rw [quoted_cons quote]
      omega

theorem head?_quoted (s rest : List Char) :
    (∃ d ∈ (quoted s ++ '"' :: rest).head?, Unicode.isAsciiPunctuation d = true) ↔
      ∃ d ∈ (s ++ ['"']).head?, Unicode.isAsciiPunctuation d = true := by
  cases s with
  | nil => simp [quoted_nil]
  | cons c s =>
    by_cases quote : c = '"'
    · subst quote
      rw [quoted_quote]
      exact iff_of_true ⟨'\\', rfl, by decide⟩ ⟨'"', rfl, by decide⟩
    · simp [quoted_cons quote]

/-- A backslash that escapes what is written behind it is not read back. -/
theorem not_read_of_escapes {rest : List Char} (escape : Escapes c (quoted s ++ '"' :: rest)) :
    ¬(titleUntil? '"' (c :: (quoted s ++ '"' :: rest)) = some (c :: quoted s, rest) ∧
      unescape (c :: quoted s) = c :: s) := by
  rintro ⟨read, back⟩
  obtain ⟨rfl, d, t, begins, mark⟩ := escape.exists_cons
  cases s with
  | nil =>
    -- the closing quote is escaped
    rw [quoted_nil, List.nil_append, titleUntil?, if_pos isAsciiPunctuation_quote] at read
    simp at read
  | cons e s =>
    by_cases quote : e = '"'
    · -- the backslash before the quote is escaped, and the quote closes the title
      subst quote
      have closed : titleUntil? '"' ('"' :: (quoted s ++ '"' :: rest)) =
          some ([], quoted s ++ '"' :: rest) := by
        rw [titleUntil?_plain (escapes_of_ne (by decide)) (by decide), if_pos rfl]
      rw [quoted_quote, List.cons_append, List.cons_append, titleUntil?, if_pos (by decide),
        closed] at read
      simp at read
    · -- one backslash less is read
      rw [quoted_cons quote, List.cons_append] at begins
      obtain ⟨rfl, -⟩ := List.cons.inj begins
      have short := length_unescape_quoted_le s
      have long := congrArg List.length back
      rw [quoted_cons quote, unescape_backslash mark] at long
      simp only [List.length_cons] at long
      omega

/-- A title between double quotes is read back if it is literal, and so is the quote behind it. -/
theorem titleUntil?_quoted (title rest : List Char) :
    titleUntil? '"' (quoted title ++ '"' :: rest) = some (quoted title, rest) ∧
      unescape (quoted title) = title ↔ IsLiteral (title ++ ['"']) := by
  induction title with
  | nil =>
    refine iff_of_true ⟨?_, rfl⟩ ?_
    · rw [quoted_nil, List.nil_append, titleUntil?_plain (escapes_of_ne (by decide)) (by decide)]
      rfl
    · exact isLiteral_cons.mpr ⟨escapes_of_ne (by decide), isLiteral_nil⟩
  | cons c s ih =>
    rw [List.cons_append, isLiteral_cons, ← ih]
    by_cases quote : c = '"'
    · subst quote
      rw [quoted_quote, List.cons_append, List.cons_append, titleUntil?,
        if_pos isAsciiPunctuation_quote, unescape_backslash isAsciiPunctuation_quote]
      simp [Escapes]
    · have same : Escapes c (s ++ ['"']) ↔ Escapes c (quoted s ++ '"' :: rest) := by
        rw [Escapes, Escapes, head?_quoted]
      rw [quoted_cons quote, same, List.cons_append]
      by_cases escape : Escapes c (quoted s ++ '"' :: rest)
      · exact iff_of_false (not_read_of_escapes escape) fun h => h.1 escape
      · have plain : ¬Escapes c (quoted s) := fun h => escape (h.append _)
        rw [titleUntil?_plain escape (by decide), if_neg quote, if_neg (by simp),
          unescape_plain plain]
        simp [escape]

theorem quoted_of_notMem (absent : '"' ∉ s) : quoted s = s := by
  induction s with
  | nil => rfl
  | cons c s ih =>
    rw [List.mem_cons, not_or] at absent
    rw [quoted_cons (Ne.symm absent.1), ih absent.2]

/-- As it is, a title is read back if it holds no double quotes besides. -/
theorem titleUntil?_append (title rest : List Char) :
    titleUntil? '"' (title ++ '"' :: rest) = some (title, rest) ∧ unescape title = title ↔
      '"' ∉ title ∧ IsLiteral (title ++ ['"']) := by
  by_cases quote : '"' ∈ title
  · refine iff_of_false (fun ⟨read, back⟩ => ?_) fun h => h.1 quote
    obtain ⟨before, after, rfl, first⟩ := List.eq_append_cons_of_mem quote
    have literal : IsLiteral (before ++ ['"']) := by
      have whole := unescape_eq_self_iff.mp back
      rw [List.append_cons] at whole
      exact whole.of_append
    have closed := ((titleUntil?_quoted before (after ++ '"' :: rest)).mpr literal).1
    rw [quoted_of_notMem first] at closed
    rw [List.append_assoc, List.cons_append, closed] at read
    simp at read
  · have whole := titleUntil?_quoted title rest
    rw [quoted_of_notMem quote] at whole
    rw [whole]
    simp [quote]

end

end Docsite.Markdown
