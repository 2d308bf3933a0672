import Docsite.Markdown.Reference
import Docsite.Markdown.Render
import Docsite.Proofs.Text.Lines
import Docsite.Unicode.Punctuation

/-!
# Docsite.Proofs.Markdown.Escape

What the backslashes in a written text do.

Escaping decides about one character after another, from the character before it, the one after
it, and the distance to the mark that would open a block on its line.  `markedFrom` keeps the
decisions beside the characters; what is escaped for what reason is read off them.

The lines of an escaped text are seen from their starts instead.  As long as no backslash comes,
what is written is what the text has (`escapeFrom_eq_append`), so a line that begins like a block
would come from a line of the text that begins in the same way.  There the mark was aimed at, and
it has a backslash before it.

Read back, the backslashes are gone and nothing else is (`unescape_flatMap_backslashed`): they stand
before punctuation only, and a backslash of the text has one of its own.
-/

namespace Docsite.Markdown

/-! ## one character -/

/-- Is there nothing before a character, or the end of a line? -/
def startsLine (before : Option Char) : Bool := before.all (· == '\n')

/-- The distance to the mark that opens a block, at a character: found anew at the start of a
line. -/
def aim (place : Place) (before : Option Char) (mark : Option Nat) (s : List Char) : Option Nat :=
  if startsLine before then
    if place.inHeading || place.inCell then none else blockMark? s
  else mark

/-- The same distance from the next character on. -/
def nearer (mark : Option Nat) : Option Nat :=
  mark.bind fun n => if n = 0 then none else some (n - 1)

/-- Does a character have a backslash before it? -/
def isEscaped (place : Place) (before : Option Char) (mark : Option Nat) (c : Char)
    (next : Option Char) : Bool :=
  isAlwaysEscaped c || mark == some 0 || (c == '#' && startsLine before)
    || (c == '_' && !(isWordChar before && isWordChar next)) || (c == '|' && place.inCell)

/-- A character as it is written, with or without a backslash. -/
def backslashed (p : Char × Bool) : List Char := if p.2 then ['\\', p.1] else [p.1]

/-- What remains of a text, with the decision about each character. -/
def markedFrom (place : Place) (before : Option Char) (mark : Option Nat) :
    List Char → List (Char × Bool)
  | [] => []
  | c :: cs =>
    let mark := aim place before mark (c :: cs)
    (c, isEscaped place before mark c cs.head?) :: markedFrom place (some c) (nearer mark) cs

section

variable {place : Place} {before : Option Char} {mark : Option Nat} {s : List Char}

theorem escapeFrom_cons (c : Char) (cs : List Char) :
    escapeFrom place before mark (c :: cs) =
      backslashed (c, isEscaped place before (aim place before mark (c :: cs)) c cs.head?)
        ++ escapeFrom place (some c) (nearer (aim place before mark (c :: cs))) cs := by
  rw [escapeFrom, ← startsLine, ← aim, ← isEscaped, ← nearer]
  cases isEscaped place before (aim place before mark (c :: cs)) c cs.head? <;> rfl

theorem escapeFrom_eq_flatMap :
    escapeFrom place before mark s = (markedFrom place before mark s).flatMap backslashed := by
  induction s generalizing before mark with
  | nil => rfl
  | cons c cs ih => rw [escapeFrom_cons, markedFrom, List.flatMap_cons, ih]

theorem map_fst_markedFrom : (markedFrom place before mark s).map Prod.fst = s := by
  induction s generalizing before mark with
  | nil => rfl
  | cons c cs ih => rw [markedFrom, List.map_cons, ih]

/-- Escaping adds backslashes and nothing else. -/
theorem mem_of_mem_escape {c : Char} (other : c ≠ '\\') (mem : c ∈ escape place s) : c ∈ s := by
  rw [escape, escapeFrom_eq_flatMap] at mem
  obtain ⟨p, marked, inside⟩ := List.mem_flatMap.mp mem
  have same : c = p.1 := by
    unfold backslashed at inside
    split at inside <;> simpa [other] using inside
  rw [same, ← @map_fst_markedFrom place none none s]
  exact List.mem_map_of_mem marked

/-- Every decision is one about its character. -/
theorem exists_of_mem_markedFrom {p : Char × Bool} (mem : p ∈ markedFrom place before mark s) :
    ∃ before' mark' next, p.2 = isEscaped place before' mark' p.1 next := by
  induction s generalizing before mark with
  | nil => contradiction
  | cons c cs ih =>
    rw [markedFrom, List.mem_cons] at mem
    rcases mem with rfl | later
    · exact ⟨_, _, _, rfl⟩
    · exact ih later

theorem exists_of_isWordChar {p : Option (Char × Bool)} (h : isWordChar (p.map Prod.fst) = true) :
    ∃ q ∈ p, Unicode.isAlphanumeric q.1 = true := by
  cases p with
  | none => contradiction
  | some q => exact ⟨q, rfl, h⟩

/-- An underscore without a backslash has a letter or digit on both sides. -/
theorem isWordChar_of_markedFrom {xs ys : List (Char × Bool)}
    (same : markedFrom place before mark s = xs ++ ('_', false) :: ys) :
    isWordChar ((xs.getLast?.map Prod.fst).or before) = true ∧
      isWordChar (ys.head?.map Prod.fst) = true := by
  induction s generalizing before mark xs with
  | nil => cases xs <;> contradiction
  | cons c cs ih =>
    rw [markedFrom] at same
    cases xs with
    | nil =>
      obtain ⟨here, rfl⟩ := List.cons.inj same
      obtain ⟨rfl, plain⟩ := Prod.mk.inj here
      have next (mark' : Option Nat) :
          (markedFrom place (some '_') mark' cs).head?.map Prod.fst = cs.head? := by
        rw [← List.head?_map, map_fst_markedFrom]
      rw [next]
      simp only [isEscaped, Bool.or_eq_false_iff] at plain
      simpa using plain.1.2
    | cons x xs =>
      obtain ⟨rfl, later⟩ := List.cons.inj same
      have inside := ih later
      cases xs with
      | nil => simpa using inside
      | cons y xs => simpa [List.getLast?_cons] using inside

end

/-! ## marks that open blocks -/

/-- The marks that may be aimed at. -/
def isBlockMark (c : Char) : Bool := "-+>.)=".toList.contains c

section

variable {ahead : List Char}

theorem blockMark?_of_head {c : Char} (h : c = '-' ∨ c = '+' ∨ c = '>') (cs : List Char) :
    blockMark? (c :: cs) = some 0 := by
  rcases h with rfl | rfl | rfl <;> rfl

theorem orderedMark?_append {digits : List Char} (some : digits ≠ [])
    (decimal : ∀ c ∈ digits, Unicode.isDecimalDigit c = true) (short : digits.length ≤ 9) {d : Char}
    (closes : d = '.' ∨ d = ')') (rest : List Char) :
    orderedMark? (digits ++ d :: rest) = .some digits.length := by
  have other : Unicode.isDecimalDigit d = false := by rcases closes with rfl | rfl <;> decide
  have run : ((digits ++ d :: rest).take 9).takeWhile Unicode.isDecimalDigit = digits := by
    rw [List.take_append, List.take_of_length_le short, List.takeWhile_append_of_pos decimal]
    cases 9 - digits.length <;> simp [other]
  rw [orderedMark?, run, List.drop_left]
  rcases closes with rfl | rfl <;> simp [some]

theorem blockMark?_ordered {digits : List Char} (some : digits ≠ [])
    (decimal : ∀ c ∈ digits, Unicode.isDecimalDigit c = true) (short : digits.length ≤ 9) {d : Char}
    (closes : d = '.' ∨ d = ')') (rest : List Char) :
    ∃ n, blockMark? (digits ++ d :: rest) = .some n ∧ n ≤ digits.length := by
  rw [blockMark?, orderedMark?_append some decimal short closes]
  split
  · exact ⟨0, rfl, Nat.zero_le _⟩
  · exact ⟨digits.length, rfl, Nat.le_refl _⟩

/-- A run that ends where something else comes is dropped, and nothing more. -/
theorem dropWhile_append_of_head {p : Char → Bool} {run rest : List Char}
    (inside : ∀ c ∈ run, p c = true) (outside : ∀ c ∈ rest.head?, p c = false) :
    (run ++ rest).dropWhile p = rest := by
  rw [List.dropWhile_append_of_pos inside]
  cases rest with
  | nil => rfl
  | cons c cs => simp [outside c rfl]

theorem blockMark?_underline {marks blanks rest : List Char} (some : marks ≠ [])
    (equal : ∀ c ∈ marks, c = '=') (blank : ∀ c ∈ blanks, c = ' ' ∨ c = '\t')
    (ends : ∀ c ∈ rest.head?, c = '\n') :
    blockMark? (marks ++ (blanks ++ rest)) = .some 0 := by
  obtain ⟨c, cs, rfl⟩ := List.exists_cons_of_ne_nil some
  obtain rfl : c = '=' := equal c List.mem_cons_self
  have noMark : ∀ c ∈ (blanks ++ rest).head?, (c == '=') = false := by
    intro c first
    cases blanks with
    | nil => simp [ends c first]
    | cons b bs =>
      obtain rfl : b = c := by simpa using first
      rcases blank b List.mem_cons_self with rfl | rfl <;> rfl
  have noBlank : ∀ c ∈ rest.head?, (c == ' ' || c == '\t') = false := by
    intro c first
    simp [ends c first]
  have underline : isUnderline ('=' :: cs ++ (blanks ++ rest)) = true := by
    rw [isUnderline, dropWhile_append_of_head (by simpa using equal) noMark]
    simp only [dropWhile_append_of_head (show ∀ c ∈ blanks, (c == ' ' || c == '\t') = true by
      simpa using blank) noBlank]
    cases rest with
    | nil => rfl
    | cons d ds => simp [ends d rfl]
  have unordered : orderedMark? ('=' :: cs ++ (blanks ++ rest)) = none := by
    rw [orderedMark?, List.cons_append, List.take_succ_cons, List.takeWhile_cons_of_neg (by decide)]
    rfl
  rw [blockMark?, unordered, underline]
  rfl

theorem orderedMark?_eq_some {n : Nat} (h : orderedMark? ahead = some n) :
    ∃ c ∈ ahead[n]?, isBlockMark c = true := by
  simp only [orderedMark?] at h
  generalize (ahead.take 9).takeWhile Unicode.isDecimalDigit = digits at h
  split at h
  · next c rest behind =>
    split at h
    · next marked =>
      cases h
      have here : ahead[digits.length]? = some c := by
        rw [← List.head?_drop, behind, List.head?_cons]
      simp only [Bool.and_eq_true, Bool.or_eq_true, beq_iff_eq] at marked
      refine ⟨c, here, ?_⟩
      rcases marked.2 with rfl | rfl <;> rfl
    · contradiction
  · contradiction

/-- A mark that is aimed at is there. -/
theorem blockMark?_eq_some {n : Nat} (h : blockMark? ahead = some n) :
    ∃ c ∈ ahead[n]?, isBlockMark c = true := by
  unfold blockMark? at h
  split at h
  · next bullet =>
    cases h
    cases ahead with
    | nil => contradiction
    | cons c cs =>
      refine ⟨c, rfl, ?_⟩
      rw [List.head?_cons, Option.any_some, List.contains_iff_mem] at bullet
      have marks : "-+>".toList.all isBlockMark = true := by decide
      exact List.all_eq_true.mp marks c bullet
  · split at h
    · next found =>
      cases h
      exact orderedMark?_eq_some found
    · split at h
      · next underlined =>
        cases h
        unfold isUnderline at underlined
        simp only [Bool.and_eq_true, beq_iff_eq] at underlined
        refine ⟨'=', ?_, rfl⟩
        rw [← List.head?_eq_getElem?]
        exact underlined.1
      · contradiction

end

/-! ## lines -/

/-- What an escaped text begins with, as long as there is no backslash in it, is what the text
begins with.  It ends before the mark that is aimed at. -/
theorem escapeFrom_eq_append {place : Place} {before : Option Char} {mark : Option Nat}
    {s p q : List Char} (same : escapeFrom place before mark s = p ++ q)
    (plain : ∀ c ∈ p, c ≠ '\\' ∧ c ≠ '\n') :
    (∃ rest last mark', s = p ++ rest ∧ q = escapeFrom place last mark' rest) ∧
      (∀ n, aim place before mark s = some n → p.length ≤ n) ∧
      (∀ c ∈ p, isAlwaysEscaped c = false) ∧
      (startsLine before = true → p.head? ≠ some '#') := by
  induction p generalizing before mark s with
  | nil => exact ⟨⟨s, before, mark, rfl, same.symm⟩, by simp⟩
  | cons d p ih =>
    rw [List.forall_mem_cons] at plain
    cases s with
    | nil => contradiction
    | cons c cs =>
      rw [escapeFrom_cons] at same
      cases escaped : isEscaped place before (aim place before mark (c :: cs)) c cs.head? with
      | true =>
        rw [escaped] at same
        exact absurd (List.cons.inj same).1.symm plain.1.1
      | false =>
        rw [escaped] at same
        obtain ⟨rfl, later⟩ := List.cons.inj same
        obtain ⟨⟨rest, last, mark', rfl, rfl⟩, near, others, -⟩ := ih later plain.2
        -- Behind the first character the line goes on, so the aim is not taken again.
        have inLine : startsLine (some c) = false := by simp [startsLine, plain.1.2]
        simp only [isEscaped, Bool.or_eq_false_iff] at escaped
        obtain ⟨⟨⟨⟨always, here⟩, hash⟩, -⟩, -⟩ := escaped
        refine ⟨⟨rest, last, mark', rfl, rfl⟩, ?_, ?_, ?_⟩
        · intro n aimed
          rw [aimed] at here near
          have ahead : n ≠ 0 := by simpa using here
          have closer : p.length ≤ n - 1 := near (n - 1) (by simp [aim, inLine, nearer, ahead])
          rw [List.length_cons]
          omega
        · rw [List.forall_mem_cons]
          exact ⟨always, others⟩
        · intro starts
          simpa [starts] using hash

/-- Is a line, with what comes behind it, what remains of a text at the start of a line,
escaped? -/
def IsEscapedLine (place : Place) (l : List Char) : Prop :=
  ∃ before mark s rest, startsLine before = true ∧ escapeFrom place before mark s = l ++ rest ∧
    ∀ c ∈ rest.head?, c = '\n'

section

variable {place : Place} {before : Option Char} {mark : Option Nat} {s l : List Char}

theorem isEscapedLine_of_mem_tail (mem : l ∈ (Text.lines (escapeFrom place before mark s)).tail) :
    IsEscapedLine place l := by
  induction s generalizing before mark with
  | nil => contradiction
  | cons c cs ih =>
    rw [escapeFrom_cons] at mem
    generalize nearer (aim place before mark (c :: cs)) = mark' at mem
    have backslash : '\\' ≠ '\n' := by decide
    by_cases newline : c = '\n'
    · subst newline
      have inRest : l ∈ Text.lines (escapeFrom place (some '\n') mark' cs) := by
        unfold backslashed at mem
        split at mem <;> simpa [Text.tail_lines_cons backslash] using mem
      obtain ⟨first, others, rest, cut, whole, ends⟩ :=
        Text.exists_head_lines (escapeFrom place (some '\n') mark' cs)
      rw [cut, List.mem_cons] at inRest
      rcases inRest with rfl | later
      · exact ⟨some '\n', mark', cs, rest, rfl, whole, ends⟩
      · exact ih (by rwa [cut, List.tail_cons])
    · apply ih
      unfold backslashed at mem
      split at mem <;>
        simpa [Text.tail_lines_cons backslash, Text.tail_lines_cons newline] using mem

/-- Every line of an escaped text is an escaped line. -/
theorem isEscapedLine_of_mem (starts : startsLine before = true)
    (mem : l ∈ Text.lines (escapeFrom place before mark s)) : IsEscapedLine place l := by
  obtain ⟨first, others, rest, cut, whole, ends⟩ :=
    Text.exists_head_lines (escapeFrom place before mark s)
  rw [cut, List.mem_cons] at mem
  rcases mem with rfl | later
  · exact ⟨before, mark, s, rest, starts, whole, ends⟩
  · exact isEscapedLine_of_mem_tail (by rwa [cut, List.tail_cons])

end

/-- A line that would begin no block: it has no mark at its start, and it underlines nothing. -/
structure OpensNothing (line : List Char) : Prop where
  first : ∀ c ∈ line.head?, c ∉ ['-', '+', '*', '>', '#', '\x60', '<']
  ordered : ∀ digits d rest, line = digits ++ d :: rest →
    (∀ c ∈ digits, Unicode.isDecimalDigit c = true) → 1 ≤ digits.length → digits.length ≤ 9 →
    d ∉ ['.', ')']
  underline : ∀ marks blanks, line = marks ++ blanks → marks ≠ [] → (∀ c ∈ marks, c = '=') →
    ¬∀ c ∈ blanks, c = ' ' ∨ c = '\t'

section

variable {place : Place} (heading : place.inHeading = false) (cell : place.inCell = false)
include heading cell

/-- What an escaped line begins with, as long as there is no backslash in it, is the beginning of a
line of the text that has no mark to aim at there. -/
theorem IsEscapedLine.begins {p tail : List Char} (h : IsEscapedLine place (p ++ tail))
    (plain : ∀ c ∈ p, c ≠ '\\' ∧ c ≠ '\n') :
    (∀ c ∈ p, isAlwaysEscaped c = false) ∧ p.head? ≠ some '#' ∧
      ∃ rest, (∀ n, blockMark? (p ++ rest) = some n → p.length ≤ n) ∧
        (tail = [] → ∀ c ∈ rest.head?, c = '\n') := by
  obtain ⟨before, mark, s, behind, starts, whole, ends⟩ := h
  rw [List.append_assoc] at whole
  obtain ⟨⟨rest, last, mark', rfl, later⟩, near, always, hash⟩ := escapeFrom_eq_append whole plain
  rw [aim, if_pos starts, heading, cell] at near
  refine ⟨always, hash starts, rest, near, ?_⟩
  rintro rfl c first
  rw [List.nil_append] at later
  obtain ⟨cs, rfl⟩ : ∃ cs, rest = c :: cs := by
    cases rest with
    | nil => contradiction
    | cons d ds => exact ⟨ds, by simpa using first⟩
  rw [later, escapeFrom_cons] at ends
  unfold backslashed at ends
  split at ends
  · exact absurd (ends '\\' rfl) (by decide)
  · exact ends c rfl

/-- Outside headings and table cells, an escaped line begins no block. -/
theorem IsEscapedLine.opensNothing {l : List Char} (h : IsEscapedLine place l) :
    OpensNothing l := by
  constructor
  · intro c first marked
    obtain ⟨cs, rfl⟩ : ∃ cs, l = [c] ++ cs := by
      cases l with
      | nil => contradiction
      | cons d ds => exact ⟨ds, by simpa using first⟩
    have distinct : ['-', '+', '*', '>', '#', '\x60', '<'].all (fun d => d != '\\' && d != '\n') =
        true := by decide
    have other := List.all_eq_true.mp distinct c marked
    obtain ⟨always, hash, rest, near, -⟩ := h.begins heading cell (by simpa using other)
    have bullet (is : c = '-' ∨ c = '+' ∨ c = '>') : False := by
      have aimed := near 0 (blockMark?_of_head is rest)
      contradiction
    rw [List.forall_mem_singleton] at always
    simp only [List.mem_cons, List.not_mem_nil, or_false] at marked
    rcases marked with is | is | rfl | is | rfl | rfl | rfl
    · exact bullet (.inl is)
    · exact bullet (.inr (.inl is))
    · contradiction
    · exact bullet (.inr (.inr is))
    · exact hash rfl
    · contradiction
    · contradiction
  · rintro digits d tail rfl decimal filled short closes
    have some : digits ≠ [] := List.length_pos_iff.mp filled
    have closes : d = '.' ∨ d = ')' := by simpa using closes
    have plain : ∀ c ∈ digits ++ [d], c ≠ '\\' ∧ c ≠ '\n' := by
      rw [List.forall_mem_append, List.forall_mem_singleton]
      constructor
      · rintro c mem
        have digit := decimal c mem
        constructor <;> rintro rfl <;> contradiction
      · rcases closes with rfl | rfl <;> decide
    rw [List.append_cons] at h
    obtain ⟨-, -, rest, near, -⟩ := h.begins heading cell plain
    rw [← List.append_cons] at near
    obtain ⟨n, aimed, le⟩ := blockMark?_ordered some decimal short closes rest
    have far := near n aimed
    rw [List.length_append, List.length_singleton] at far
    omega
  · rintro marks blanks rfl some equal blank
    have plain : ∀ c ∈ marks ++ blanks, c ≠ '\\' ∧ c ≠ '\n' := by
      rw [List.forall_mem_append]
      constructor
      · intro c mem
        rw [equal c mem]
        decide
      · intro c mem
        rcases blank c mem with rfl | rfl <;> decide
    rw [← List.append_nil (marks ++ blanks)] at h
    obtain ⟨-, -, rest, near, ends⟩ := h.begins heading cell plain
    rw [List.append_assoc] at near
    have far := near 0 (blockMark?_underline some equal blank (ends rfl))
    have filled := List.length_pos_iff.mpr some
    rw [List.length_append] at far
    omega

end

/-! ## the backslashes of a text -/

/-- Is the mark that is aimed at one? -/
def AimsAtMark (mark : Option Nat) (s : List Char) : Prop :=
  ∀ n, mark = some n → ∃ c ∈ s[n]?, isBlockMark c = true

theorem aimsAtMark_none (s : List Char) : AimsAtMark none s := by simp [AimsAtMark]

theorem aimsAtMark_aim {place : Place} {before : Option Char} {mark : Option Nat} {s : List Char}
    (h : AimsAtMark mark s) : AimsAtMark (aim place before mark s) s := by
  intro n aimed
  unfold aim at aimed
  split at aimed
  · split at aimed
    · contradiction
    · exact blockMark?_eq_some aimed
  · exact h n aimed

theorem aimsAtMark_nearer {mark : Option Nat} {c : Char} {cs : List Char}
    (h : AimsAtMark mark (c :: cs)) : AimsAtMark (nearer mark) cs := by
  intro n closer
  obtain ⟨m, rfl, next⟩ := Option.bind_eq_some_iff.mp closer
  split at next
  · contradiction
  · obtain rfl := Option.some.inj next
    have there := h m rfl
    rwa [show m = (m - 1) + 1 by omega, List.getElem?_cons_succ] at there

/-- Only punctuation has a backslash. -/
theorem isAsciiPunctuation_of_mem_markedFrom {place : Place} {before : Option Char}
    {mark : Option Nat} {s : List Char} (aims : AimsAtMark mark s) {c : Char}
    (mem : (c, true) ∈ markedFrom place before mark s) : Unicode.isAsciiPunctuation c = true := by
  induction s generalizing before mark with
  | nil => contradiction
  | cons d ds ih =>
    have aimed : AimsAtMark (aim place before mark (d :: ds)) (d :: ds) := aimsAtMark_aim aims
    rw [markedFrom, List.mem_cons] at mem
    rcases mem with here | later
    · obtain ⟨rfl, escaped⟩ := Prod.mk.inj here
      have always : "\\\x60*\x7b\x7d[]<".toList.all Unicode.isAsciiPunctuation = true := by decide
      have marks : "-+>.)=".toList.all Unicode.isAsciiPunctuation = true := by decide
      have reason := escaped.symm
      simp only [isEscaped, Bool.or_eq_true, Bool.and_eq_true, beq_iff_eq] at reason
      rcases reason with (((special | mark) | ⟨rfl, -⟩) | ⟨rfl, -⟩) | ⟨rfl, -⟩
      · exact List.all_eq_true.mp always c (List.contains_iff_mem.mp special)
      · obtain ⟨e, first, mark⟩ := aimed 0 mark
        obtain rfl : c = e := by simpa using first
        exact List.all_eq_true.mp marks c (List.contains_iff_mem.mp mark)
      all_goals rfl
    · exact ih (aimsAtMark_nearer aimed) later

/-- **What the backslashes in a text do.**  Where escaping is on, a text is written with some
backslashes put in, all of them before punctuation.  A character that has a meaning wherever it
stands has one, an underscore has one unless there is a letter or digit on both sides, and a pipe
has one in a table cell.  Outside headings and table cells, no line of what is written begins a
block. -/
theorem writeLeaf_text_guarded (o : WritingOptions) (on : o.escapeSpecial = true) (place : Place)
    (content : String) :
    ∃ marked : List (Char × Bool), marked.map Prod.fst = content.toList ∧
      writeLeaf o place (.text content) = marked.flatMap backslashed ∧
      (∀ c, (c, true) ∈ marked → Unicode.isAsciiPunctuation c = true) ∧
      (∀ c ∈ ['\\', '\x60', '*', '\x7b', '\x7d', '[', ']', '<'], (c, false) ∉ marked) ∧
      (∀ before after, marked = before ++ ('_', false) :: after →
        (∃ p ∈ before.getLast?, Unicode.isAlphanumeric p.1 = true) ∧
          ∃ p ∈ after.head?, Unicode.isAlphanumeric p.1 = true) ∧
      (place.inCell = true → ('|', false) ∉ marked) ∧
      (place.inHeading = false → place.inCell = false →
        ∀ l ∈ Text.lines (writeLeaf o place (.text content)), OpensNothing l) := by
  have written : writeLeaf o place (.text content) = escapeFrom place none none content.toList := by
    rw [writeLeaf, if_pos on, escape]
  have plain {c : Char} (mem : (c, false) ∈ markedFrom place none none content.toList) :
      isAlwaysEscaped c = false ∧ (c = '|' → place.inCell = false) := by
    obtain ⟨before, mark, next, kept⟩ := exists_of_mem_markedFrom mem
    have kept := kept.symm
    simp only [isEscaped, Bool.or_eq_false_iff, Bool.and_eq_false_iff, beq_eq_false_iff_ne] at kept
    exact ⟨kept.1.1.1.1, fun is => kept.2.resolve_left (absurd is)⟩
  refine ⟨markedFrom place none none content.toList, map_fst_markedFrom, ?_, ?_, ?_, ?_, ?_, ?_⟩
  · rw [written, escapeFrom_eq_flatMap]
  · exact fun c mem => isAsciiPunctuation_of_mem_markedFrom (aimsAtMark_none _) mem
  · intro c special mem
    have always :
        ['\\', '\x60', '*', '\x7b', '\x7d', '[', ']', '<'].all isAlwaysEscaped = true := by
      decide
    have unmarked := (plain mem).1
    rw [List.all_eq_true.mp always c special] at unmarked
    contradiction
  · intro before after same
    obtain ⟨left, right⟩ := isWordChar_of_markedFrom same
    rw [Option.or_none] at left
    exact ⟨exists_of_isWordChar left, exists_of_isWordChar right⟩
  · intro cell mem
    rw [(plain mem).2 rfl] at cell
    contradiction
  · intro heading cell l mem
    rw [written] at mem
    exact (isEscapedLine_of_mem rfl mem).opensNothing heading cell

/-- A text with a list, a quote, an underline and underscores in it. -/
theorem writeLeaf_text_guarded_lines :
    ({} : WritingOptions).escapeSpecial = true ∧
      writeLeaf {} {} (.text "1. a_b _\n==\n> *") = "1\\. a_b \\_\n\\==\n\\> \\*".toList ∧
      OpensNothing "\\==".toList := by
  have written : writeLeaf {} {} (.text "1. a_b _\n==\n> *") =
      "1\\. a_b \\_\n\\==\n\\> \\*".toList := by decide +kernel
  obtain ⟨-, -, -, -, -, -, -, opens⟩ := writeLeaf_text_guarded {} rfl {} "1. a_b _\n==\n> *"
  rw [written] at opens
  exact ⟨rfl, written, opens rfl rfl _ (by decide +kernel)⟩

/-! ## taking the backslashes off -/

theorem unescape_cons {c : Char} (other : c ≠ '\\') (s : List Char) :
    unescape (c :: s) = c :: unescape s := by
  rw [unescape]
  rintro d ds rfl
  exact absurd rfl other

theorem unescape_backslash {c : Char} (punctuation : Unicode.isAsciiPunctuation c = true)
    (s : List Char) : unescape ('\\' :: c :: s) = c :: unescape s := by
  rw [unescape, if_pos punctuation]

/-- A character without a backslash has no meaning wherever it stands. -/
theorem isAlwaysEscaped_of_mem_markedFrom {place : Place} {before : Option Char}
    {mark : Option Nat} {s : List Char} {c : Char}
    (mem : (c, false) ∈ markedFrom place before mark s) : isAlwaysEscaped c = false := by
  obtain ⟨before', mark', next, kept⟩ := exists_of_mem_markedFrom mem
  have kept := kept.symm
  simp only [isEscaped, Bool.or_eq_false_iff] at kept
  exact kept.1.1.1.1

/-- Where all backslashes are put in before punctuation, and every backslash of the text has one,
they can be taken off again. -/
theorem unescape_flatMap_backslashed {marked : List (Char × Bool)}
    (punctuation : ∀ c, (c, true) ∈ marked → Unicode.isAsciiPunctuation c = true)
    (guarded : ('\\', false) ∉ marked) :
    unescape (marked.flatMap backslashed) = marked.map Prod.fst := by
  induction marked with
  | nil => rfl
  | cons p ps ih =>
    obtain ⟨c, escaped⟩ := p
    have later := ih (fun d mem => punctuation d (List.mem_cons_of_mem _ mem))
      fun mem => guarded (List.mem_cons_of_mem _ mem)
    cases escaped with
    | true =>
      have here := punctuation c List.mem_cons_self
      show unescape ('\\' :: c :: ps.flatMap backslashed) = _
      rw [unescape_backslash here, later, List.map_cons]
    | false =>
      have other : c ≠ '\\' := by
        rintro rfl
        exact guarded List.mem_cons_self
      show unescape (c :: ps.flatMap backslashed) = _
      rw [unescape_cons other, later, List.map_cons]

theorem unescape_escape (place : Place) (s : List Char) : unescape (escape place s) = s := by
  have guarded : ('\\', false) ∉ markedFrom place none none s := by
    intro mem
    have unmarked := isAlwaysEscaped_of_mem_markedFrom mem
    contradiction
  rw [escape, escapeFrom_eq_flatMap, unescape_flatMap_backslashed
    (fun c mem => isAsciiPunctuation_of_mem_markedFrom (aimsAtMark_none s) mem) guarded,
    map_fst_markedFrom]

/-- **Escaping can be undone.**  Where escaping is on, wherever a text stands, dropping each backslash
before punctuation from what is written, from left to right, gives back the text. -/
theorem unescape_writeLeaf_text (o : WritingOptions) (on : o.escapeSpecial = true) (place : Place)
    (content : String) : unescape (writeLeaf o place (.text content)) = content.toList := by
  rw [writeLeaf, if_pos on, unescape_escape]

/-- A text in a table cell with backslashes of its own: before a character that is escaped, before
one that is not, and at the end. -/
theorem unescape_writeLeaf_text_backslashes :
    ({} : WritingOptions).escapeSpecial = true ∧
      writeLeaf {} { inCell := true } (.text "\\| \\a _\\") = "\\\\\\| \\\\a \\_\\\\".toList ∧
      unescape "\\\\\\| \\\\a \\_\\\\".toList = "\\| \\a _\\".toList := by
  have written : writeLeaf {} { inCell := true } (.text "\\| \\a _\\") =
      "\\\\\\| \\\\a \\_\\\\".toList := by decide +kernel
  have back := unescape_writeLeaf_text {} rfl { inCell := true } "\\| \\a _\\"
  rw [written] at back
  exact ⟨rfl, written, back⟩

end Docsite.Markdown
