import Docsite.Document.OfTokens
import Docsite.Markdown.Render
import Docsite.Markdown.Tokenize
import Docsite.Proofs.Text.Search
import Docsite.Proofs.Tree.Subtrees

/-!
# Docsite.Proofs.Markdown.CodeSpans

Inline code, read back from what is written.

A span of code is closed by the first run of as many backticks as began it.  Code is written between
more backticks than any run inside has, so the last run closes the span (`untilBackticks?_append`).
A reader then takes one space off both ends, unless there is nothing but spaces.  Spaces that are put
in before a backtick at either end come off again; spaces that the code itself begins and ends with
come off too, and those are missed (`Spaced`).
-/

namespace Docsite.Markdown

open Document Docsite.Tree

/-- The code of a span that begins a text, and what follows the span. -/
def spanAt? (s : List Char) : Option (List Char × List Char) :=
  if s.head? = some '\x60' then
    codeSpan? (s.takeWhile (· == '\x60')).length (s.dropWhile (· == '\x60'))
  else none

/-- A text that begins and ends with a space, and holds something else. -/
structure Spaced (s : List Char) : Prop where
  first : s.head? = some ' '
  last : s.getLast? = some ' '
  other : s.any (· != ' ') = true

theorem spaced_iff {s : List Char} :
    Spaced s ↔ s.head? = some ' ' ∧ s.getLast? = some ' ' ∧ s.any (· != ' ') = true :=
  ⟨fun h => ⟨h.first, h.last, h.other⟩, fun h => ⟨h.1, h.2.1, h.2.2⟩⟩

instance (s : List Char) : Decidable (Spaced s) := decidable_of_iff' _ spaced_iff

/-! ## the end of a span -/

/-- The rest of a run of backticks at the end of a text. -/
theorem untilBackticks?_replicate (n run k : Nat) (seen : List Char) (enough : run + k = n) :
    untilBackticks? n run seen (List.replicate k '\x60') =
      some (((List.replicate k '\x60' ++ seen).drop n).reverse, []) := by
  induction k generalizing run seen with
  | zero =>
    rw [List.replicate_zero, untilBackticks?, if_pos (by omega), List.nil_append]
  | succ k ih =>
    have swap : List.replicate k '\x60' ++ '\x60' :: seen =
        List.replicate (k + 1) '\x60' ++ seen := by
      rw [List.replicate_succ', List.append_assoc, List.singleton_append]
    rw [List.replicate_succ, untilBackticks?, if_pos rfl, ih (run + 1) _ (by omega), swap,
      List.replicate_succ]

/-- A text with no run of `n` backticks goes on to the first run of so many behind it, if it does not
end with a backtick. -/
theorem untilBackticks?_append {n run : Nat} (seen : List Char) {s : List Char}
    (short : ∀ k, List.replicate k '\x60' <:+: List.replicate run '\x60' ++ s → k < n)
    (last : ∀ c ∈ (List.replicate run '\x60' ++ s).getLast?, c ≠ '\x60') :
    untilBackticks? n run seen (s ++ List.replicate n '\x60') = some (seen.reverse ++ s, []) := by
  induction s generalizing run seen with
  | nil =>
    obtain rfl : run = 0 := by
      cases run with
      | zero => rfl
      | succ run => exact absurd rfl (last '\x60' (by simp [List.replicate_succ']))
    rw [List.nil_append, untilBackticks?_replicate n 0 n seen (by omega)]
    simp
  | cons c cs ih =>
    by_cases tick : c = '\x60'
    · subst tick
      have longer : List.replicate run '\x60' ++ '\x60' :: cs =
          List.replicate (run + 1) '\x60' ++ cs := by
        rw [List.replicate_succ', List.append_assoc, List.singleton_append]
      rw [longer] at short last
      rw [List.cons_append, untilBackticks?, if_pos rfl, ih _ short last]
      simp
    · have fewer : run < n := short run (List.prefix_append _ _).isInfix
      have behind : c :: cs <:+ List.replicate run '\x60' ++ c :: cs := List.suffix_append ..
      rw [List.cons_append, untilBackticks?, if_neg tick, if_neg (by omega), ih]
      · simp
      · intro k found
        exact short k (found.trans ((List.suffix_cons c cs).trans behind).isInfix)
      · rw [List.replicate_zero, List.nil_append]
        intro d mem
        refine last d ?_
        rw [Option.mem_def] at mem ⊢
        rw [List.getLast?_append, List.getLast?_cons, mem]
        rfl

/-! ## code -/

variable {s : List Char}

/-- Code that is written between backticks is read up to the last of them. -/
theorem spanAt?_between {n : Nat} (positive : 0 < n)
    (short : ∀ k, List.replicate k '\x60' <:+: s → k < n) (first : ∀ c ∈ s.head?, c ≠ '\x60')
    (last : ∀ c ∈ s.getLast?, c ≠ '\x60') (filled : s ≠ []) :
    spanAt? (List.replicate n '\x60' ++ s ++ List.replicate n '\x60') = some (codeOf s, []) := by
  obtain ⟨c, cs, rfl⟩ := List.exists_cons_of_ne_nil filled
  obtain ⟨m, rfl⟩ := Nat.exists_eq_add_of_le' positive
  have other : (c == '\x60') = false := by simpa using first c rfl
  have ticks : ∀ d ∈ List.replicate (m + 1) '\x60', (d == '\x60') = true := by simp
  have behind : c :: cs ++ List.replicate (m + 1) '\x60' =
      c :: (cs ++ List.replicate (m + 1) '\x60') := rfl
  have closed : untilBackticks? (m + 1) 0 [] (c :: cs ++ List.replicate (m + 1) '\x60') =
      some (c :: cs, []) := by
    rw [untilBackticks?_append [] (by simpa using short) (by simpa using last)]
    simp
  rw [spanAt?, List.append_assoc, if_pos (by simp [List.replicate_succ])]
  rw [List.takeWhile_append_of_pos ticks, List.dropWhile_append_of_pos ticks, behind,
    List.takeWhile_cons_of_neg (by simp [other]), List.dropWhile_cons_of_neg (by simp [other]),
    List.append_nil, List.length_replicate, ← behind, codeSpan?, closed]
  rfl

/-- In one line, a reader only takes spaces off. -/
theorem codeOf_of_line (line : '\n' ∉ s) :
    codeOf s = if Spaced s then (s.drop 1).dropLast else s := by
  have unbroken : ∀ c ∈ s, (if c = '\n' then ' ' else c) = id c := by
    intro c mem
    have other : c ≠ '\n' := by
      rintro rfl
      exact line mem
    rw [if_neg other, id]
  rw [codeOf, List.map_congr_left unbroken, List.map_id]
  simp only [spaced_iff]

/-- Spaces that are put in on both sides are taken off. -/
theorem codeOf_padded (line : '\n' ∉ s) (other : s.any (· != ' ') = true) :
    codeOf (' ' :: s ++ [' ']) = s := by
  have padded : Spaced (' ' :: s ++ [' ']) := ⟨rfl, List.getLast?_concat .., by simp [other]⟩
  rw [codeOf_of_line (by simp [line]), if_pos padded]
  simp

/-- Spaces hold no backticks. -/
theorem replicate_infix_padded {k : Nat} (positive : 0 < k)
    (found : List.replicate k '\x60' <:+: ' ' :: s ++ [' ']) : List.replicate k '\x60' <:+: s := by
  obtain ⟨k, rfl⟩ := Nat.exists_eq_add_of_le' positive
  rcases List.infix_concat_iff.mp found with ends | found
  · obtain ⟨before, same⟩ := ends
    rw [List.replicate_succ', ← List.append_assoc] at same
    simpa using (List.append_inj' same rfl).2
  · rcases List.infix_cons_iff.mp found with begins | found
    · rw [List.replicate_succ] at begins
      simpa using (List.cons_prefix_cons.mp begins).1
    · exact found

/-- Inline code is read back without spaces at both ends. -/
theorem spanAt?_inlineCode (filled : s ≠ []) (line : '\n' ∉ s) :
    spanAt? (inlineCode s) = some (if Spaced s then (s.drop 1).dropLast else s, []) := by
  have short : ∀ k, List.replicate k '\x60' <:+: s → k < Text.longestRun ['\x60'] s + 1 :=
    fun k found => Nat.lt_succ_of_le (Text.le_longestRun found)
  unfold inlineCode
  extract_lets ticks pad
  by_cases ends : (s.head? == some '\x60' || s.getLast? == some '\x60') = true
  · have tick : '\x60' ∈ s := by
      rw [Bool.or_eq_true, beq_iff_eq, beq_iff_eq] at ends
      exact ends.elim List.mem_of_head? List.mem_of_getLast?
    have unspaced : ¬Spaced s := by
      intro spaced
      rw [spaced.first, spaced.last] at ends
      contradiction
    have padded : pad = [' '] := if_pos ends
    have read : spanAt? (ticks ++ (' ' :: s ++ [' ']) ++ ticks) =
        some (codeOf (' ' :: s ++ [' ']), []) := by
      apply spanAt?_between (Nat.succ_pos _)
      · intro k found
        rcases Nat.eq_zero_or_pos k with rfl | positive
        · exact Nat.succ_pos _
        · exact short k (replicate_infix_padded positive found)
      · simp
      · rw [List.getLast?_concat]
        simp
      · simp
    rw [codeOf_padded line (List.any_eq_true.mpr ⟨_, tick, rfl⟩)] at read
    rw [padded, if_neg unspaced, ← read]
    simp
  · have plain : pad = [] := if_neg ends
    rw [Bool.or_eq_true, beq_iff_eq, beq_iff_eq, not_or] at ends
    have read : spanAt? (ticks ++ s ++ ticks) = some (codeOf s, []) := by
      refine spanAt?_between (Nat.succ_pos _) short ?_ ?_ filled
      · rintro c first rfl
        exact ends.1 first
      · rintro c last rfl
        exact ends.2 last
    rw [plain, List.append_nil, List.append_nil, read, codeOf_of_line line]

/-- **Inline code is read back to its last backtick, as it was unless it begins and ends with
spaces.**  If it does, and is not all spaces, one space is missing at each end. -/
theorem spanAt?_writeLeaf (o : WritingOptions) (place : Place) {content : String}
    (filled : content ≠ "") (line : '\n' ∉ content.toList) :
    let written := writeLeaf o place (.inlineCode content)
    (spanAt? written = some (content.toList, []) ↔ ¬Spaced content.toList) ∧
      (Spaced content.toList →
        spanAt? written = some ((content.toList.drop 1).dropLast, [])) := by
  intro written
  have read : spanAt? written = some (if Spaced content.toList then
      (content.toList.drop 1).dropLast else content.toList, []) :=
    spanAt?_inlineCode (by simpa using filled) line
  constructor
  · rw [read, Option.some_inj, Prod.mk.injEq, and_iff_left rfl]
    constructor
    · intro same spaced
      have shorter := congrArg List.length same
      rw [if_pos spaced, List.length_dropLast, List.length_drop] at shorter
      have positive := List.length_pos_of_mem (List.mem_of_head? spaced.first)
      omega
    · exact fun unspaced => if_neg unspaced
  · intro spaced
    rw [read, if_pos spaced]

/-- Code that begins with a backtick and a space, has a run of two inside, and ends with a space. -/
theorem spanAt?_writeLeaf_backticks :
    let code := "\x60 a\x60\x60b "
    code ≠ "" ∧ '\n' ∉ code.toList ∧
      spanAt? (writeLeaf {} {} (.inlineCode code)) = some (code.toList, []) := by
  intro code
  have filled : code ≠ "" := by decide
  have line : '\n' ∉ code.toList := by decide
  have unspaced : ¬Spaced code.toList := by decide
  exact ⟨filled, line, (spanAt?_writeLeaf {} {} filled line).1.mpr unspaced⟩

/-- Code with a space at both ends, which a source can hold behind one more space, is read without
them. -/
theorem not_spanAt?_writeLeaf_spaced :
    .leaf (.inlineCode " a ") ∈ (ofTokens (tokenize {} "\x60  a  \x60")).subtrees ∧
      spanAt? (writeLeaf {} {} (.inlineCode " a ")) = some (['a'], []) ∧
      spanAt? (writeLeaf {} {} (.inlineCode " a ")) ≠ some (" a ".toList, []) := by
  decide +kernel

end Docsite.Markdown
