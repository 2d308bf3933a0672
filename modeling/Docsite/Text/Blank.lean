/-!
# Docsite.Text.Blank

White space in the wide sense, and trimming by it.

`isBlank` is the set of characters that trimming removes when no set is named:
the ASCII controls from tab to carriage return, the four information separators,
the space, and the separators of the Unicode categories Zs, Zl and Zp together with
U+0085.  The zero width space and the byte order mark are not in it.
-/

namespace Docsite.Text

/-- Is the character white space, in ASCII or beyond? -/
def isBlank (c : Char) : Bool :=
  let n := c.toNat
  (0x09 ≤ n && n ≤ 0x0D) || (0x1C ≤ n && n ≤ 0x20) || n == 0x85 || n == 0xA0 || n == 0x1680
    || (0x2000 ≤ n && n ≤ 0x200A) || n == 0x2028 || n == 0x2029 || n == 0x202F || n == 0x205F
    || n == 0x3000

/-- Drop the longest ending whose characters all satisfy `p`. -/
def dropEndWhile (p : Char → Bool) (s : List Char) : List Char :=
  (s.reverse.dropWhile p).reverse

/-- Drop the longest beginning and the longest ending whose characters all satisfy `p`. -/
def trimWhile (p : Char → Bool) (s : List Char) : List Char :=
  dropEndWhile p (s.dropWhile p)

/-- Without leading white space. -/
def trimStart (s : List Char) : List Char := s.dropWhile isBlank

/-- Without trailing white space. -/
def trimEnd (s : List Char) : List Char := dropEndWhile isBlank s

/-- Without white space at either end. -/
def trim (s : List Char) : List Char := trimWhile isBlank s

theorem dropEndWhile_concat (p : Char → Bool) (s : List Char) (c : Char) :
    dropEndWhile p (s ++ [c]) = if p c then dropEndWhile p s else s ++ [c] := by
  by_cases h : p c <;> simp [dropEndWhile, h]

/-- What is dropped at the end does not reach a character that stays. -/
theorem dropEndWhile_cons {p : Char → Bool} {c : Char} (h : p c = false) (s : List Char) :
    dropEndWhile p (c :: s) = c :: dropEndWhile p s := by
  rw [dropEndWhile, dropEndWhile, List.reverse_cons, List.dropWhile_append]
  cases s.reverse.dropWhile p with
  | nil => simp [h]
  | cons d ds => simp

theorem dropEndWhile_prefix (p : Char → Bool) (s : List Char) : dropEndWhile p s <+: s := by
  have suffix := List.dropWhile_suffix (l := s.reverse) p
  rwa [← List.reverse_prefix, List.reverse_reverse] at suffix

theorem trimWhile_infix (p : Char → Bool) (s : List Char) : trimWhile p s <:+: s := by
  have shortened := dropEndWhile_prefix p (s.dropWhile p)
  exact shortened.isInfix.trans (List.dropWhile_suffix p).isInfix

/-- A text that neither begins nor ends with what is trimmed stays as it is. -/
theorem trimWhile_of_ends {p : Char → Bool} {s : List Char} (first : ∀ c ∈ s.head?, p c = false)
    (last : ∀ c ∈ s.getLast?, p c = false) : trimWhile p s = s := by
  have start : s.dropWhile p = s := by
    cases s with
    | nil => rfl
    | cons c cs => rw [List.dropWhile_cons, first c rfl, if_neg Bool.false_ne_true]
  rw [trimWhile, start]
  rcases List.eq_nil_or_concat s with rfl | ⟨cs, c, rfl⟩
  · rfl
  · rw [List.concat_eq_append] at last ⊢
    rw [dropEndWhile_concat, last c (by simp), if_neg Bool.false_ne_true]

end Docsite.Text
