import Docsite.Proofs.Yaml.Reader
import Docsite.Proofs.Text.Lines
import Mathlib.Algebra.Group.Nat.Defs

/-!
# Docsite.Proofs.Yaml.RoundTrip

Strings that are written as scalars are read as the same strings.

One equation for each style: the reader of the style, on what the style wrote with the rest of the
line free.  A string without line breaks is written on one line, whatever else is in it, and no
style is chosen under which it would be read as anything else (`readScalar_scalar`).
-/

namespace Docsite.Yaml

variable {c : Char} {s : List Char}

/-! ## characters -/

theorem isLineChar_of_showable (showable : isShowable c = true) (inLine : isBreak c = false) :
    isLineChar c = true := by
  simp only [isShowable, isBreak, isLineChar, Bool.or_eq_true, Bool.and_eq_true,
    Bool.or_eq_false_iff, beq_iff_eq, beq_eq_false_iff_ne, bne_iff_ne, decide_eq_true_eq] at *
  have other : c ≠ '\n' := inLine.1.1.1
  simp only [other, false_or] at showable
  omega

theorem showable_of_not_needsEscapes (plain : needsEscapes s = false) (mem : c ∈ s) :
    isShowable c = true := by
  simp only [needsEscapes, Bool.or_eq_false_iff, List.any_eq_false] at plain
  simpa using plain.1.1 c mem

/-- Spaces are the only separators that need no escape and break no line. -/
theorem eq_space_of_isSeparator (showable : isShowable c = true) (inLine : isBreak c = false)
    (separator : isSeparator c = true) : c = ' ' := by
  simp only [isSeparator, inLine, Bool.or_false, Bool.or_eq_true, beq_iff_eq] at separator
  rcases separator with ((zero | space) | rfl) | rfl
  · rw [← Char.ofNat_toNat c, zero] at showable
    exact absurd showable (by decide)
  · exact space
  · exact absurd showable (by decide)
  · exact absurd showable (by decide)

/-! ## plain -/

theorem plainSpan_of_not_endsPlain (unended : endsPlain s = false)
    (spaces : ∀ c ∈ s, isSeparator c = true → c = ' ') : plainSpan s = (s, []) := by
  induction s with
  | nil => rfl
  | cons c cs ih =>
    rw [List.forall_mem_cons] at spaces
    have goesOn : stopsPlain c cs = false ∧ endsPlain cs = false := by
      cases cs with
      | nil => grind [endsPlain, stopsPlain, isSeparated, isSeparator]
      | cons d ds => grind [endsPlain, stopsPlain, isSeparated]
    rw [plainSpan, goesOn.1, if_neg Bool.false_ne_true, ih goesOn.2 spaces.2]

/-- A word before a colon and a space is over at the colon. -/
theorem plainSpan_append {w : List Char} (word : ∀ c ∈ w, c ≠ ':' ∧ isSeparator c = false)
    (rest : List Char) : plainSpan (w ++ ':' :: ' ' :: rest) = (w, ':' :: ' ' :: rest) := by
  induction w with
  | nil => rfl
  | cons c cs ih =>
    rw [List.forall_mem_cons] at word
    have goesOn : stopsPlain c (cs ++ ':' :: ' ' :: rest) = false := by
      simp [stopsPlain, word.1.1, word.1.2]
    rw [List.cons_append, plainSpan, goesOn, if_neg Bool.false_ne_true, ih word.2]

theorem beginsPlain_of_not_startsWithIndicator {cs : List Char}
    (free : startsWithIndicator (c :: cs) = false) (inside : isSeparator c = false) :
    beginsPlain (c :: cs) = true := by
  rw [startsWithIndicator, Bool.or_eq_false_iff] at free
  rw [beginsPlain]
  split
  · next indicator =>
    rw [indicator, Bool.true_and] at free
    rw [isSeparated, free.2]
    rfl
  · rw [inside, free.1]
    rfl

theorem readScalar_plain (unquoted : isPlain s = true) (unescaped : needsEscapes s = false)
    (oneLine : ∀ c ∈ s, isBreak c = false) : readScalar s = some ⟨.string, s⟩ := by
  simp only [isPlain, Bool.and_eq_true, Bool.not_eq_true', bne_iff_ne] at unquoted
  obtain ⟨⟨⟨⟨⟨⟨⟨⟨some, first⟩, last⟩, -⟩, -⟩, -⟩, free⟩, unended⟩, string⟩ := unquoted
  have spaces : ∀ c ∈ s, isSeparator c = true → c = ' ' := fun c mem =>
    eq_space_of_isSeparator (showable_of_not_needsEscapes unescaped mem) (oneLine c mem)
  have span := plainSpan_of_not_endsPlain unended spaces
  have tidy : plain s = ⟨.string, s⟩ := by
    have ends : Text.dropEndWhile (· == ' ') s = s := by
      obtain rfl | ⟨cs, c, rfl⟩ := List.eq_nil_or_concat s
      · rfl
      · rw [List.concat_eq_append] at last ⊢
        rw [Text.dropEndWhile_concat, if_neg (by simpa using last)]
    rw [plain, ends, (tagOf_eq_string_iff s).mpr string]
  cases s with
  | nil => exact nomatch some
  | cons c cs =>
    have inside : isSeparator c = false := by
      rw [Bool.eq_false_iff]
      intro separator
      exact first (congrArg Option.some (spaces c List.mem_cons_self separator))
    have quotes : c ≠ '\'' ∧ c ≠ '"' := by
      constructor <;> rintro rfl <;> simp [startsWithIndicator] at free
    rw [readScalar, if_neg quotes.1, if_neg quotes.2,
      if_pos (beginsPlain_of_not_startsWithIndicator free inside), span, tidy]
    rfl

/-! ## single quotes -/

theorem readSingle_singleQuoted (oneLine : ∀ c ∈ s, isBreak c = false) {rest : List Char}
    (closed : rest.head? ≠ some '\'') :
    readSingle (singleQuoted false s ++ '\'' :: rest) = some (s, rest) := by
  induction s with
  | nil =>
    rw [singleQuoted, if_neg Bool.false_ne_true, List.nil_append]
    cases rest with
    | nil => rfl
    | cons d ds => simp_all [readSingle]
  | cons c cs ih =>
    rw [List.forall_mem_cons] at oneLine
    have rest := ih oneLine.2
    rw [singleQuoted, oneLine.1, if_neg Bool.false_ne_true]
    by_cases quote : c = '\''
    · subst quote
      simp [readSingle, rest]
    · simp [readSingle, rest, quote]

/-! ## hexadecimal digits -/

theorem hexValue?_toUpper : ∀ d < 16, hexValue? (Nat.digitChar d).toUpper = some d := by decide

theorem addDigit_none (digits : List Char) : digits.foldl addDigit none = none := by
  induction digits with
  | nil => rfl
  | cons c cs ih => exact ih

theorem ofHexadecimal?_toDigits (n : Nat) :
    ofHexadecimal? ((Nat.toDigits 16 n).map Char.toUpper) = some n := by
  induction n using Nat.strongRecOn with
  | ind n ih =>
    rw [Nat.toDigits_eq_if (by decide)]
    split
    · next small => simp [ofHexadecimal?, addDigit, hexValue?_toUpper n small]
    · next large =>
      have front := ih (n / 16) (by omega)
      have last := hexValue?_toUpper (n % 16) (by omega)
      have whole : n / 16 * 16 + n % 16 = n := by omega
      rw [ofHexadecimal?] at front
      simp [ofHexadecimal?, front, addDigit, last, whole]

/-- Zeros in front do not count. -/
theorem ofHexadecimal?_hexadecimal (width n : Nat) :
    ofHexadecimal? (hexadecimal width n) = some n := by
  have zeros (k : Nat) : (List.replicate k '0').foldl addDigit (some 0) = some 0 := by
    induction k with
    | zero => rfl
    | succ k ih => exact ih
  rw [hexadecimal, ofHexadecimal?, List.foldl_append, zeros, ← ofHexadecimal?,
    ofHexadecimal?_toDigits]

theorem length_hexadecimal {width n : Nat} (some : 0 < width) (fits : n < 16 ^ width) :
    (hexadecimal width n).length = width := by
  have short := (Nat.length_toDigits_le_iff (by decide : 1 < 16) some).mpr fits
  simp only [hexadecimal, List.length_append, List.length_replicate, List.length_map]
  omega

/-- What is read as a number has digits only. -/
theorem isLineChar_of_ofHexadecimal? {digits : List Char} {n : Nat}
    (number : ofHexadecimal? digits = some n) (mem : c ∈ digits) : isLineChar c = true := by
  have digit : (hexValue? c).isSome = true := by
    obtain ⟨before, after, rfl⟩ := List.append_of_mem mem
    rw [ofHexadecimal?, List.foldl_append, List.foldl_cons] at number
    cases value : hexValue? c with
    | some d => rfl
    | none =>
      have nothing : addDigit (before.foldl addDigit (some 0)) c = none := by
        rw [addDigit, value]
        exact Option.bind_eq_none_iff.mpr fun _ _ => rfl
      rw [nothing, addDigit_none] at number
      contradiction
  have bounds (a : Char) : a ≤ c ↔ a.toNat ≤ c.toNat := Iff.rfl
  have bounds' (a : Char) : c ≤ a ↔ c.toNat ≤ a.toNat := Iff.rfl
  simp only [hexValue?, bounds, bounds'] at digit
  simp only [isLineChar]
  grind

/-! ## double quotes -/

theorem readDouble_skip (w rest : List Char) :
    readDouble w.length (w ++ rest) = readDouble 0 rest := by
  induction w with
  | nil => rfl
  | cons c cs ih => exact ih

/-- Every letter that is written is read as what it stands for. -/
theorem readEscape_letter {n : Nat} {letter : Char} (mem : (n, letter) ∈ escapeLetters)
    (rest : List Char) : readEscape (letter :: rest) = some (Char.ofNat n, 1) := by
  have meant : ∀ pair ∈ escapeLetters, escapeWidths.lookup pair.2 = none ∧
      escapeMeanings.lookup pair.2 = some pair.1 := by decide
  obtain ⟨noDigits, meaning⟩ := meant _ mem
  rw [readEscape, noDigits, meaning]
  rfl

theorem length_hexadecimal_escape {letter : Char} {width : Nat}
    (mem : escapeWidths.lookup letter = some width) (fits : c.toNat < 16 ^ width) :
    (hexadecimal width c.toNat).length = width := by
  have widths : ∀ pair ∈ escapeWidths, 0 < pair.2 := by decide
  obtain ⟨front, behind, is, -⟩ := List.lookup_eq_some_iff.mp mem
  exact length_hexadecimal (widths (letter, width) (by rw [is]; simp)) fits

theorem readEscape_hexadecimal {letter : Char} {width : Nat}
    (mem : escapeWidths.lookup letter = some width) (fits : c.toNat < 16 ^ width)
    (rest : List Char) :
    readEscape (letter :: (hexadecimal width c.toNat ++ rest)) = some (c, width + 1) := by
  have length := length_hexadecimal_escape mem fits
  have long : ¬(hexadecimal width c.toNat ++ rest).length < width := by
    rw [List.length_append, length]
    omega
  have valid : (some c.toNat).filter (fun n => n.isValidChar) = some c.toNat := by
    have valid : c.toNat.isValidChar := c.valid
    rw [Option.filter_some, if_pos (decide_eq_true valid)]
  rw [readEscape, mem]
  simp only [if_neg long, List.take_left' length, ofHexadecimal?_hexadecimal, valid,
    Option.map_some, Char.ofNat_toNat]

/-- An escape is passed over as a whole. -/
theorem readDouble_escape {w rest : List Char}
    (escape : readEscape (w ++ rest) = some (c, w.length)) :
    readDouble 0 ('\\' :: (w ++ rest)) =
      (readDouble 0 rest).map fun (s, rest) => (c :: s, rest) := by
  rw [readDouble, if_neg (by decide), if_pos rfl, escape, Option.bind_some]
  dsimp only
  rw [readDouble_skip]

theorem readDouble_hexadecimal {letter : Char} {width : Nat}
    (mem : escapeWidths.lookup letter = some width) (fits : c.toNat < 16 ^ width)
    (rest : List Char) :
    readDouble 0 ('\\' :: letter :: hexadecimal width c.toNat ++ rest) =
      (readDouble 0 rest).map fun (s, rest) => (c :: s, rest) := by
  refine readDouble_escape (w := letter :: hexadecimal width c.toNat) ?_
  rw [List.length_cons, length_hexadecimal_escape mem fits]
  exact readEscape_hexadecimal mem fits rest

theorem readDouble_doubleQuotedChar (c : Char) (rest : List Char) :
    readDouble 0 (doubleQuotedChar c ++ rest) =
      (readDouble 0 rest).map fun (s, rest) => (c :: s, rest) := by
  have small : c.toNat < 16 ^ 8 := by
    have : c.toNat < 0xD800 ∨ (0xDFFF < c.toNat ∧ c.toNat < 0x110000) := c.valid
    omega
  rw [doubleQuotedChar]
  split
  · next letter found =>
    obtain ⟨front, behind, is, -⟩ := List.lookup_eq_some_iff.mp found
    have mem : (c.toNat, letter) ∈ escapeLetters := by rw [is]; simp
    have escape := readEscape_letter mem rest
    rw [Char.ofNat_toNat] at escape
    exact readDouble_escape (w := [letter]) escape
  · next literal =>
    split
    · have marks : c ≠ '"' ∧ c ≠ '\\' := by
        constructor <;> rintro rfl <;> exact absurd literal (by decide)
      rw [List.singleton_append, readDouble, if_neg marks.1, if_neg marks.2]
    · split
      · exact readDouble_hexadecimal (by decide) (by omega) rest
      · split
        · exact readDouble_hexadecimal (by decide) (by omega) rest
        · exact readDouble_hexadecimal (by decide) small rest

theorem readDouble_doubleQuoted (s rest : List Char) :
    readDouble 0 (s.flatMap doubleQuotedChar ++ '"' :: rest) = some (s, rest) := by
  induction s with
  | nil => rfl
  | cons c cs ih =>
    rw [List.flatMap_cons, List.append_assoc, readDouble_doubleQuotedChar, ih, Option.map_some]

/-! ## scalars -/

theorem scalar_double (escaped : needsEscapes s = true) :
    scalar s = '"' :: (s.flatMap doubleQuotedChar ++ ['"']) := by
  rw [scalar, styleOf, if_pos escaped]
  rfl

theorem scalar_plain (unescaped : needsEscapes s = false) (unquoted : isPlain s = true) :
    scalar s = s := by
  rw [scalar, styleOf, if_neg (by rw [unescaped]; decide), if_pos unquoted]

theorem scalar_single (unescaped : needsEscapes s = false) (quoted : isPlain s = false) :
    scalar s = '\'' :: (singleQuoted false s ++ ['\'']) := by
  rw [scalar, styleOf, if_neg (by rw [unescaped]; decide), if_neg (by rw [quoted]; decide)]
  rfl

/-- **A string is read as it was written.**  It is a string again and no number, date, truth value
or null, and its scalar takes all of the line. -/
theorem readScalar_scalar (oneLine : ∀ c ∈ s, isBreak c = false) :
    readScalar (scalar s) = some ⟨.string, s⟩ := by
  cases escaped : needsEscapes s with
  | true =>
    rw [scalar_double escaped, readScalar, if_neg (by decide), if_pos rfl,
      readDouble_doubleQuoted]
    rfl
  | false =>
    cases unquoted : isPlain s with
    | true =>
      rw [scalar_plain escaped unquoted]
      exact readScalar_plain unquoted escaped oneLine
    | false =>
      rw [scalar_single escaped unquoted, readScalar, if_pos rfl,
        readSingle_singleQuoted oneLine (by simp)]
      rfl

/-- Single quotes bring nothing into a text but spaces and quotes. -/
theorem of_mem_singleQuoted {inBreaks : Bool} (mem : c ∈ singleQuoted inBreaks s) :
    c ∈ s ∨ c = ' ' ∨ c = '\'' := by
  induction s generalizing inBreaks with
  | nil =>
    rw [singleQuoted] at mem
    split at mem
    · simp_all
    · contradiction
  | cons d ds ih =>
    have later {inBreaks : Bool} (mem : c ∈ singleQuoted inBreaks ds) :
        c ∈ d :: ds ∨ c = ' ' ∨ c = '\'' := (ih mem).imp_left (List.mem_cons_of_mem d)
    rw [singleQuoted] at mem
    split at mem
    · rcases List.mem_append.mp mem with here | mem
      · split at here <;> simp_all
      · exact later mem
    · simp only [List.mem_append] at mem
      rcases mem with (space | here) | mem
      · split at space <;> simp_all
      · split at here <;> simp_all
      · exact later mem

theorem isLineChar_of_mem_doubleQuotedChar {d : Char} (mem : c ∈ doubleQuotedChar d) :
    isLineChar c = true := by
  have backslash : isLineChar '\\' = true := by decide
  have digits {width : Nat} {letter : Char} (line : isLineChar letter = true)
      (mem : c ∈ '\\' :: letter :: hexadecimal width d.toNat) : isLineChar c = true := by
    rw [List.mem_cons, List.mem_cons] at mem
    rcases mem with rfl | rfl | digit
    · exact backslash
    · exact line
    · exact isLineChar_of_ofHexadecimal? (ofHexadecimal?_hexadecimal width d.toNat) digit
  rw [doubleQuotedChar] at mem
  split at mem
  · next letter found =>
    obtain ⟨front, behind, is, -⟩ := List.lookup_eq_some_iff.mp found
    have letters : ∀ pair ∈ escapeLetters, isLineChar pair.2 = true := by decide
    rw [List.mem_cons, List.mem_singleton] at mem
    rcases mem with rfl | rfl
    · exact backslash
    · exact letters (d.toNat, c) (by rw [is]; simp)
  · next literal =>
    have inLine : d.toNat ≠ 0x2028 ∧ d.toNat ≠ 0x2029 := by
      constructor <;> intro is <;> rw [is] at literal <;> exact absurd literal (by decide)
    split at mem
    · next shown =>
      rw [List.mem_singleton.mp mem]
      simp only [isLineChar, Bool.or_eq_true, Bool.and_eq_true, beq_iff_eq, bne_iff_ne,
        decide_eq_true_eq] at shown ⊢
      omega
    · split at mem
      · exact digits (by decide) mem
      · split at mem
        · exact digits (by decide) mem
        · exact digits (by decide) mem

/-- A scalar holds nothing that could not stand in a line. -/
theorem isLineChar_of_mem_scalar (oneLine : ∀ c ∈ s, isBreak c = false) (mem : c ∈ scalar s) :
    isLineChar c = true := by
  cases escaped : needsEscapes s with
  | true =>
    rw [scalar_double escaped, List.mem_cons, List.mem_append, List.mem_singleton] at mem
    rcases mem with rfl | inside | rfl
    · decide
    · obtain ⟨d, -, mem⟩ := List.mem_flatMap.mp inside
      exact isLineChar_of_mem_doubleQuotedChar mem
    · decide
  | false =>
    have shown : ∀ c ∈ s, isLineChar c = true := fun c mem =>
      isLineChar_of_showable (showable_of_not_needsEscapes escaped mem) (oneLine c mem)
    cases unquoted : isPlain s with
    | true =>
      rw [scalar_plain escaped unquoted] at mem
      exact shown c mem
    | false =>
      rw [scalar_single escaped unquoted, List.mem_cons, List.mem_append,
        List.mem_singleton] at mem
      rcases mem with rfl | inside | rfl
      · decide
      · rcases of_mem_singleQuoted inside with inside | rfl | rfl
        · exact shown c inside
        · decide
        · decide
      · decide

/-- No scalar holds a carriage return, whatever it is a scalar of. -/
theorem return_notMem_scalar (s : List Char) : '\r' ∉ scalar s := by
  intro mem
  cases escaped : needsEscapes s with
  | true =>
    rw [scalar_double escaped] at mem
    obtain ⟨d, -, mem⟩ := List.mem_flatMap.mp (by simpa using mem)
    exact absurd (isLineChar_of_mem_doubleQuotedChar mem) (by decide)
  | false =>
    have absent : '\r' ∉ s := fun mem =>
      absurd (showable_of_not_needsEscapes escaped mem) (by decide)
    cases unquoted : isPlain s with
    | true =>
      rw [scalar_plain escaped unquoted] at mem
      exact absent mem
    | false =>
      rw [scalar_single escaped unquoted] at mem
      have inside := of_mem_singleQuoted (by simpa using mem)
      exact absent (by simpa using inside)

theorem head?_scalar_ne_space (s : List Char) : (scalar s).head? ≠ some ' ' := by
  cases escaped : needsEscapes s with
  | true => simp [scalar_double escaped]
  | false =>
    cases unquoted : isPlain s with
    | true =>
      rw [scalar_plain escaped unquoted]
      intro space
      simp [isPlain, space] at unquoted
    | false => simp [scalar_single escaped unquoted]

/-! ## entries -/

/-- Is the character a small letter or a low line? -/
def isKeyChar (c : Char) : Bool :=
  let n := c.toNat
  n == 0x5F || (0x61 ≤ n && n ≤ 0x7A)

/-- A word of these characters that is a string. -/
structure IsKey (w : List Char) : Prop where
  filled : w ≠ []
  letters : ∀ c ∈ w, isKeyChar c = true
  string : tagOf w = .string

theorem ne_of_isKeyChar {d : Char} (letter : isKeyChar c = true) (other : isKeyChar d = false) :
    c ≠ d := by
  rintro rfl
  rw [letter] at other
  contradiction

theorem contains_of_isKeyChar (letter : isKeyChar c = true) {others : List Char}
    (none : others.all (!isKeyChar ·) = true) : others.contains c = false := by
  rw [Bool.eq_false_iff, ne_eq, List.contains_iff_mem]
  intro mem
  have other := List.all_eq_true.mp none c mem
  rw [letter] at other
  contradiction

theorem isSeparator_of_isKeyChar (letter : isKeyChar c = true) : isSeparator c = false := by
  have numbers (d : Char) : (c == d) = (c.toNat == d.toNat) := by
    rw [Bool.eq_iff_iff, beq_iff_eq, beq_iff_eq, Char.toNat_inj]
  simp only [isKeyChar, isSeparator, isBreak, numbers, Char.reduceToNat] at *
  grind

theorem plain_key {w : List Char} (key : IsKey w) : plain w = ⟨.string, w⟩ := by
  have ends : Text.dropEndWhile (· == ' ') w = w := by
    obtain rfl | ⟨cs, c, rfl⟩ := List.eq_nil_or_concat w
    · rfl
    · rw [List.concat_eq_append] at key ⊢
      have letter := key.letters c (by simp)
      have other : c ≠ ' ' := ne_of_isKeyChar letter (by decide)
      rw [Text.dropEndWhile_concat, if_neg (by simpa using other)]
  rw [plain, ends, key.string]

/-- A key with a string is read as that key with that string. -/
theorem readEntry_scalar {w : List Char} (key : IsKey w) (oneLine : ∀ c ∈ s, isBreak c = false) :
    readEntry (w ++ ':' :: ' ' :: scalar s) = some (⟨.string, w⟩, ⟨.string, s⟩) := by
  have word : ∀ c ∈ w, c ≠ ':' ∧ isSeparator c = false := fun c mem =>
    ⟨ne_of_isKeyChar (key.letters c mem) (by decide), isSeparator_of_isKeyChar (key.letters c mem)⟩
  have span := plainSpan_append word (scalar s)
  have value : (' ' :: scalar s).dropWhile (· == ' ') = scalar s := by
    rw [List.dropWhile_cons, if_pos (by decide)]
    cases written : scalar s with
    | nil => rfl
    | cons c cs =>
      have first := head?_scalar_ne_space s
      rw [written, List.head?_cons] at first
      rw [List.dropWhile_cons, if_neg (by simpa using first)]
  have begins : (beginsPlain (w ++ ':' :: ' ' :: scalar s) &&
      !isDocumentMark (w ++ ':' :: ' ' :: scalar s)) = true := by
    obtain ⟨c, cs, rfl⟩ := List.exists_cons_of_ne_nil key.filled
    have letter := key.letters c List.mem_cons_self
    have noMark (d : Char) (other : isKeyChar d = false) (mark rest : List Char) :
        (d :: mark).isPrefixOf (c :: rest) = false := by
      rw [List.isPrefixOf_cons_cons, beq_eq_false_iff_ne.mpr (ne_of_isKeyChar letter other).symm,
        Bool.false_and]
    rw [List.cons_append, beginsPlain, contains_of_isKeyChar letter (by decide),
      contains_of_isKeyChar letter (by decide), isSeparator_of_isKeyChar letter]
    simp [isDocumentMark, noMark '-' (by decide), noMark '.' (by decide)]
  rw [readEntry, if_pos begins, span]
  simp only [value, readScalar_scalar oneLine, plain_key key, Option.map_some]

end Docsite.Yaml
