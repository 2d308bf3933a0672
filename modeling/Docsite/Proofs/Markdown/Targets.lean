import Docsite.Document.OfTokens
import Docsite.Markdown.Inline.Span
import Docsite.Markdown.Tokenize
import Docsite.Proofs.Markdown.Literals
import Docsite.Proofs.Markdown.Rest
import Docsite.Proofs.Tree.Subtrees

/-!
# Docsite.Proofs.Markdown.Targets

The targets of links and images, read back from what is written.

An address is written as it is, in angle brackets if it is that of a link and has a space, and a title
between double quotes.  A reader drops backslashes before punctuation and nothing else, so what it
has to find for an address is at least as long as the address, and has as many quotes and spaces
(`count_eq_of_extra`).  That leaves it no choice but to begin and to end where the address does
(`isBare_of_read`, `isAngled_of_read`), and it does so if nothing in the address ends it early
(`IsBare`, `IsAngled`).  The title is read from one quote to the other (`titlePart?_behindAddress`).
-/

namespace Docsite.Markdown

open Document Docsite.Tree

/-! ## reading a target -/

/-- A title in front of the closing parenthesis, or nothing, and what follows. -/
def titlePart? (s : List Char) : Option (Option (List Char) × List Char) :=
  let next := skipToNext s
  let (title, rest) :=
    match if next.length = s.length then none else title? next with
    | some (title, rest) => (some title, rest)
    | none => (none, s)
  match skipToNext rest with
  | ')' :: rest => some (title, rest)
  | _ => none

/-- A destination and a title behind an opening parenthesis, as they are written. -/
def targetParts? (s : List Char) : Option (List Char × Option (List Char) × List Char) :=
  (destination? (skipToNext s)).bind fun (destination, rest) =>
    (titlePart? rest).map fun (title, rest) => (destination, title, rest)

/-- The reader of links finds the same parts, and makes an address and a title of them. -/
theorem inlineTarget?_eq (s : List Char) :
    inlineTarget? s = (targetParts? s).map fun (destination, title, rest) =>
      (⟨addressOf destination, titleOf title⟩, rest) := by
  unfold inlineTarget? targetParts?
  cases destination? (skipToNext s) with
  | none => rfl
  | some found =>
    simp only [Option.bind_some, titlePart?]
    generalize (if (skipToNext found.2).length = found.2.length then none else
      title? (skipToNext found.2)) = title
    cases title <;>
    · dsimp only
      split <;> simp_all

/-- A target in parentheses without the backslashes of its escapes: the address, the title, which is
empty if there is none, and what follows. -/
def readTarget? : List Char → Option (List Char × List Char × List Char)
  | '(' :: s => (targetParts? s).map fun (destination, title, rest) =>
    (unescape destination, unescape (title.getD []), rest)
  | _ => none

theorem readTarget?_eq_some {s url title rest : List Char} :
    readTarget? ('(' :: s) = some (url, title, rest) ↔
      ∃ d behind read, destination? (skipToNext s) = some (d, behind) ∧
        titlePart? behind = some (read, rest) ∧ unescape d = url ∧
          unescape (read.getD []) = title := by
  rw [readTarget?, targetParts?]
  constructor
  · intro h
    obtain ⟨⟨d, read, rest'⟩, parts, same⟩ := Option.map_eq_some_iff.mp h
    obtain ⟨⟨d', behind⟩, destination, found⟩ := Option.bind_eq_some_iff.mp parts
    obtain ⟨⟨read', rest''⟩, titled, same'⟩ := Option.map_eq_some_iff.mp found
    simp only [Prod.mk.injEq] at same same'
    obtain ⟨rfl, rfl, rfl⟩ := same'
    obtain ⟨address, back, rfl⟩ := same
    exact ⟨d', behind, read', destination, titled, address, back⟩
  · rintro ⟨d, behind, read, destination, titled, rfl, rfl⟩
    simp [destination, titled]

/-! ## the title behind an address -/

/-- What is written behind an address. -/
def behindAddress (title : List Char) : List Char :=
  if title = [] then [')'] else ' ' :: '"' :: (title ++ ['"', ')'])

theorem targetPart_eq (target title : List Char) :
    targetPart target title = '(' :: (target ++ behindAddress title) := by
  unfold targetPart behindAddress
  cases title <;> simp

/-- Only white space is skipped. -/
theorem exists_skipped (s : List Char) :
    ∃ skipped, s = skipped ++ skipToNext s ∧ ∀ c ∈ skipped, c = ' ' ∨ c = '\t' ∨ c = '\n' := by
  have spaces (t : List Char) :
      ∀ c ∈ t.takeWhile isIndentSpace, c = ' ' ∨ c = '\t' ∨ c = '\n' := by
    intro c mem
    have space := List.all_eq_true.mp List.all_takeWhile c mem
    rw [isIndentSpace, Bool.or_eq_true, beq_iff_eq, beq_iff_eq] at space
    exact space.imp_right .inl
  have cut (t : List Char) := (List.takeWhile_append_dropWhile (p := isIndentSpace) (l := t)).symm
  unfold skipToNext
  split
  · next t newline =>
    refine ⟨s.takeWhile isIndentSpace ++ '\n' :: t.takeWhile isIndentSpace, ?_, ?_⟩
    · rw [List.append_assoc, List.cons_append, ← cut t, ← newline, ← cut s]
    · rw [List.forall_mem_append, List.forall_mem_cons]
      exact ⟨spaces s, .inr (.inr rfl), spaces t⟩
  · exact ⟨s.takeWhile isIndentSpace, cut s, spaces s⟩

/-- A title ends at the quote in front of the closing parenthesis, for no white space is there. -/
theorem eq_of_titleUntil? {title read rest : List Char}
    (h : titleUntil? '"' (title ++ ['"', ')']) = some (read, rest))
    (closing : skipToNext rest = [')']) : read = title ∧ rest = [')'] := by
  obtain ⟨skipped, cut, spaces⟩ := exists_skipped rest
  rw [closing] at cut
  have whole : title ++ ['"'] = read ++ '"' :: skipped := by
    have same : title ++ ['"'] ++ [')'] = read ++ '"' :: skipped ++ [')'] := by
      simpa [cut] using eq_append_of_titleUntil? h
    exact List.append_cancel_right same
  rcases List.eq_nil_or_concat skipped with rfl | ⟨before, c, rfl⟩
  · exact ⟨(List.append_cancel_right whole).symm, cut⟩
  · have last := congrArg List.getLast? whole
    obtain rfl : '"' = c := by simpa [List.getLast?_cons] using last
    exact absurd (spaces '"' (by simp)) (by decide)

/-- The title is read behind an address just if it is read up to that quote. -/
theorem titlePart?_behindAddress {title : List Char} {read : Option (List Char)} :
    titlePart? (behindAddress title) = some (read, []) ↔
      read = (if title = [] then none else some title) ∧
        titleUntil? '"' (title ++ ['"', ')']) = some (title, [')']) := by
  unfold behindAddress
  by_cases none : title = []
  · subst none
    have closed : titleUntil? '"' ['"', ')'] = some ([], [')']) := by decide
    simp [titlePart?, skipToNext, isIndentSpace, closed, eq_comm]
  · have next : skipToNext (' ' :: '"' :: (title ++ ['"', ')'])) =
        '"' :: (title ++ ['"', ')']) := by
      simp [skipToNext, isIndentSpace]
    have begins : title? ('"' :: (title ++ ['"', ')'])) = titleUntil? '"' (title ++ ['"', ')']) :=
      rfl
    rw [if_neg none, if_neg none]
    simp only [titlePart?, next, begins]
    rw [if_neg (by simp)]
    constructor
    · intro h
      cases closed : titleUntil? '"' (title ++ ['"', ')']) with
      | none => simp [closed, next] at h
      | some found =>
        obtain ⟨t, rest⟩ := found
        rw [closed] at h
        dsimp only at h
        split at h
        · next closing =>
          obtain ⟨rfl, rfl⟩ := Prod.mk.inj (Option.some.inj h)
          obtain ⟨rfl, rfl⟩ := eq_of_titleUntil? closed closing
          exact ⟨rfl, rfl⟩
        · contradiction
    · rintro ⟨rfl, closed⟩
      rw [closed]
      rfl

/-! ## the address -/

/-- A text that begins with no white space is not shortened. -/
theorem skipToNext_of_head {s : List Char} (h : ∀ c ∈ s.head?, 0x20 < c.toNat) :
    skipToNext s = s := by
  cases s with
  | nil => rfl
  | cons c s =>
    have printed := h c rfl
    have space : isIndentSpace c = false := by
      rw [isIndentSpace, Bool.or_eq_false_iff, beq_eq_false_iff_ne, beq_eq_false_iff_ne]
      constructor <;>
      · rintro rfl
        contradiction
    have line : c ≠ '\n' := by
      rintro rfl
      contradiction
    simp [skipToNext, space, line]

theorem destination?_of_head {s : List Char} (h : s.head? ≠ some '<') :
    destination? s = bareDestination 0 s := by
  unfold destination?
  split
  · exact absurd rfl h
  · rfl

/-- Can an address stand in angle brackets? -/
structure IsAngled (url : List Char) : Prop where
  literal : IsLiteral (url ++ ['>'])
  inside : ∀ c ∈ url, c ≠ '<' ∧ c ≠ '>' ∧ c ≠ '\n'

/-- Can an address stand without angle brackets before a character? -/
structure IsBare (behind : Char) (url : List Char) : Prop where
  literal : IsLiteral (url ++ [behind])
  printable : ∀ c ∈ url, 0x20 < c.toNat ∧ c.toNat ≠ 0x7F
  balanced : isBalanced 0 url = true
  unbracketed : url.head? ≠ some '<'
  filled : url = [] → behind = ')'

instance (url : List Char) : Decidable (IsAngled url) :=
  decidable_of_iff
    (IsLiteral (url ++ ['>']) ∧ (url.all fun c => c != '<' && c != '>' && c != '\n') = true)
    ⟨fun h => ⟨h.1, by simpa [and_assoc] using h.2⟩,
      fun h => ⟨h.literal, by simpa [and_assoc] using h.inside⟩⟩

instance (behind : Char) (url : List Char) : Decidable (IsBare behind url) :=
  decidable_of_iff
    (IsLiteral (url ++ [behind]) ∧
      (url.all fun c => decide (0x20 < c.toNat) && c.toNat != 0x7F) = true ∧
      isBalanced 0 url = true ∧ url.head? ≠ some '<' ∧ (url = [] → behind = ')'))
    ⟨fun h => ⟨h.1, by simpa using h.2.1, h.2.2.1, h.2.2.2.1, h.2.2.2.2⟩,
      fun h => ⟨h.literal, by simpa using h.printable, h.balanced, h.unbracketed, h.filled⟩⟩

section

variable {url d lead after rest w : List Char}

/-- A destination that is read as the address ends with it, or behind it. -/
theorem exists_extra (back : unescape d = url) (whole : url ++ w = lead ++ d ++ after) :
    ∃ extra, lead ++ d = url ++ extra ∧ w = extra ++ after := by
  have shorter := (unescape_sublist d).length_le
  rcases List.append_eq_append_iff.mp whole with ⟨extra, same, same'⟩ | ⟨extra, same, same'⟩
  · exact ⟨extra, same, same'⟩
  · have lengths := congrArg List.length same
    rw [back] at shorter
    rw [List.length_append, List.length_append] at lengths
    obtain rfl : extra = [] := List.length_eq_zero_iff.mp (by omega)
    exact ⟨[], by simpa using same.symm, by simpa using same'.symm⟩

/-- If it ends with it, it begins with it too. -/
theorem eq_of_lead_append (back : unescape d = url) (same : lead ++ d = url) :
    lead = [] ∧ d = url := by
  have shorter := (unescape_sublist d).length_le
  have lengths := congrArg List.length same
  rw [back] at shorter
  rw [List.length_append] at lengths
  obtain rfl : lead = [] := List.length_eq_zero_iff.mp (by omega)
  exact ⟨rfl, same⟩

/-- A character that is no backslash is read as often as it stands there. -/
theorem count_eq_of_extra {c : Char} (other : c ≠ '\\') (back : unescape d = url)
    {extra : List Char} (same : lead ++ d = url ++ extra) : lead.count c = extra.count c := by
  have equal := congrArg (List.count c) same
  rw [List.count_append, List.count_append, ← back, count_unescape other] at equal
  omega

/-- If it ends with a space behind it, it begins one later. -/
theorem eq_of_append_space (back : unescape d = url) (same : lead ++ d = url ++ [' ']) :
    lead = [' '] ∧ d = url := by
  have one := count_eq_of_extra (c := ' ') (by decide) back same
  have sublist := unescape_sublist d
  have lengths := congrArg List.length same
  rw [back] at sublist
  rw [List.length_append, List.length_append, List.length_singleton] at lengths
  have shorter := sublist.length_le
  have bound := List.count_le_length (a := ' ') (l := lead)
  rw [List.count_singleton_self] at one
  obtain ⟨c, rfl⟩ := List.length_eq_one_iff.mp (by omega : lead.length = 1)
  obtain rfl : c = ' ' := by simpa [List.count_singleton] using one
  exact ⟨rfl, (sublist.eq_of_length (by omega)).symm⟩

/-- An address that is read back from angle brackets has nothing in it that would end it early. -/
theorem isAngled_of_read (read : angleDestination? (url ++ '>' :: w) = some (d, rest))
    (back : unescape d = url) : IsAngled url ∧ rest = w := by
  have whole : url ++ '>' :: w = [] ++ d ++ '>' :: rest := eq_append_of_angleDestination? read
  obtain ⟨extra, same, behind⟩ := exists_extra back whole
  have none := count_eq_of_extra (c := '>') (by decide) back same
  cases extra with
  | cons c extra =>
    obtain ⟨rfl, -⟩ := List.cons.inj behind
    simp at none
  | nil =>
    obtain ⟨-, rfl⟩ := eq_of_lead_append back (same.trans (List.append_nil url))
    obtain ⟨-, rfl⟩ := List.cons.inj behind
    obtain ⟨literal, inside⟩ :=
      (angleDestination?_append (unescape_eq_self_iff.mp back) w).mp read
    exact ⟨⟨literal, inside⟩, rfl⟩

theorem IsAngled.read (h : IsAngled url) (w : List Char) :
    angleDestination? (url ++ '>' :: w) = some (url, w) :=
  (angleDestination?_append h.literal.of_append w).mpr ⟨h.literal, h.inside⟩

variable {b : Char} (ends : b = ')' ∧ w = [] ∨ b = ' ' ∧ w.head? = some '"')
include ends

theorem IsBare.read (h : IsBare b url) :
    destination? (skipToNext (url ++ b :: w)) = some (url, b :: w) := by
  have kept : skipToNext (url ++ b :: w) = url ++ b :: w := by
    apply skipToNext_of_head
    cases url with
    | nil => simp [h.filled rfl]
    | cons c url => simpa using (h.printable c List.mem_cons_self).1
  have bare : (url ++ b :: w).head? ≠ some '<' := by
    cases url with
    | nil => simp [h.filled rfl]
    | cons c url => exact h.unbracketed
  rw [kept, destination?_of_head bare]
  exact (bareDestination_append (by rcases ends with ⟨rfl, -⟩ | ⟨rfl, -⟩ <;> simp)
    h.literal.of_append 0 w).mpr ⟨h.literal, h.printable, h.balanced⟩

/-- The destination ends with the address.  Only a space that leads the text could move it, for the
text of an empty address begins with one. -/
theorem lead_cases (back : unescape d = url) (whole : url ++ b :: w = lead ++ d ++ after)
    (some : after ≠ []) (quote : '"' ∉ lead) :
    d = url ∧ (lead = [] ∧ after = b :: w ∨
      lead = [' '] ∧ after = w ∧ b = ' ' ∧ w.head? = .some '"') := by
  obtain ⟨extra, same, behind⟩ := exists_extra back whole
  cases extra with
  | nil =>
    obtain ⟨rfl, rfl⟩ := eq_of_lead_append back (same.trans (List.append_nil url))
    exact ⟨rfl, .inl ⟨rfl, behind.symm⟩⟩
  | cons c extra =>
    rw [List.cons_append, List.cons.injEq] at behind
    obtain ⟨rfl, rfl⟩ := behind
    cases extra with
    | cons e extra =>
      -- the title is not reached, for its first quote would be read
      have none := count_eq_of_extra (c := '"') (by decide) back same
      rw [List.count_eq_zero.mpr quote] at none
      rcases ends with ⟨-, nothing⟩ | ⟨-, first⟩
      · contradiction
      · obtain rfl : e = '"' := by simpa using first
        simp [List.count_cons] at none
        omega
    | nil =>
      obtain ⟨-, rfl⟩ | ⟨rfl, first⟩ := ends
      · contradiction
      · obtain ⟨rfl, rfl⟩ := eq_of_append_space back same
        exact ⟨rfl, .inr ⟨rfl, rfl, rfl, first⟩⟩

/-- Nor has one that is read back without them. -/
theorem isBare_of_read (read : destination? (skipToNext (url ++ b :: w)) = some (d, rest))
    (back : unescape d = url) (closed : rest ≠ []) : IsBare b url ∧ rest = b :: w := by
  obtain ⟨skipped, cut, spaces⟩ := exists_skipped (url ++ b :: w)
  have noQuote : '"' ∉ skipped := fun mem => absurd (spaces _ mem) (by decide)
  by_cases angled : (skipToNext (url ++ b :: w)).head? = some '<'
  · -- no address is read in brackets of its own: they would make it longer than it stands there
    obtain ⟨s, begins⟩ := List.head?_eq_some_iff.mp angled
    rw [begins, destination?] at read
    have whole : url ++ b :: w = (skipped ++ ['<']) ++ d ++ '>' :: rest := by
      rw [cut, begins, eq_append_of_angleDestination? read]
      simp
    obtain ⟨-, ⟨none, -⟩ | ⟨space, -⟩⟩ :=
      lead_cases ends back whole (by simp) (by simp [noQuote])
    · simp at none
    · have last := congrArg List.getLast? space
      simp at last
  · rw [destination?_of_head angled] at read
    have whole : url ++ b :: w = skipped ++ d ++ rest := by
      rw [List.append_assoc, ← eq_append_of_bareDestination read, ← cut]
    obtain ⟨rfl, ⟨rfl, rfl⟩ | ⟨rfl, rfl, rfl, first⟩⟩ := lead_cases ends back whole closed noQuote
    · rw [List.nil_append] at cut
      rw [← cut] at read angled
      obtain ⟨literal, printable, balanced⟩ := (bareDestination_append
        (by rcases ends with ⟨rfl, -⟩ | ⟨rfl, -⟩ <;> simp) (unescape_eq_self_iff.mp back) 0 w).mp read
      refine ⟨⟨literal, printable, balanced, ?_, ?_⟩, rfl⟩
      · rintro first
        obtain ⟨u, rfl⟩ := List.head?_eq_some_iff.mp first
        exact angled rfl
      · rintro rfl
        rcases ends with ⟨rfl, -⟩ | ⟨rfl, first⟩
        · rfl
        · obtain ⟨v, rfl⟩ := List.head?_eq_some_iff.mp first
          simp [skipToNext, isIndentSpace] at cut
    · -- the space is skipped only before an empty address, and the title is read in its place
      rw [eq_append_of_bareDestination read] at cut read
      obtain ⟨v, rfl⟩ := List.head?_eq_some_iff.mp first
      cases d with
      | nil =>
        have plain : ¬Escapes '"' v := escapes_of_ne (by decide)
        rw [List.nil_append, bareDestination_plain plain] at read
        simp at read
      | cons c d =>
        obtain rfl : c = ' ' := (List.cons.inj cut).1
        simp [bareDestination] at read

end

/-! ## targets as they are written -/

/-- The character behind an address that stands in front of a title. -/
def markBehind (title : List Char) : Char := if title = [] then ')' else ' '

theorem markBehind_quoted (title : List Char) : markBehind (quoted title) = markBehind title := by
  cases title with
  | nil => rfl
  | cons c s =>
    have filled : quoted (c :: s) ≠ [] := by
      by_cases quote : c = '"'
      · simp [quote, quoted_quote]
      · simp [quoted_cons quote]
    rw [markBehind, markBehind, if_neg filled, if_neg (by simp)]

theorem behindAddress_eq (title : List Char) :
    ∃ w, behindAddress title = markBehind title :: w ∧
      (markBehind title = ')' ∧ w = [] ∨ markBehind title = ' ' ∧ w.head? = some '"') := by
  unfold behindAddress markBehind
  split
  · exact ⟨[], rfl, .inl ⟨rfl, rfl⟩⟩
  · exact ⟨_, rfl, .inr ⟨rfl, rfl⟩⟩

/-- The two parts of a target are read back independently of each other. -/
theorem readTarget?_targetPart {P : Prop} {url target : List Char} (title written : List Char)
    (complete : P → destination? (skipToNext (target ++ behindAddress written)) =
      some (url, behindAddress written))
    (literal : P → IsLiteral url)
    (sound : ∀ d rest, destination? (skipToNext (target ++ behindAddress written)) =
      some (d, rest) → unescape d = url → rest ≠ [] → P ∧ rest = behindAddress written) :
    readTarget? (targetPart target written) = some (url, title, []) ↔
      P ∧ titleUntil? '"' (written ++ ['"', ')']) = some (written, [')']) ∧
        unescape written = title := by
  have text : (if written = [] then none else some written).getD [] = written := by
    split <;> simp_all
  rw [targetPart_eq, readTarget?_eq_some]
  constructor
  · rintro ⟨d, behind, read, destination, titled, address, back⟩
    have closed : behind ≠ [] := by
      rintro rfl
      contradiction
    obtain ⟨p, rfl⟩ := sound d behind destination address closed
    obtain ⟨rfl, ended⟩ := titlePart?_behindAddress.mp titled
    rw [text] at back
    exact ⟨p, ended, back⟩
  · rintro ⟨p, ended, back⟩
    exact ⟨url, _, _, complete p, titlePart?_behindAddress.mpr ⟨rfl, ended⟩,
      unescape_eq_self_iff.mpr (literal p), by rw [text, back]⟩

section

variable (url title written : List Char)

theorem readTarget?_bare :
    readTarget? (targetPart url written) = some (url, title, []) ↔
      IsBare (markBehind written) url ∧
        titleUntil? '"' (written ++ ['"', ')']) = some (written, [')']) ∧
          unescape written = title := by
  obtain ⟨w, behind, ends⟩ := behindAddress_eq written
  refine readTarget?_targetPart title written ?_ (fun h => h.literal.of_append) ?_ <;> rw [behind]
  · exact fun h => h.read ends
  · exact fun d rest read back closed => isBare_of_read ends read back closed

theorem readTarget?_angled :
    readTarget? (targetPart ('<' :: url ++ ['>']) written) = some (url, title, []) ↔
      IsAngled url ∧
        titleUntil? '"' (written ++ ['"', ')']) = some (written, [')']) ∧
          unescape written = title := by
  have begins : destination? (skipToNext ('<' :: url ++ ['>'] ++ behindAddress written)) =
      angleDestination? (url ++ '>' :: behindAddress written) := by
    simp [skipToNext, isIndentSpace, destination?]
  refine readTarget?_targetPart title written ?_ (fun h => h.literal.of_append) ?_ <;> rw [begins]
  · exact fun h => h.read _
  · exact fun d rest read back _ => isAngled_of_read read back

end

/-- **Targets as they are read back.**  What stands in the parentheses of a link or an image is read
to its end as the same address and title just if the address can stand there as it is, with a space
in it in the angle brackets that a link puts around it and else without, and no backslash of the
title is before punctuation, the closing quote included.  The title of an image has to be without
double quotes besides, for only a link puts backslashes before them. -/
theorem readTarget?_written (o : WritingOptions) (depth : Nat) (place : Place) (url : String)
    (title : Option String) :
    let u := url.toList
    let t := (title.getD "").toList
    (∀ kids, ∃ part,
      (write o depth place (.branch (.link url title) kids)).1 =
        '[' :: (writeAll o depth place kids).1.flatten ++ ']' :: part ∧
      (readTarget? part = some (u, t, []) ↔
        (if ' ' ∈ u then IsAngled u else IsBare (markBehind t) u) ∧ IsLiteral (t ++ ['"']))) ∧
    ∀ alt, ∃ part,
      writeLeaf o place (.image url alt title) =
        '!' :: '[' :: Text.replaceAll [']'] ['\\', ']']
          (Text.replaceAll ['['] ['\\', '['] alt.toList) ++ ']' :: part ∧
      (readTarget? part = some (u, t, []) ↔
        IsBare (markBehind t) u ∧ '"' ∉ t ∧ IsLiteral (t ++ ['"'])) := by
  intro u t
  constructor
  · intro kids
    refine ⟨targetPart (if u.contains ' ' then '<' :: u ++ ['>'] else u) (quoted t), ?_, ?_⟩
    · simp only [write, linkAround]
      rfl
    · rw [← titleUntil?_quoted t [')']]
      by_cases space : ' ' ∈ u
      · rw [if_pos (by simpa using space), if_pos space, readTarget?_angled]
      · rw [if_neg (by simpa using space), if_neg space, readTarget?_bare, markBehind_quoted]
  · intro alt
    refine ⟨targetPart u t, ?_, ?_⟩
    · rw [writeLeaf, image]
    · rw [readTarget?_bare, titleUntil?_append]

/-- The brackets that an address needs for its space are those of a link only. -/
example : IsAngled "a b".toList ∧ ¬IsBare ')' "a b".toList := by decide

/-- Nor does a link put brackets around an address with a parenthesis of its own. -/
example : ¬IsBare ')' "a(b".toList := by decide

/-- A quote in the title of an image closes it, and a backslash at the end of the title of a link
keeps it open. -/
theorem not_readTarget?_written :
    (.leaf (.image "u" "x" (some "a\"b")) ∈
        (ofTokens (tokenize {} "![x](u \"a\\\"b\")")).subtrees ∧
      writeLeaf {} {} (.image "u" "x" (some "a\"b")) = "![x](u \"a\"b\")".toList ∧
      readTarget? "(u \"a\"b\")".toList ≠ some (['u'], "a\"b".toList, [])) ∧
    .branch (.link "u" (some "a\\")) [Node.text "x"] ∈
        (ofTokens (tokenize {} "[x](u \"a\\\\\")")).subtrees ∧
      (write {} 0 {} (.branch (.link "u" (some "a\\")) [Node.text "x"])).1 =
        "[x](u \"a\\\")".toList ∧
      readTarget? "(u \"a\\\")".toList ≠ some (['u'], "a\\".toList, []) := by
  decide +kernel

end Docsite.Markdown
