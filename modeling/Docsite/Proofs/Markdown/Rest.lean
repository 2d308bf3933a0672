import Docsite.Markdown.Inline.Span
import Docsite.Markdown.RawHtml

/-!
# Docsite.Proofs.Markdown.Rest

What the readers of spans leave.

A reader gets the text from where its span may begin and answers with what follows the span.  That is
always the end of the text it got, whichever way the span went.
-/

namespace Docsite.Markdown

variable {s rest found : List Char}

/-! ## raw HTML -/

namespace RawHtml

theorem suffix_of_after? {word : String} (h : after? word s = some rest) : rest <:+ s := by
  induction s with
  | nil => contradiction
  | cons c cs ih =>
    rw [after?] at h
    split at h
    · obtain rfl := Option.some.inj h
      exact List.drop_suffix ..
    · exact (ih h).trans (List.suffix_cons ..)

theorem suffix_of_tagName? {name : List Char} (h : tagName? s = some (name, rest)) :
    rest <:+ s := by
  cases s with
  | nil => contradiction
  | cons c cs =>
    rw [tagName?] at h
    split at h
    · obtain ⟨-, rfl⟩ := Prod.mk.inj (Option.some.inj h)
      exact List.dropWhile_suffix ..
    · contradiction

theorem suffix_of_afterValue? (h : afterValue? s = some rest) : rest <:+ s := by
  unfold afterValue? at h
  split at h
  · exact (suffix_of_after? h).trans (List.suffix_cons ..)
  · exact (suffix_of_after? h).trans (List.suffix_cons ..)
  · split at h
    · obtain rfl := Option.some.inj h
      exact List.dropWhile_suffix ..
    · contradiction
  · contradiction

theorem suffix_of_afterAssignment? (h : afterAssignment? s = some rest) : rest <:+ s := by
  unfold afterAssignment? at h
  split at h
  · next cs sign =>
    have behind : cs <:+ s := (sign ▸ List.suffix_cons ..).trans (List.dropWhile_suffix isAsciiSpace)
    exact ((suffix_of_afterValue? h).trans (List.dropWhile_suffix ..)).trans behind
  · contradiction

theorem suffix_of_afterAttribute? (h : afterAttribute? s = some rest) : rest <:+ s := by
  unfold afterAttribute? at h
  split at h
  · next c cs name =>
    have behind : cs <:+ s := (name ▸ List.suffix_cons ..).trans (List.dropWhile_suffix isAsciiSpace)
    split at h
    · obtain rfl := Option.some.inj h
      have named := (List.dropWhile_suffix isAttributeChar).trans behind
      cases assigned : afterAssignment? (cs.dropWhile isAttributeChar) with
      | none => exact named
      | some rest => exact (suffix_of_afterAssignment? assigned).trans named
    · contradiction
  · contradiction

theorem afterAttributes_suffix (fuel : Nat) (s : List Char) : afterAttributes fuel s <:+ s := by
  induction fuel generalizing s with
  | zero => exact List.suffix_refl s
  | succ fuel ih =>
    rw [afterAttributes]
    split
    · next read => exact (ih _).trans (suffix_of_afterAttribute? read)
    · exact List.suffix_refl s

theorem suffix_of_afterOpeningTag? (h : afterOpeningTag? s = some rest) : rest <:+ s := by
  unfold afterOpeningTag? at h
  split at h
  · contradiction
  · next name behind named =>
    have attributes : (afterAttributes behind.length behind).dropWhile isAsciiSpace <:+ s :=
      ((List.dropWhile_suffix _).trans (afterAttributes_suffix ..)).trans (suffix_of_tagName? named)
    split at h
    · next closing =>
      obtain rfl := Option.some.inj h
      rw [closing] at attributes
      exact (List.suffix_cons ..).trans attributes
    · next closing =>
      obtain rfl := Option.some.inj h
      rw [closing] at attributes
      exact ((List.suffix_cons ..).trans (List.suffix_cons ..)).trans attributes
    · contradiction

theorem suffix_of_afterClosingTag? (h : afterClosingTag? s = some rest) : rest <:+ s := by
  unfold afterClosingTag? at h
  split at h
  · contradiction
  · next name behind named =>
    have spaces : behind.dropWhile isAsciiSpace <:+ s :=
      (List.dropWhile_suffix _).trans (suffix_of_tagName? named)
    split at h
    · next closing =>
      obtain rfl := Option.some.inj h
      rw [closing] at spaces
      exact (List.suffix_cons ..).trans spaces
    · contradiction

theorem suffix_of_afterComment? (h : afterComment? s = some rest) : rest <:+ s := by
  unfold afterComment? at h
  split at h
  · obtain rfl := Option.some.inj h
    exact List.suffix_cons ..
  · obtain rfl := Option.some.inj h
    exact (List.suffix_cons ..).trans (List.suffix_cons ..)
  · exact suffix_of_after? h

theorem suffix_of_afterPiece? (h : afterPiece? s = some rest) : rest <:+ s := by
  have behind (c : Char) {t : List Char} (read : rest <:+ t) : rest <:+ c :: t :=
    read.trans (List.suffix_cons ..)
  unfold afterPiece? at h
  split at h
  · exact behind _ (suffix_of_afterClosingTag? h)
  · exact behind _ (suffix_of_after? h)
  · exact behind _ (behind _ (behind _ (suffix_of_afterComment? h)))
  · exact (suffix_of_after? h).trans (List.suffix_append ['!', '[', 'C', 'D', 'A', 'T', 'A', '['] _)
  · split at h
    · exact behind _ (behind _ (suffix_of_after? h))
    · contradiction
  · exact suffix_of_afterOpeningTag? h

end RawHtml

/-! ## targets -/

theorem eq_append_of_angleDestination? (h : angleDestination? s = some (found, rest)) :
    s = found ++ '>' :: rest := by
  fun_induction angleDestination? s generalizing found with
  | case1 | case3 | case4 => contradiction
  | case2 cs =>
    obtain ⟨rfl, rfl⟩ := Prod.mk.inj (Option.some.inj h)
    rfl
  | case5 | case6 | case7 =>
    rename_i ih
    obtain ⟨⟨found', rest'⟩, read, same⟩ := Option.map_eq_some_iff.mp h
    obtain ⟨rfl, rfl⟩ := Prod.mk.inj same
    simpa using ih read

theorem eq_append_of_bareDestination {depth : Nat}
    (h : bareDestination depth s = some (found, rest)) : s = found ++ rest := by
  fun_induction bareDestination depth s generalizing found with
  | case1 | case5 =>
    obtain ⟨rfl, rfl⟩ := Prod.mk.inj (Option.some.inj h)
    rfl
  | case2 | case6 => contradiction
  | case3 | case4 | case7 =>
    rename_i ih
    obtain ⟨⟨found', rest'⟩, read, same⟩ := Option.map_eq_some_iff.mp h
    obtain ⟨rfl, rfl⟩ := Prod.mk.inj same
    simpa using ih read

theorem suffix_of_destination? (h : destination? s = some (found, rest)) : rest <:+ s := by
  unfold destination? at h
  split at h
  · rw [eq_append_of_angleDestination? h, ← List.cons_append, List.append_cons]
    exact List.suffix_append ..
  · rw [eq_append_of_bareDestination h]
    exact List.suffix_append ..

theorem eq_append_of_titleUntil? {close : Char} (h : titleUntil? close s = some (found, rest)) :
    s = found ++ close :: rest := by
  fun_induction titleUntil? close s generalizing found with
  | case1 | case5 => contradiction
  | case4 cs =>
    obtain ⟨rfl, rfl⟩ := Prod.mk.inj (Option.some.inj h)
    rfl
  | case2 | case3 | case6 =>
    rename_i ih
    obtain ⟨⟨found', rest'⟩, read, same⟩ := Option.map_eq_some_iff.mp h
    obtain ⟨rfl, rfl⟩ := Prod.mk.inj same
    simpa using ih read

theorem suffix_of_titleUntil? {close : Char} (h : titleUntil? close s = some (found, rest)) :
    rest <:+ s := by
  rw [eq_append_of_titleUntil? h, List.append_cons]
  exact List.suffix_append ..

theorem suffix_of_title? (h : title? s = some (found, rest)) : rest <:+ s := by
  unfold title? at h
  split at h
  · exact (suffix_of_titleUntil? h).trans (List.suffix_cons ..)
  · exact (suffix_of_titleUntil? h).trans (List.suffix_cons ..)
  · exact (suffix_of_titleUntil? h).trans (List.suffix_cons ..)
  · contradiction

theorem suffix_of_labelInside? {room : Nat} (h : labelInside? room s = some (found, rest)) :
    rest <:+ s := by
  suffices whole : s = found ++ ']' :: rest by
    rw [whole, List.append_cons]
    exact List.suffix_append ..
  fun_induction labelInside? room s generalizing found with
  | case1 | case3 | case4 | case7 => contradiction
  | case2 room cs =>
    obtain ⟨rfl, rfl⟩ := Prod.mk.inj (Option.some.inj h)
    rfl
  | case5 | case6 | case8 =>
    rename_i ih
    obtain ⟨⟨found', rest'⟩, read, same⟩ := Option.map_eq_some_iff.mp h
    obtain ⟨rfl, rfl⟩ := Prod.mk.inj same
    simpa using ih read

theorem skipToNext_suffix (s : List Char) : skipToNext s <:+ s := by
  have spaces : s.dropWhile isIndentSpace <:+ s := List.dropWhile_suffix ..
  unfold skipToNext
  split
  · next newline =>
    rw [newline] at spaces
    exact (List.dropWhile_suffix _).trans ((List.suffix_cons ..).trans spaces)
  · exact spaces

/-- What stands in parentheses has an address that is encoded. -/
theorem inlineTarget?_eq_some {target : Target} (h : inlineTarget? s = some (target, rest)) :
    (∃ destination, target.url = addressOf destination) ∧ rest <:+ s := by
  unfold inlineTarget? at h
  split at h
  · contradiction
  · next destination behind found =>
    have within : behind <:+ s := (suffix_of_destination? found).trans (skipToNext_suffix s)
    dsimp only at h
    -- with a title or without one, what is left is the end of what follows the destination
    generalize title : (if (skipToNext behind).length = behind.length then none
      else title? (skipToNext behind)) = read at h
    have closed {left : List Char} (part : left <:+ behind)
        (closing : skipToNext left = ')' :: rest) : rest <:+ s := by
      have inside := (skipToNext_suffix left).trans (part.trans within)
      rw [closing] at inside
      exact (List.suffix_cons ..).trans inside
    cases read with
    | none =>
      split at h
      · next closing =>
        obtain ⟨rfl, rfl⟩ := Prod.mk.inj (Option.some.inj h)
        exact ⟨⟨destination, rfl⟩, closed (List.suffix_refl _) closing⟩
      · contradiction
    | some read =>
      split at h
      · next closing =>
        obtain ⟨rfl, rfl⟩ := Prod.mk.inj (Option.some.inj h)
        have part : read.2 <:+ behind := by
          split at title
          · contradiction
          · exact (suffix_of_title? title).trans (skipToNext_suffix behind)
        exact ⟨⟨destination, rfl⟩, closed part closing⟩
      · contradiction

theorem target?_eq_some {ds : List Definition} {label : List Char} {target : Target}
    (h : target? ds label = some target) : ∃ d ∈ ds, d.target = target := by
  obtain ⟨d, found, same⟩ := Option.map_eq_some_iff.mp h
  exact ⟨d, List.mem_of_find?_eq_some found, same⟩

/-- What is named by a label is what a definition says. -/
theorem labelTarget?_eq_some {ds : List Definition} {inside : List Char} {target : Target}
    (h : labelTarget? ds inside s = some (target, rest)) :
    (∃ d ∈ ds, d.target = target) ∧ rest <:+ s := by
  have named {label rest' : List Char} (within : rest' <:+ s)
      (h : (target? ds label).map (fun target => (target, rest')) = some (target, rest)) :
      (∃ d ∈ ds, d.target = target) ∧ rest <:+ s := by
    obtain ⟨target', found, same⟩ := Option.map_eq_some_iff.mp h
    obtain ⟨rfl, rfl⟩ := Prod.mk.inj same
    exact ⟨target?_eq_some found, within⟩
  unfold labelTarget? at h
  extract_lets own at h
  have ownText {rest' : List Char} (within : rest' <:+ s)
      (h : own rest' = some (target, rest)) : (∃ d ∈ ds, d.target = target) ∧ rest <:+ s := by
    dsimp only [own] at h
    split at h
    · split at h
      · exact named within h
      · contradiction
    · contradiction
  split at h
  · next cs =>
    have behind {label rest' : List Char} (read : labelInside? 999 cs = some (label, rest')) :
        rest' <:+ '[' :: cs := (suffix_of_labelInside? read).trans (List.suffix_cons ..)
    split at h
    · next read => exact ownText (behind read) h
    · next read => exact named (behind read) h
    · exact ownText (List.suffix_refl _) h
  · exact ownText (List.suffix_refl _) h

/-- The address of a link is encoded, or it is that of a definition. -/
theorem linkTarget?_eq_some {ds : List Definition} {inside : List Char} {target : Target}
    (h : linkTarget? ds inside s = some (target, rest)) :
    ((∃ destination, target.url = addressOf destination) ∨ ∃ d ∈ ds, d.target = target) ∧
      rest <:+ s := by
  unfold linkTarget? at h
  split at h
  · split at h
    · next read =>
      obtain rfl := Option.some.inj h
      obtain ⟨encoded, behind⟩ := inlineTarget?_eq_some read
      exact ⟨.inl encoded, behind.trans (List.suffix_cons ..)⟩
    · obtain ⟨defined, behind⟩ := labelTarget?_eq_some h
      exact ⟨.inr defined, behind⟩
  · obtain ⟨defined, behind⟩ := labelTarget?_eq_some h
    exact ⟨.inr defined, behind⟩

/-! ## code and addresses -/

theorem untilBackticks?_eq_some {n run : Nat} {seen : List Char}
    (h : untilBackticks? n run seen s = some (found, rest)) :
    found <+: seen.reverse ++ s ∧ rest <:+ s := by
  have part (seen t : List Char) : (seen.drop n).reverse <+: seen.reverse ++ t :=
    (List.reverse_prefix.mpr (List.drop_suffix n seen)).trans (List.prefix_append ..)
  induction s generalizing run seen with
  | nil =>
    rw [untilBackticks?] at h
    split at h
    · obtain ⟨rfl, rfl⟩ := Prod.mk.inj (Option.some.inj h)
      exact ⟨part seen [], List.suffix_refl _⟩
    · contradiction
  | cons c cs ih =>
    have later {run : Nat} (h : untilBackticks? n run (c :: seen) cs = some (found, rest)) :
        found <+: seen.reverse ++ c :: cs ∧ rest <:+ c :: cs := by
      obtain ⟨before, behind⟩ := ih h
      rw [List.reverse_cons, List.append_assoc] at before
      exact ⟨before, behind.trans (List.suffix_cons ..)⟩
    rw [untilBackticks?] at h
    split at h
    · exact later h
    · split at h
      · obtain ⟨rfl, rfl⟩ := Prod.mk.inj (Option.some.inj h)
        exact ⟨part seen _, List.suffix_refl _⟩
      · exact later h

/-- The code of a span is the beginning of the text, and what follows it is its end. -/
theorem codeSpan?_eq_some {n : Nat} (h : codeSpan? n s = some (found, rest)) :
    ∃ code, code <+: s ∧ found = codeOf code ∧ rest <:+ s := by
  obtain ⟨⟨code, rest'⟩, is, same⟩ := Option.map_eq_some_iff.mp h
  obtain ⟨rfl, rfl⟩ := Prod.mk.inj same
  obtain ⟨before, behind⟩ := untilBackticks?_eq_some is
  exact ⟨code, by simpa using before, rfl, behind⟩

/-- The address in angle brackets is the beginning of the text, and its URL is encoded. -/
theorem autolink?_eq_some {url : String} (h : autolink? s = some (found, url, rest)) :
    found <+: s ∧ rest <:+ s ∧ ∃ address, url.toList = Unicode.percentEncode address ∨
      url.toList = "mailto:".toList ++ Unicode.percentEncode address := by
  unfold autolink? at h
  dsimp only at h
  split at h
  · next rest' closing =>
    have behind : rest' <:+ s := by
      have dropped := List.drop_suffix
        (s.takeWhile fun c => c != '<' && c != '>' && 0x20 < c.toNat).length s
      rw [closing] at dropped
      exact (List.suffix_cons ..).trans dropped
    split at h
    · obtain ⟨rfl, rest⟩ := Prod.mk.inj (Option.some.inj h)
      obtain ⟨rfl, rfl⟩ := Prod.mk.inj rest
      exact ⟨List.takeWhile_prefix _, behind, _, .inl (String.toList_ofList ..)⟩
    · split at h
      · obtain ⟨rfl, rest⟩ := Prod.mk.inj (Option.some.inj h)
        obtain ⟨rfl, rfl⟩ := Prod.mk.inj rest
        exact ⟨List.takeWhile_prefix _, behind, _, .inr (String.toList_ofList ..)⟩
      · contradiction
  · contradiction

end Docsite.Markdown
