import Docsite.Proofs.Markdown.Layout
import Docsite.Proofs.Markdown.Options
import Docsite.Proofs.Markdown.Reread
import Docsite.Proofs.Text.Lines
import Docsite.Proofs.Text.Search

/-!
# Docsite.Proofs.Markdown.Fences

Blocks of code, read back from what is written.

A fence is closed by the first line that has at least as many marks, with up to three spaces before
them and nothing but white space behind.  Code is written between fences of more marks than any run
inside has, so none of its lines closes the fence (`not_closedBy`), and the last line does.
-/

namespace Docsite.Markdown

open Document

/-! ## reading a block of code -/

/-- A block of code that begins a text: the info string behind its opening fence, the code, and the
lines behind its closing fence. -/
def fencedCode? (s : List Char) : Option (List Char × List Char × List (List Char)) :=
  match Text.lines (Text.normalizeNewlines s) with
  | [] => none
  | opening :: ls =>
    let line := Line.whole opening
    match if line.indent < 4 then fenceStart? line.indent line.content else none with
    | some (.fenced fence) =>
      let info := Text.trimWhile Line.isIndent (line.content.drop fence.length)
      let goesOn (l : List Char) : Bool := !fence.closedBy (.whole l)
      match ls.dropWhile goesOn with
      | [] => none
      | _ :: behind =>
        let code := (ls.takeWhile goesOn).map fun l => ((Line.whole l).skip fence.indent).rest
        some (info, terminated code, behind)
    | _ => none

/-- A text with a line feed at its end, unless it is empty. -/
def withFinalNewline (s : List Char) : List Char :=
  if s.isEmpty || s.getLast? == some '\n' then s else s ++ ['\n']

/-- May the text stand behind a fence?  It is in one line, with no white space around it and no mark
of the fence in it. -/
structure IsInfo (mark : Char) (s : List Char) : Prop where
  line : '\n' ∉ s
  carriage : '\r' ∉ s
  trimmed : Text.trim s = s
  unmarked : mark ∉ s

/-! ## lines of code -/

theorem infix_of_mem_lines {s l : List Char} (mem : l ∈ Text.lines s) : l <:+: s := by
  obtain ⟨before, after, cut⟩ := List.append_of_mem mem
  have whole := Text.unlines_lines s
  rw [cut, Text.unlines, intercalate_append_cons] at whole
  exact ⟨_, _, whole⟩

theorem terminated_lines (s : List Char) : terminated (Text.lines s) = s ++ ['\n'] := by
  induction s with
  | nil => rfl
  | cons c cs ih =>
    by_cases newline : c = '\n'
    · subst newline
      rw [Text.lines_newline, terminated, List.flatMap_cons, ← terminated, ih]
      rfl
    · obtain ⟨l, ls, cut, cut'⟩ := Text.lines_cons newline cs
      rw [cut, terminated, List.flatMap_cons] at ih
      rw [cut', terminated, List.flatMap_cons, List.cons_append, List.cons_append, ih]
      rfl

/-- Lines that are ended by line feeds stay lines, whatever follows. -/
theorem lines_terminated {ls : List (List Char)} (inLine : ∀ l ∈ ls, '\n' ∉ l) (t : List Char) :
    Text.lines (terminated ls ++ t) = ls ++ Text.lines t := by
  induction ls with
  | nil => rfl
  | cons l ls ih =>
    rw [List.forall_mem_cons] at inLine
    have first : terminated (l :: ls) ++ t = l ++ '\n' :: (terminated ls ++ t) := by
      simp [terminated]
    rw [first, Text.lines_append inLine.1, ih inLine.2, List.cons_append]

/-- Code with a line feed at its end is made of its lines. -/
theorem exists_terminated (s : List Char) :
    ∃ ls, withFinalNewline s = terminated ls ∧ ∀ l ∈ ls, '\n' ∉ l ∧ l <:+: s := by
  have lines {t : List Char} (part : t <:+: s) : ∀ l ∈ Text.lines t, '\n' ∉ l ∧ l <:+: s :=
    fun l mem => ⟨Text.newline_notMem_of_mem_lines mem, (infix_of_mem_lines mem).trans part⟩
  unfold withFinalNewline
  split
  · next ended =>
    rw [Bool.or_eq_true, List.isEmpty_iff, beq_iff_eq] at ended
    rcases ended with rfl | ended
    · exact ⟨[], rfl, nofun⟩
    · obtain ⟨t, rfl⟩ := List.getLast?_eq_some_iff.mp ended
      exact ⟨Text.lines t, (terminated_lines t).symm, lines (List.prefix_append ..).isInfix⟩
  · exact ⟨Text.lines s, (terminated_lines s).symm, lines (List.infix_refl s)⟩

/-! ## fences -/

namespace Fence

variable {f : Fence}

/-- A line without a run as long as the fence goes on with the code. -/
theorem not_closedBy {l : List Char} (short : ∀ k, List.replicate k f.mark <:+: l → k < f.length) :
    f.closedBy (.whole l) = false := by
  have run : (Line.whole l).content.takeWhile (· == f.mark) =
      List.replicate ((Line.whole l).content.takeWhile (· == f.mark)).length f.mark :=
    List.eq_replicate_iff.mpr ⟨rfl, fun c mem => by
      simpa using List.all_eq_true.mp List.all_takeWhile c mem⟩
  have found : (Line.whole l).content.takeWhile (· == f.mark) <:+: l :=
    (List.takeWhile_prefix _).isInfix.trans (List.dropWhile_suffix _).isInfix
  have fewer := short _ (run ▸ found)
  have less : ¬f.length ≤ ((Line.whole l).content.takeWhile (· == f.mark)).length := by omega
  simp [closedBy, less]

/-- Marks that are as many as those of the fence close it. -/
theorem closedBy_replicate (positive : 0 < f.length) (mark : Line.isIndent f.mark = false) :
    f.closedBy (.whole (List.replicate f.length f.mark)) = true := by
  obtain ⟨m, length⟩ := Nat.exists_eq_add_of_le' positive
  rw [length, List.replicate_succ, Line.whole, closedBy, content_mk mark, indent_mk mark,
    ← List.replicate_succ, ← length]
  simp

end Fence

/-- A line from which nothing is taken. -/
theorem skip_zero (l : List Char) : ((Line.whole l).skip 0).rest = l := by
  cases l <;> rfl

/-- No white space is trimmed off an info string. -/
theorem IsInfo.unindented {mark : Char} {info : List Char} (h : IsInfo mark info) :
    Text.trimWhile Line.isIndent info = info := by
  obtain ⟨first, last⟩ := Text.not_isBlank_of_trim h.trimmed
  exact Text.trimWhile_of_ends (fun c mem => isIndent_of_not_isBlank (first c mem))
    fun c mem => isIndent_of_not_isBlank (last c mem)

section

variable {mark : Char} (is : mark = '\x60' ∨ mark = '~') {n : Nat} (long : 3 ≤ n)
  {info : List Char} (h : IsInfo mark info)

include is in
theorem isIndent_fence : Line.isIndent mark = false := by
  rcases is with rfl | rfl <;> decide

include is long h

/-- A line of marks and an info string begins a block of code. -/
theorem fenceStart?_opening :
    fenceStart? 0 (List.replicate n mark ++ info) = some (.fenced ⟨mark, n, 0, unescape info⟩) := by
  have marks : (List.replicate n mark ++ info).takeWhile (· == mark) = List.replicate n mark := by
    have stop : info.takeWhile (· == mark) = [] := by
      cases info with
      | nil => rfl
      | cons c cs =>
        have other : c ≠ mark := by
          rintro rfl
          exact h.unmarked List.mem_cons_self
        simp [other]
    rw [List.takeWhile_append_of_pos (by simp), stop, List.append_nil]
  have behind : (List.replicate n mark ++ info).drop n = info := by simp
  have allowed : ((mark == '\x60' || mark == '~') && decide (3 ≤ n) &&
      !(mark == '\x60' && info.contains '\x60')) = true := by
    rcases is with rfl | rfl
    · simp [long, h.unmarked]
    · simp [long]
  obtain ⟨m, rfl⟩ := Nat.exists_eq_add_of_le' (Nat.one_le_of_lt long)
  rw [List.replicate_succ, List.cons_append] at marks behind ⊢
  rw [fenceStart?]
  simp only [marks, List.length_cons, List.length_replicate, behind, allowed, if_true]

/-- Where nothing is open, so does the reader of documents. -/
theorem start?_opening :
    start? .free (.whole (List.replicate n mark ++ info)) =
      some (.fenced ⟨mark, n, 0, unescape info⟩) := by
  have indent := isIndent_fence is
  have fence := fenceStart?_opening is long h
  obtain ⟨m, rfl⟩ := Nat.exists_eq_add_of_le' (Nat.one_le_of_lt long)
  rw [List.replicate_succ, List.cons_append] at fence ⊢
  have quote : quoteStart? ⟨0, mark :: (List.replicate m mark ++ info)⟩ = none := by
    rw [quoteStart?, unindented_mk indent]
    rcases is with rfl | rfl <;> rfl
  have heading : headingStart? (mark :: (List.replicate m mark ++ info)) = none := by
    rcases is with rfl | rfl <;> rfl
  rw [Line.whole, start?, indent_mk indent, content_mk indent, if_neg (by decide)]
  simp only [quote, heading, fence]

end

/-! ## code between fences -/

/-- Lines that can stand between fences of so many marks: no run in them is as long. -/
structure IsCode (mark : Char) (n : Nat) (ls : List (List Char)) : Prop where
  line : ∀ l ∈ ls, '\n' ∉ l
  carriage : ∀ l ∈ ls, '\r' ∉ l
  short : ∀ l ∈ ls, ∀ k, List.replicate k mark <:+: l → k < n

/-- A block of code: its opening fence, its lines and its closing fence. -/
def fenced (mark : Char) (n : Nat) (info : List Char) (ls : List (List Char)) : List Char :=
  List.replicate n mark ++ info ++ '\n' :: (terminated ls ++ List.replicate n mark)

theorem mem_terminated {c : Char} {ls : List (List Char)} (mem : c ∈ terminated ls) :
    c = '\n' ∨ ∃ l ∈ ls, c ∈ l := by
  obtain ⟨l, there, inside⟩ := List.mem_flatMap.mp mem
  rw [List.mem_append, List.mem_singleton] at inside
  exact inside.symm.imp_right fun inside => ⟨l, there, inside⟩

/-- Where a line leaves no paragraph open, no table begins. -/
theorem feedLines_cons {tables : Bool} {l : List Char} (ls : List (List Char)) {b : Body}
    (unheaded : headerPlace? (b.feed (.whole l)) = none) :
    feedLines tables (l :: ls) 0 0 b = feedLines tables ls 0 0 (b.feed (.whole l)) := by
  rw [feedLines]
  split
  · rfl
  · rw [unheaded]
    rfl
  · simp only [unheaded]

/-- The lines of the code are added to the open block. -/
theorem feedLines_code {mark : Char} {n : Nat} {ls : List (List Char)} (code : IsCode mark n ls)
    (tables : Bool) (info : List Char) (rest seen : List (List Char)) :
    feedLines tables (ls ++ rest) 0 0 ⟨[], false, false, .fenced ⟨mark, n, 0, info⟩ seen⟩ =
      feedLines tables rest 0 0
        ⟨[], false, false, .fenced ⟨mark, n, 0, info⟩ (ls.reverse ++ seen)⟩ := by
  have short := code.short
  clear code
  induction ls generalizing seen with
  | nil => rfl
  | cons l ls ih =>
    rw [List.forall_mem_cons] at short
    have fed : Body.feed ⟨[], false, false, .fenced ⟨mark, n, 0, info⟩ seen⟩ (.whole l) =
        ⟨[], false, false, .fenced ⟨mark, n, 0, info⟩ (l :: seen)⟩ := by
      rw [Body.feed, Open.feed, Fence.not_closedBy short.1, if_neg Bool.false_ne_true, skip_zero]
    rw [List.cons_append, feedLines_cons _ (by rw [fed]; rfl), fed, ih _ short.2,
      List.reverse_cons, List.append_assoc, List.singleton_append]

section

variable {mark : Char} (is : mark = '\x60' ∨ mark = '~') {n : Nat} (long : 3 ≤ n)
  {info : List Char} (h : IsInfo mark info) {ls : List (List Char)} (code : IsCode mark n ls)
include is h code

theorem return_notMem_fenced : '\r' ∉ fenced mark n info ls := by
  have other : mark ≠ '\r' := by rcases is with rfl | rfl <;> decide
  have inside : '\r' ∉ terminated ls := by
    intro mem
    rcases mem_terminated mem with same | ⟨l, there, mem⟩
    · contradiction
    · exact code.carriage l there mem
  simp [fenced, h.carriage, inside, Ne.symm other, List.mem_replicate]

theorem lines_fenced : Text.lines (fenced mark n info ls) =
    (List.replicate n mark ++ info) :: (ls ++ [List.replicate n mark]) := by
  have other : mark ≠ '\n' := by rcases is with rfl | rfl <;> decide
  have fence : '\n' ∉ List.replicate n mark := by simp [List.mem_replicate, Ne.symm other]
  rw [fenced, Text.lines_append (by simp [fence, h.line]), lines_terminated code.line,
    Text.lines_of_notMem fence]

include long

/-- A block of code has nothing around it. -/
theorem tidy_fenced :
    fenced mark n info ls ≠ [] ∧ tidy (fenced mark n info ls) = fenced mark n info ls := by
  obtain ⟨m, length⟩ := Nat.exists_eq_add_of_le' (Nat.one_le_of_lt long)
  have first : (fenced mark n info ls).head? = some mark := by
    simp [fenced, length, List.replicate_succ]
  have last : (fenced mark n info ls).getLast? = some mark := by
    rw [fenced, length, List.replicate_succ', ← List.append_assoc, ← List.cons_append,
      ← List.append_assoc, List.getLast?_concat]
  refine ⟨List.ne_nil_of_mem (List.mem_of_mem_head? first), tidy_of_ends ?_
    (return_notMem_fenced is h code) ?_⟩
  · rw [first]
    rcases is with rfl | rfl <;> simp
  · rw [last]
    rintro c ⟨rfl⟩
    rcases is with rfl | rfl <;> decide

/-- Code between fences is read from the first line to the last. -/
theorem fencedCode?_fenced :
    fencedCode? (fenced mark n info ls) = some (info, terminated ls, []) := by
  have indent := isIndent_fence is
  have opening := fenceStart?_opening is long h
  have goesOn : ∀ l ∈ ls, (!Fence.closedBy ⟨mark, n, 0, unescape info⟩ (.whole l)) = true :=
    fun l mem => by rw [Fence.not_closedBy (code.short l mem)]; rfl
  have closed := Fence.closedBy_replicate (f := ⟨mark, n, 0, unescape info⟩)
    (Nat.zero_lt_of_lt long) indent
  have start : (Line.whole (List.replicate n mark ++ info)).indent = 0 ∧
      (Line.whole (List.replicate n mark ++ info)).content = List.replicate n mark ++ info := by
    obtain ⟨m, rfl⟩ := Nat.exists_eq_add_of_le' (Nat.one_le_of_lt long)
    exact ⟨indent_mk indent _ _, content_mk indent _ _⟩
  have behind : (List.replicate n mark ++ info).drop n = info := by simp
  have unindented : (ls.map fun l => ((Line.whole l).skip 0).rest) = ls := by
    simp [skip_zero]
  rw [fencedCode?, Text.normalizeNewlines_of_notMem (return_notMem_fenced is h code),
    lines_fenced is h code]
  dsimp only
  rw [start.1, start.2, if_pos (by decide), opening]
  simp only [behind, h.unindented, List.dropWhile_append_of_pos goesOn,
    List.takeWhile_append_of_pos goesOn, closed, List.dropWhile_cons, List.takeWhile_cons,
    Bool.not_true, Bool.false_eq_true, if_false, List.append_nil, unindented]

/-- And it is the only block there. -/
theorem blocksOf_fenced (o : ReadingOptions) :
    blocksOf o (fenced mark n info ls) = [.code (unescape info) (terminated ls)] := by
  have closes := Fence.closedBy_replicate (f := ⟨mark, n, 0, unescape info⟩)
    (Nat.zero_lt_of_lt long) (isIndent_fence is)
  have filled : (Line.whole (List.replicate n mark ++ info)).isBlank = false := by
    obtain ⟨m, rfl⟩ := Nat.exists_eq_add_of_le' (Nat.one_le_of_lt long)
    rcases is with rfl | rfl <;> rfl
  have opened : ({} : Body).feed (.whole (List.replicate n mark ++ info)) =
      ⟨[], false, false, .fenced ⟨mark, n, 0, unescape info⟩ []⟩ := by
    simp [Body.feed, Open.feed, filled, Open.leave, Open.endsInParagraph,
      start?_opening is long h, Open.close, Body.begin, beginBlock, beginLeaf]
  have closed : Body.feed ⟨[], false, false, .fenced ⟨mark, n, 0, unescape info⟩ ls.reverse⟩
      (.whole (List.replicate n mark)) =
        ⟨[.code (unescape info) (terminated ls)], false, false, .nothing⟩ := by
    rw [Body.feed, Open.feed, closes, if_pos rfl, Open.close, List.reverse_reverse]
    rfl
  have cut : linesOf (fenced mark n info ls) =
      (List.replicate n mark ++ info) :: (ls ++ [List.replicate n mark]) := by
    have marks : List.replicate n mark ≠ [] := by
      rw [Ne, List.replicate_eq_nil_iff]
      omega
    have last : (Text.lines (fenced mark n info ls)).getLast? = some (List.replicate n mark) := by
      rw [lines_fenced is h code, ← List.cons_append, List.getLast?_concat]
    rw [linesOf, last, if_neg (by simpa using marks), lines_fenced is h code]
  rw [blocksOf, Text.normalizeNewlines_of_notMem (return_notMem_fenced is h code), cut,
    feedLines_cons _ (by rw [opened]; rfl), opened, feedLines_code code, List.append_nil,
    feedLines_cons _ (by rw [closed]; rfl), closed]
  rfl

end

/-! ## code as it is written -/

theorem isInfo_nil (mark : Char) : IsInfo mark [] := ⟨by simp, by simp, rfl, by simp⟩

/-- A block of code is written between fences that its lines do not close. -/
theorem exists_codeBlock {o : WritingOptions} (allowed : o.check = .ok o) {mark : Char}
    (fence : o.fence = .singleton mark) {content : List Char} (carriage : '\r' ∉ content)
    (language : Option String) :
    ∃ n ls, 3 ≤ n ∧ IsCode mark n ls ∧ withFinalNewline content = terminated ls ∧
      codeBlock o content language = fenced mark n (language.getD "").toList ls := by
  have least : 3 ≤ o.fenceMin := (WritingOptions.check_eq_ok_iff.mp allowed).2.fenceMin
  obtain ⟨ls, lines, each⟩ := exists_terminated content
  refine ⟨(max o.fenceMin (Text.longestRun [mark] content + 1)).toNat, ls, by omega,
    ⟨fun l mem => (each l mem).1, fun l mem inside => carriage ((each l mem).2.subset inside),
      fun l mem k run => ?_⟩, lines, ?_⟩
  · have bounded := Text.le_longestRun (run.trans (each l mem).2)
    omega
  · have marks : o.fence.toList = [mark] := by simp [fence]
    have ended : content ++ (if content.isEmpty || content.getLast? == some '\n' then [] else
        ['\n']) = terminated ls := by
      rw [← lines, withFinalNewline]
      split <;> simp
    simp only [codeBlock, fenced, marks, ← ended]
    simp

/-- **Blocks of code are read back.**  Whatever the code is, the block closes at its last line and
not before, the info string is the language, and the code is the same with a line feed at its end.
In a document, the block is the only one. -/
theorem fencedCode?_writeLeaf {o : WritingOptions} (allowed : o.check = .ok o) {mark : Char}
    (is : mark = '\x60' ∨ mark = '~') (fence : o.fence = .singleton mark) (place : Place)
    {content : String} (carriage : '\r' ∉ content.toList) {language : Option String}
    (info : ∀ l ∈ language, IsInfo mark l.toList) :
    fencedCode? (writeLeaf o place (.codeBlock content language)) =
        some ((language.getD "").toList, withFinalNewline content.toList, []) ∧
      ∀ reading : ReadingOptions,
        blocksOf reading (render o (.document [.leaf (.codeBlock content language)])).toList =
          [.code (unescape (language.getD "").toList) (withFinalNewline content.toList)] := by
  have behind : IsInfo mark (language.getD "").toList := by
    cases language with
    | none => exact isInfo_nil mark
    | some l => exact info l rfl
  obtain ⟨n, ls, long, code, lines, written⟩ := exists_codeBlock allowed fence carriage language
  have block (place : Place) : writeLeaf o place (.codeBlock content language) =
      fenced mark n (language.getD "").toList ls := by
    rw [writeLeaf, written]
  have document : (render o (.document [.leaf (.codeBlock content language)])).toList =
      fenced mark n (language.getD "").toList ls := by
    obtain ⟨marks, tidied⟩ := tidy_fenced is long behind code
    have alone : joinBlocks (spacing false) [fenced mark n (language.getD "").toList ls] =
        fenced mark n (language.getD "").toList ls := by
      simp [joinBlocks, marks]
    rw [render, String.toList_ofList]
    simp [write, writeAll, block, alone, tidied]
  rw [block, document, lines]
  exact ⟨fencedCode?_fenced is long behind code, blocksOf_fenced is long behind code⟩

/-- Code with a fence of four backticks in it, and no line feed at its end. -/
theorem fencedCode?_writeLeaf_fence :
    ({} : WritingOptions).check = .ok {} ∧ ('\x60' = '\x60' ∨ '\x60' = '~') ∧
      ({} : WritingOptions).fence = .singleton '\x60' ∧
      '\r' ∉ "  \x60\x60\x60\x60\nx".toList ∧
      (∀ l ∈ some "py", IsInfo '\x60' l.toList) ∧
      fencedCode? (writeLeaf {} {} (.codeBlock "  \x60\x60\x60\x60\nx" (some "py"))) =
        some ("py".toList, "  \x60\x60\x60\x60\nx\n".toList, []) := by
  have info : ∀ l ∈ some "py", IsInfo '\x60' l.toList := by
    rintro l ⟨rfl⟩
    exact ⟨by decide, by decide, by decide, by decide⟩
  have fence : ({} : WritingOptions).fence = .singleton '\x60' := by decide
  exact ⟨rfl, .inl rfl, fence, by decide, info,
    (fencedCode?_writeLeaf rfl (.inl rfl) fence {} (by decide) info).1⟩

end Docsite.Markdown
