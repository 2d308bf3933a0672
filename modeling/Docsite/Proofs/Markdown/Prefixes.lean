import Docsite.Proofs.Markdown.LineStarts
import Docsite.Proofs.Text.Lines
import Mathlib.Data.List.SplitBy

/-!
# Docsite.Proofs.Markdown.Prefixes

What containers put before the lines of their blocks, taken off again.

A quote marks all of its lines.  A list marks the first line of each item and puts as many spaces
before the others, but nothing where a line is empty.  So the lines that begin with anything but a
space are those with marks, and there is one for each item: a list can be cut into its items
(`itemLines_list`), and from each of them its mark can be taken off (`unmarked?_placeItem`).
-/

namespace Docsite.Markdown

open Document

/-! ## taking prefixes off -/

/-- A line of a quote without its mark. -/
def unquotedLine? : List Char → Option (List Char)
  | '>' :: ' ' :: l => some l
  | ['>'] => some []
  | _ => none

/-- A quote without the marks before its lines. -/
def unquoted? (s : List Char) : Option (List Char) :=
  ((Text.lines s).mapM unquotedLine?).map Text.unlines

/-- Does a line begin with anything but a space? -/
def beginsItem (l : List Char) : Bool := l.head?.any (· != ' ')

/-- The lines of a list, cut before each line that begins an item.  An empty text has no lines. -/
def itemLines (s : List Char) : List (List (List Char)) :=
  if s.isEmpty then [] else (Text.lines s).splitBy fun _ l => !beginsItem l

/-- The first line of an item without its mark, which may stand alone. -/
def unmarkedFirst? (mark l : List Char) : Option (List Char) :=
  if l = Text.trimEnd mark then some [] else mark.isPrefixOf? l

/-- A later line of an item without the spaces before it. -/
def unmarkedLater? (width : Nat) (l : List Char) : Option (List Char) :=
  if l.isEmpty then some [] else (List.replicate width ' ').isPrefixOf? l

/-- An item without its mark, from its lines. -/
def unmarked? (mark : List Char) : List (List Char) → Option (List Char)
  | [] => none
  | l :: ls =>
    match unmarkedFirst? mark l, ls.mapM (unmarkedLater? mark.length) with
    | some first, some later => some (Text.unlines (first :: later))
    | _, _ => none

/-- Lines that are changed one by one can be changed back. -/
theorem mapM_map {f : List Char → List Char} {back : List Char → Option (List Char)}
    (h : ∀ l, back (f l) = some l) (ls : List (List Char)) : (ls.map f).mapM back = some ls := by
  induction ls with
  | nil => rfl
  | cons l ls ih => simp [h, ih]

/-! ## quotes -/

theorem lines_quoteLines (s : List Char) :
    Text.lines (quoteLines s) = (Text.lines s).map (indentLater ['>', ' '] ['>']) := by
  obtain ⟨l, ls, cut⟩ := List.exists_cons_of_ne_nil (Text.lines_ne_nil s)
  have inLine : ∀ m ∈ (l :: ls).map (indentLater ['>', ' '] ['>']), '\n' ∉ m := by
    rw [List.forall_mem_map, ← cut]
    intro m mem
    unfold indentLater
    split
    · decide
    · simpa using Text.newline_notMem_of_mem_lines mem
  have same : quoteLines s = Text.unlines ((l :: ls).map (indentLater ['>', ' '] ['>'])) := by
    rw [quoteLines, indentLines, cut]
    rfl
  rw [same, Text.lines_unlines (by simp) inLine, cut]

/-- Marks of quotes can be taken off. -/
theorem unquoted?_quoteLines (s : List Char) : unquoted? (quoteLines s) = some s := by
  have back (l : List Char) : unquotedLine? (indentLater ['>', ' '] ['>'] l) = some l := by
    unfold indentLater
    split
    · next empty => rw [List.isEmpty_iff.mp empty]; rfl
    · rfl
  rw [unquoted?, lines_quoteLines, mapM_map back, Option.map_some, Text.unlines_lines]

/-! ## marks of items -/

/-- Is the text in one line, and does it begin with no white space? -/
structure MarksItem (mark : List Char) : Prop where
  first : ∃ c cs, mark = c :: cs ∧ Text.isBlank c = false
  line : '\n' ∉ mark

theorem isBlank_of_isDigit {c : Char} (digit : c.isDigit = true) : Text.isBlank c = false := by
  have bounds : 48 ≤ c.toNat ∧ c.toNat ≤ 57 := by
    simpa [Char.isDigit, UInt32.le_iff_toNat_le] using digit
  have other (n : Nat) (outside : n < 48 ∨ 57 < n) : (c.toNat == n) = false := by
    simp only [beq_eq_false_iff_ne]
    omega
  have low : ¬c.toNat ≤ 0x20 := by omega
  have wide : ¬0x2000 ≤ c.toNat := by omega
  have control : ¬c.toNat ≤ 0x0D := by omega
  simp [Text.isBlank, other, low, wide, control]

/-- A number begins with a digit or a sign. -/
theorem marksItem_toString (n : Int) : MarksItem (toString n).toList := by
  have inLine : '\n' ∉ (toString n).toList := fun mem => ((isMark_toString n).quiet _ mem).1 rfl
  refine ⟨?_, inLine⟩
  obtain ⟨c, cs, same⟩ := List.exists_cons_of_ne_nil (isMark_toString n).filled
  refine ⟨c, cs, same, ?_⟩
  rw [Int.toString_eq_repr, Int.repr_eq_if] at same
  split at same
  · rw [Nat.toList_repr] at same
    have inside : c ∈ Nat.toDigits 10 n.toNat := same ▸ List.mem_cons_self
    exact isBlank_of_isDigit (Nat.isDigit_of_mem_toDigits (by decide) (by decide) inside)
  · rw [String.toList_append] at same
    obtain ⟨rfl, -⟩ := List.cons.inj same
    decide

theorem marksItem_itemMark (ordered : Bool) (start : Int) {bullet : Char}
    (shown : Text.isBlank bullet = false) (position : Nat) :
    MarksItem (itemMark ordered start bullet position) := by
  unfold itemMark
  split
  · obtain ⟨⟨c, cs, same, visible⟩, line⟩ := marksItem_toString (start + position)
    refine ⟨⟨c, cs ++ ['.', ' '], by rw [same, List.cons_append], visible⟩, ?_⟩
    rw [List.mem_append, not_or]
    exact ⟨line, by decide⟩
  · refine ⟨⟨bullet, [' '], rfl, shown⟩, ?_⟩
    have newline : bullet ≠ '\n' := by
      rintro rfl
      contradiction
    simp [Ne.symm newline]

theorem isBlank_bulletAt {o : WritingOptions}
    (shown : ∀ c ∈ o.bullets.toList, Text.isBlank c = false) (depth : Nat) :
    Text.isBlank (bulletAt o depth) = false := by
  unfold bulletAt
  cases at_ : o.bullets.toList[depth % o.bullets.length]? with
  | none => decide
  | some c => exact shown c (List.mem_of_getElem? at_)

/-! ## the lines of an item -/

/-- Does the first line begin an item, and no other? -/
def IsItem (ls : List (List Char)) : Prop :=
  ∃ first later, ls = first :: later ∧ beginsItem first = true ∧
    ∀ l ∈ later, beginsItem l = false

section

variable {mark : List Char} (h : MarksItem mark)
include h

/-- White space at the end of a mark does not reach its beginning. -/
theorem exists_trimEnd :
    ∃ c cs, mark = c :: cs ∧ Text.trimEnd mark = c :: Text.trimEnd cs ∧ c ≠ ' ' := by
  obtain ⟨c, cs, rfl, visible⟩ := h.first
  refine ⟨c, cs, rfl, Text.dropEndWhile_cons visible cs, ?_⟩
  rintro rfl
  contradiction

theorem lines_placeItem {body l : List Char} {ls : List (List Char)}
    (cut : Text.lines body = l :: ls) :
    Text.lines (placeItem mark body) = (if l.isEmpty then Text.trimEnd mark else mark ++ l) ::
      ls.map (indentLater (List.replicate mark.length ' ') []) := by
  have inLine : ∀ m ∈ l :: ls, '\n' ∉ m := fun m mem =>
    Text.newline_notMem_of_mem_lines (cut ▸ mem)
  rw [List.forall_mem_cons] at inLine
  rw [placeItem, indentLines, cut, Text.lines_unlines (by simp)]
  rw [List.forall_mem_cons, List.forall_mem_map]
  constructor
  · split
    · exact fun mem => h.line ((Text.dropEndWhile_prefix _ _).subset mem)
    · simp [h.line, inLine.1]
  · intro m mem
    unfold indentLater
    split
    · exact List.not_mem_nil
    · simp [inLine.2 m mem]

/-- Only the first line of an item begins with anything but a space. -/
theorem isItem_placeItem (body : List Char) (n : Nat) :
    IsItem (Text.lines (placeItem mark body) ++ List.replicate n []) := by
  obtain ⟨l, ls, cut⟩ := List.exists_cons_of_ne_nil (Text.lines_ne_nil body)
  obtain ⟨c, cs, same, trimmed, visible⟩ := exists_trimEnd h
  rw [lines_placeItem h cut, List.cons_append]
  refine ⟨_, _, rfl, ?_, ?_⟩
  · split
    · simp [beginsItem, trimmed, visible]
    · simp [beginsItem, same, visible]
  · rw [List.forall_mem_append, List.forall_mem_map]
    constructor
    · intro m _
      unfold indentLater
      split
      · rfl
      · rw [same]
        rfl
    · intro l mem
      rw [List.eq_of_mem_replicate mem]
      rfl

/-- The mark of an item can be taken off. -/
theorem unmarked?_placeItem (body : List Char) (n : Nat) :
    unmarked? mark (Text.lines (placeItem mark body) ++ List.replicate n []) =
      some (body ++ List.replicate n '\n') := by
  obtain ⟨l, ls, cut⟩ := List.exists_cons_of_ne_nil (Text.lines_ne_nil body)
  have first : unmarkedFirst? mark (if l.isEmpty then Text.trimEnd mark else mark ++ l) =
      some l := by
    split
    · next empty => rw [unmarkedFirst?, if_pos rfl, List.isEmpty_iff.mp empty]
    · next filled =>
      have longer : mark ++ l ≠ Text.trimEnd mark := by
        intro is
        have short := (Text.dropEndWhile_prefix Text.isBlank mark).length_le
        rw [← Text.trimEnd, ← is, List.length_append] at short
        exact filled (by simpa using Nat.eq_zero_of_add_eq_zero_left (show 0 + l.length = 0 by omega))
      rw [unmarkedFirst?, if_neg longer, List.isPrefixOf?_eq_some_iff_append_eq]
  have back (m : List Char) : unmarkedLater? mark.length
      (indentLater (List.replicate mark.length ' ') [] m) = some m := by
    unfold indentLater
    split
    · next empty => rw [List.isEmpty_iff.mp empty]; rfl
    · next filled =>
      rw [unmarkedLater?, if_neg (by simp_all), List.isPrefixOf?_eq_some_iff_append_eq]
  have later : (ls.map (indentLater (List.replicate mark.length ' ') []) ++
      List.replicate n []).mapM (unmarkedLater? mark.length) =
        some (ls ++ List.replicate n []) := by
    rw [← mapM_map back, List.map_append, List.map_replicate]
    rfl
  rw [lines_placeItem h cut, List.cons_append, unmarked?, first, later]
  have whole := Text.unlines_lines body
  rw [cut, Text.unlines_cons] at whole
  simp [Text.unlines_cons, List.flatMap_replicate, ← whole]

end

/-! ## the items of a list -/

/-- The empty lines behind an item of a list: one if the list is loose, but none behind its last
item. -/
def gap (tight last : Bool) : Nat := if tight || last then 0 else 1

/-- The lines of texts that a list puts together. -/
def spacedLines (tight : Bool) : List (List Char) → List (List (List Char))
  | [] => []
  | t :: ts => (Text.lines t ++ List.replicate (gap tight ts.isEmpty) []) :: spacedLines tight ts

theorem length_spacedLines (tight : Bool) (ts : List (List Char)) :
    (spacedLines tight ts).length = ts.length := by
  induction ts with
  | nil => rfl
  | cons t ts ih => rw [spacedLines, List.length_cons, ih, List.length_cons]

theorem lines_intercalate_spacing (tight : Bool) (t : List Char) (ts : List (List Char)) :
    Text.lines ((spacing tight).intercalate (t :: ts)) = (spacedLines tight (t :: ts)).flatten := by
  induction ts generalizing t with
  | nil => simp [spacedLines, gap]
  | cons u us ih =>
    have between (rest : List Char) : Text.lines (t ++ (spacing tight ++ rest)) =
        Text.lines t ++ List.replicate (gap tight false) [] ++ Text.lines rest := by
      cases tight
      · show Text.lines (t ++ '\n' :: '\n' :: rest) = _
        rw [Text.lines_append_newline, Text.lines_newline]
        simp [gap]
      · show Text.lines (t ++ '\n' :: rest) = _
        rw [Text.lines_append_newline]
        simp [gap]
    rw [List.intercalate_cons_cons, List.append_assoc, between, ih, spacedLines, List.flatten_cons]
    rfl

/-- Where only the first lines of items begin with anything but a space, lines can be cut into
items. -/
theorem splitBy_items {gs : List (List (List Char))} (h : ∀ g ∈ gs, IsItem g) :
    gs.flatten.splitBy (fun _ l => !beginsItem l) = gs := by
  apply List.splitBy_flatten
  · intro mem
    obtain ⟨first, later, same, -⟩ := h [] mem
    contradiction
  · intro g mem
    obtain ⟨first, later, rfl, -, others⟩ := h g mem
    have unbegun : ∀ l ∈ later, (!beginsItem l) = true := fun l mem => by rw [others l mem]; rfl
    exact (List.pairwise_cons.mpr
      ⟨unbegun, List.pairwise_of_forall_mem_list fun _ _ => unbegun⟩).isChain
  · refine (List.pairwise_of_forall_mem_list fun g mem g' mem' => ?_).isChain
    obtain ⟨first, later, rfl, -⟩ := h g mem
    obtain ⟨first', later', rfl, begins, -⟩ := h g' mem'
    exact ⟨List.cons_ne_nil _ _, List.cons_ne_nil _ _, by rw [List.head_cons, begins]; rfl⟩

section

variable (ordered : Bool) (start : Int) {bullet : Char} (shown : Text.isBlank bullet = false)
  (tight : Bool) (position : Nat) (bodies : List (List Char))

include shown in
theorem isItem_of_mem_spacedLines :
    ∀ g ∈ spacedLines tight (placeItems ordered start bullet position bodies), IsItem g := by
  induction bodies generalizing position with
  | nil => nofun
  | cons body bodies ih =>
    rw [placeItems, spacedLines, List.forall_mem_cons]
    exact ⟨isItem_placeItem (marksItem_itemMark ordered start shown position) _ _, ih _⟩

include shown in
/-- The lines of a list are cut into its items. -/
theorem itemLines_list :
    itemLines ((spacing tight).intercalate (placeItems ordered start bullet position bodies)) =
      spacedLines tight (placeItems ordered start bullet position bodies) := by
  cases bodies with
  | nil => rfl
  | cons body bodies =>
    have items := isItem_of_mem_spacedLines ordered start shown tight position (body :: bodies)
    rw [placeItems] at items ⊢
    have cut := lines_intercalate_spacing tight
      (placeItem (itemMark ordered start bullet position) body)
      (placeItems ordered start bullet (position + 1) bodies)
    have filled : (spacing tight).intercalate
        (placeItem (itemMark ordered start bullet position) body ::
          placeItems ordered start bullet (position + 1) bodies) ≠ [] := by
      intro empty
      rw [spacedLines, List.forall_mem_cons] at items
      obtain ⟨⟨first, later, same, begins, -⟩, -⟩ := items
      rw [empty, Text.lines_nil, spacedLines, List.flatten_cons, same] at cut
      obtain rfl := (List.cons.inj cut).1
      contradiction
    rw [itemLines, if_neg (by simpa using filled), cut, splitBy_items items]

theorem length_placeItems :
    (placeItems ordered start bullet position bodies).length = bodies.length := by
  induction bodies generalizing position with
  | nil => rfl
  | cons body bodies ih => rw [placeItems, List.length_cons, ih, List.length_cons]

variable {bodies}

/-- Each item of a list is given back by what is cut out for it. -/
theorem unmarked?_spacedLines (shown : Text.isBlank bullet = false) {i : Nat} {body : List Char}
    (at_ : bodies[i]? = some body) :
    ∃ g, (spacedLines tight (placeItems ordered start bullet position bodies))[i]? = some g ∧
      unmarked? (itemMark ordered start bullet (position + i)) g =
        some (body ++ List.replicate (gap tight (i + 1 == bodies.length)) '\n') := by
  induction bodies generalizing position i with
  | nil => contradiction
  | cons b bs ih =>
    rw [placeItems, spacedLines]
    cases i with
    | zero =>
      obtain rfl : b = body := by simpa using at_
      refine ⟨_, rfl, ?_⟩
      rw [Nat.add_zero, unmarked?_placeItem (marksItem_itemMark ordered start shown position)]
      cases bs <;> rfl
    | succ i =>
      obtain ⟨g, there, read⟩ := ih (position + 1) (by simpa using at_)
      refine ⟨g, there, ?_⟩
      have same : position + 1 + i = position + (i + 1) := by omega
      rw [← same, read]
      simp

end

/-! ## containers -/

section

variable (o : WritingOptions) (depth : Nat) (place : Place) (tight : Bool)

/-- An item is written before those behind it, and leaves them the place that they stand at. -/
theorem writeItems_cons (n : Node) (ns : List Node) :
    let first := writeItems o depth place tight [n]
    let others := writeItems o depth first.2 tight ns
    writeItems o depth place tight (n :: ns) = (first.1 ++ others.1, others.2) ∧
      first.1.length = 1 := by
  cases n with
  | leaf l => constructor <;> rfl
  | branch b kids => cases b <;> constructor <;> rfl

theorem length_writeItems (ns : List Node) :
    (writeItems o depth place tight ns).1.length = ns.length := by
  induction ns generalizing place with
  | nil => rfl
  | cons n ns ih =>
    obtain ⟨same, one⟩ := writeItems_cons o depth place tight n ns
    rw [same, List.length_append, one, ih, List.length_cons, Nat.add_comm]

/-- What an item holds is written at the place that the items before it leave. -/
theorem getElem?_writeItems {ns : List Node} {i : Nat} {task : Option TaskStatus}
    {kids : List Node} (at_ : ns[i]? = some (.branch (.item task) kids)) :
    (writeItems o depth place tight ns).1[i]? = some (taskBox task ++ joinBlocks (spacing tight)
      (writeAll o depth (writeItems o depth place tight (ns.take i)).2 kids).1) := by
  induction ns generalizing place i with
  | nil => contradiction
  | cons n ns ih =>
    cases i with
    | zero =>
      obtain rfl : n = .branch (.item task) kids := by simpa using at_
      rfl
    | succ i =>
      obtain ⟨same, one⟩ := writeItems_cons o depth place tight n ns
      rw [same, List.getElem?_append_right (by omega), one, Nat.add_sub_cancel,
        ih _ (by simpa using at_), List.take_succ_cons,
        (writeItems_cons o depth place tight n (ns.take i)).1]

end

/-- **What containers put before lines can be taken off.**  A quote without its marks is what its
blocks are written as.  The lines of a list, cut before each line that begins with anything but a
space, are one group for each item, in order; and a group without the mark of its item is what the
item is written as, with an empty line behind it if the list is loose and goes on. -/
theorem prefixes_taken_off (o : WritingOptions)
    (shown : ∀ c ∈ o.bullets.toList, Text.isBlank c = false) (depth : Nat) (place : Place)
    (kids : List Node) :
    unquoted? (write o depth place (.branch .quote kids)).1 =
        some (joinBlocks (spacing false) (writeAll o depth place kids).1) ∧
      ∀ (ordered : Bool) (start : Int) (tight : Bool),
        let groups := itemLines (write o depth place (.branch (.list ordered start tight) kids)).1
        groups.length = kids.length ∧
          ∀ i task blocks, kids[i]? = some (.branch (.item task) blocks) →
            let before := (writeItems o (depth + 1) place tight (kids.take i)).2
            let body := taskBox task ++
              joinBlocks (spacing tight) (writeAll o (depth + 1) before blocks).1
            ∃ g, groups[i]? = some g ∧
              unmarked? (itemMark ordered start (bulletAt o depth) i) g =
                some (body ++ List.replicate (gap tight (i + 1 == kids.length)) '\n') := by
  refine ⟨by rw [write]; exact unquoted?_quoteLines _, fun ordered start tight => ?_⟩
  have bullet := isBlank_bulletAt shown depth
  have groups : itemLines (write o depth place (.branch (.list ordered start tight) kids)).1 =
      spacedLines tight (placeItems ordered start (bulletAt o depth) 0
        (writeItems o (depth + 1) place tight kids).1) := by
    rw [write]
    exact itemLines_list ordered start bullet tight 0 _
  rw [groups]
  constructor
  · rw [length_spacedLines, length_placeItems, length_writeItems]
  · intro i task blocks at_
    have body := getElem?_writeItems o (depth + 1) place tight at_
    obtain ⟨g, there, read⟩ := unmarked?_spacedLines ordered start tight 0 bullet body
    rw [length_writeItems, Nat.zero_add] at read
    exact ⟨g, there, read⟩

/-- A loose list whose marks grow from three characters to four, with code in its first item. -/
theorem prefixes_taken_off_numbered :
    let items := [.branch (.item (some .checked)) [.leaf (.codeBlock "a\n\n  b" none)],
      .branch (.item none) [.branch .quote [Node.paragraph [Node.text "c\nd"]]]]
    let written := (write {} 0 {} (.branch (.list true 9 false) items)).1
    (∀ c ∈ ({} : WritingOptions).bullets.toList, Text.isBlank c = false) ∧
      written = "9. [x] \x60\x60\x60\n   a\n\n     b\n   \x60\x60\x60\n\n10. > c\n    > d".toList ∧
      (∃ g, (itemLines written)[0]? = some g ∧ unmarked? "9. ".toList g =
        some "[x] \x60\x60\x60\na\n\n  b\n\x60\x60\x60\n".toList) ∧
      ∃ g, (itemLines written)[1]? = some g ∧ unmarked? "10. ".toList g =
        some "> c\n> d".toList := by
  intro items written
  have shown : ∀ c ∈ ({} : WritingOptions).bullets.toList, Text.isBlank c = false :=
    List.forall_mem_singleton.mpr (by decide)
  have each := ((prefixes_taken_off {} shown 0 {} items).2 true 9 false).2
  refine ⟨shown, by decide +kernel, ?_, ?_⟩
  · obtain ⟨g, there, read⟩ := each 0 _ _ rfl
    exact ⟨g, there, read.trans (by decide +kernel)⟩
  · obtain ⟨g, there, read⟩ := each 1 _ _ rfl
    exact ⟨g, there, read.trans (by decide +kernel)⟩

end Docsite.Markdown
