import Docsite.Proofs.Markdown.TableLines
import Docsite.Proofs.Text.Search

/-!
# Docsite.Proofs.Markdown.TableCells

What inline nodes write in the cell of a table.

Text that is escaped stays in its cell, and code, raw HTML and URLs stay if they do so by themselves
(`Settled`).  What is left are the titles of links and images and the descriptions of images, and
text that is not escaped: they are written as they are (`exposed`).  If each of them stays in its
cell, so does the node, and where text is escaped, only then (`write_settled`).
-/

namespace Docsite.Markdown

open Document Docsite.Tree

variable {s t : List Char} {c : Char}

theorem StaysInCell.append (hs : StaysInCell s) (ht : StaysInCell t) : StaysInCell (s ++ t) :=
  (staysInCell_append (staysInCell_iff.mp ht).2).mpr ⟨hs, ht⟩

/-! ## text -/

/-- Where every pipe is escaped there is none to cut at. -/
theorem openPipes_flatMap_backslashed {marked : List (Char × Bool)}
    (guarded : ('|', false) ∉ marked) (before : Char) :
    openPipes before (marked.flatMap backslashed) = 0 := by
  induction marked generalizing before with
  | nil => rfl
  | cons p ps ih =>
    obtain ⟨c, escaped⟩ := p
    rw [List.mem_cons, not_or] at guarded
    rw [List.flatMap_cons]
    cases escaped with
    | true =>
      show openPipes before ('\\' :: c :: ps.flatMap backslashed) = 0
      rw [openPipes, openPipes, ih guarded.2]
      simp
    | false =>
      have other : c ≠ '|' := by
        rintro rfl
        exact guarded.1 rfl
      show openPipes before (c :: ps.flatMap backslashed) = 0
      rw [openPipes, ih guarded.2]
      simp [other]

/-- In a cell, escaped text stays. -/
theorem staysInCell_escape {place : Place} (inCell : place.inCell = true) (line : '\n' ∉ s) :
    StaysInCell (escape place s) := by
  refine staysInCell_iff_openPipes.mpr ⟨mt (mem_of_mem_escape (by decide)) line, ?_⟩
  · rw [escape, escapeFrom_eq_flatMap]
    apply openPipes_flatMap_backslashed
    intro mem
    obtain ⟨before, mark, next, plain⟩ := exists_of_mem_markedFrom mem
    simp [isEscaped, inCell] at plain

/-! ## marks around text -/

/-- Backslashes before a mark other than a pipe change nothing. -/
theorem staysInCell_replaceAll (line : c ≠ '\n') (pipe : c ≠ '|') :
    StaysInCell (Text.replaceAll [c] ['\\', c] s) ↔ StaysInCell s := by
  have newline : '\n' ∈ Text.replaceAll [c] ['\\', c] s ↔ '\n' ∈ s := by
    rw [Text.replaceAll_singleton]
    clear * - line
    induction s with
    | nil => rfl
    | cons d ds ih =>
      rw [List.flatMap_cons, List.mem_append, ih, List.mem_cons]
      by_cases same : d = c
      · simp [same, Ne.symm line]
      · simp [same]
  have uncut (before : Char) : openPipes before (Text.replaceAll [c] ['\\', c] s) =
      openPipes before s := by
    rw [Text.replaceAll_singleton]
    clear newline
    induction s generalizing before with
    | nil => rfl
    | cons d ds ih =>
      rw [List.flatMap_cons]
      by_cases same : d = c
      · subst same
        simp [openPipes, ih, pipe]
      · simp [openPipes, ih, same]
  rw [staysInCell_iff_openPipes, staysInCell_iff_openPipes, newline, uncut]

theorem staysInCell_inlineCode (stays : StaysInCell s) : StaysInCell (inlineCode s) := by
  have ticks (n : Nat) : StaysInCell (List.replicate n '\x60') :=
    staysInCell_of_notMem (by simp [List.mem_replicate]) (by simp [List.mem_replicate])
  have pad (b : Bool) : StaysInCell (if b then [' '] else []) := by
    cases b <;> decide
  exact ((((ticks _).append (pad _)).append stays).append (pad _)).append (ticks _)

/-- What stands in parentheses behind a link stays just if the title does. -/
theorem staysInCell_targetPart {target : List Char} (stays : StaysInCell target)
    (title : List Char) : StaysInCell (targetPart target title) ↔ StaysInCell title := by
  have opened : StaysInCell ('(' :: target) :=
    (staysInCell_cons (by decide) (by decide) (by decide)).mpr stays
  rw [targetPart]
  split
  · next empty =>
    rw [List.isEmpty_iff.mp empty, iff_true_right staysInCell_nil]
    exact opened.append (by decide)
  · rw [staysInCell_append (by decide), staysInCell_append (by simp), and_iff_right opened,
      and_iff_left (by decide), staysInCell_cons (by decide) (by decide) (by decide),
      staysInCell_cons (by decide) (by decide) (by decide)]

/-- A link around text stays just if the text and the title do. -/
theorem staysInCell_linkAround {url : String} (stays : StaysInCell url.toList)
    (content : List Char) (title : Option String) :
    StaysInCell (linkAround content url title) ↔
      StaysInCell content ∧ StaysInCell (title.getD "").toList := by
  have target : StaysInCell
      (if url.toList.contains ' ' then '<' :: url.toList ++ ['>'] else url.toList) := by
    split
    · exact ((staysInCell_cons (by decide) (by decide) (by decide)).mpr stays).append (by decide)
    · exact stays
  rw [linkAround, staysInCell_append (by simp), staysInCell_cons (by decide) (by decide) (by decide),
    staysInCell_cons (by decide) (by decide) (by decide), staysInCell_targetPart target,
    staysInCell_replaceAll (by decide) (by decide)]

/-- An image stays just if its description and its title do. -/
theorem staysInCell_image {url : String} (stays : StaysInCell url.toList) (alt : String)
    (title : Option String) : StaysInCell (image url alt title) ↔
      StaysInCell alt.toList ∧ StaysInCell (title.getD "").toList := by
  rw [image, staysInCell_append (by simp), staysInCell_cons (by decide) (by decide) (by decide),
    staysInCell_cons (by decide) (by decide) (by decide),
    staysInCell_cons (by decide) (by decide) (by decide), staysInCell_targetPart stays,
    staysInCell_replaceAll (by decide) (by decide), staysInCell_replaceAll (by decide) (by decide)]

/-! ## nodes -/

/-- Does what a node itself brings stay in a cell, but for what is exposed? -/
def staysItself : Node → Bool
  | .leaf (.text content) => decide ('\n' ∉ content.toList)
  | .leaf (.inlineCode content) => decide (StaysInCell content.toList)
  | .leaf (.htmlInline content) => decide (StaysInCell content.toList)
  | .leaf (.image url _ _) => decide (StaysInCell url.toList)
  | .branch (.link url _) _ => decide (StaysInCell url.toList)
  | .branch .emphasis _ => true
  | .branch .strong _ => true
  | .branch .strikethrough _ => true
  | _ => false

/-- Do all inline nodes below some nodes stay in a cell by themselves? -/
def Settled (ns : List Node) : Prop := ∀ m ∈ subtreesAll ns, staysItself m = true

variable {o : WritingOptions}

/-- The texts of a node that are written as they are and may be anything: the title of a link, the
description and the title of an image, and text that is not escaped. -/
def exposed (o : WritingOptions) : Node → List (List Char)
  | .leaf (.text content) => if o.escapeSpecial then [] else [content.toList]
  | .leaf (.image _ alt title) => [alt.toList, (title.getD "").toList]
  | .branch (.link _ title) _ => [(title.getD "").toList]
  | _ => []

/-- Do all exposed texts below some nodes stay in their cell? -/
def ExposedStay (o : WritingOptions) (ns : List Node) : Prop :=
  ∀ m ∈ subtreesAll ns, ∀ s ∈ exposed o m, StaysInCell s

instance (o : WritingOptions) (ns : List Node) : Decidable (ExposedStay o ns) :=
  inferInstanceAs (Decidable (∀ m ∈ subtreesAll ns, ∀ s ∈ exposed o m, StaysInCell s))

theorem settled_cons {n : Node} {ns : List Node} :
    Settled (n :: ns) ↔ staysItself n = true ∧ Settled n.children ∧ Settled ns := by
  simp only [Settled, subtreesAll, subtrees_eq, List.forall_mem_append, List.forall_mem_cons,
    and_assoc]

theorem exposedStay_nil : ExposedStay o [] := fun _ none => absurd none List.not_mem_nil

theorem exposedStay_cons {n : Node} {ns : List Node} : ExposedStay o (n :: ns) ↔
    (∀ s ∈ exposed o n, StaysInCell s) ∧ ExposedStay o n.children ∧ ExposedStay o ns := by
  simp only [ExposedStay, subtreesAll, subtrees_eq, List.forall_mem_append, List.forall_mem_cons,
    and_assoc]

/-! ## conditions -/

/-- A condition is enough for something, and where text is escaped, there is no other way. -/
structure Governs (o : WritingOptions) (condition goal : Prop) : Prop where
  enough : condition → goal
  needed : o.escapeSpecial = true → goal → condition

namespace Governs

variable {p p' q q' : Prop}

theorem of_iff (h : p ↔ q) : Governs o p q := ⟨h.mp, fun _ => h.mpr⟩

theorem congr (h : Governs o p q) (left : p ↔ p') (right : q ↔ q') : Governs o p' q' := by
  rwa [← left, ← right]

theorem and (h : Governs o p q) (h' : Governs o p' q') : Governs o (p ∧ p') (q ∧ q') :=
  ⟨And.imp h.enough h'.enough, fun escapes => And.imp (h.needed escapes) (h'.needed escapes)⟩

end Governs

/-- What is known of a text that is written in a cell: it stays on a condition, and where text is
escaped, it begins with no pipe. -/
structure Written (o : WritingOptions) (text : List Char) (condition : Prop) : Prop
    extends Governs o condition (StaysInCell text) where
  head : o.escapeSpecial = true → text.head? ≠ some '|'

namespace Written

variable {p q : Prop}

theorem of_iff (head : s.head? ≠ some '|') (h : StaysInCell s ↔ p) : Written o s p :=
  ⟨.of_iff h.symm, fun _ => head⟩

theorem of_stays (stays : StaysInCell s) (holds : p) : Written o s p :=
  of_iff (staysInCell_iff.mp stays).2 (iff_of_true stays holds)

theorem append (hs : Written o s p) (ht : Written o t q) : Written o (s ++ t) (p ∧ q) := by
  refine ⟨⟨fun both => ?_, fun escapes stays => ?_⟩, fun escapes => ?_⟩
  · exact (hs.enough both.1).append (ht.enough both.2)
  · obtain ⟨first, second⟩ := (staysInCell_append (ht.head escapes)).mp stays
    exact ⟨hs.needed escapes first, ht.needed escapes second⟩
  · cases s with
    | nil => exact ht.head escapes
    | cons c cs => exact hs.head escapes

/-- Text between two marks. -/
theorem between {mark : List Char} (stays : StaysInCell mark) (h : Written o s p) :
    Written o (mark ++ s ++ mark) p := by
  have around := ((of_stays (o := o) stays trivial).append h).append (of_stays stays trivial)
  rwa [true_and, and_true] at around

end Written

/-- Emphasis has one of its two marks. -/
def HasMark (o : WritingOptions) : Prop := o.emphasis = "*" ∨ o.emphasis = "_"

/-! ## inline nodes -/

/-- A leaf in a cell. -/
theorem writeLeaf_settled {place : Place} (inCell : place.inCell = true) (l : Leaf)
    (itself : staysItself (.leaf l) = true) :
    Written o (writeLeaf o place l) (∀ s ∈ exposed o (.leaf l), StaysInCell s) := by
  have unexposed : ∀ s ∈ ([] : List (List Char)), StaysInCell s := List.forall_mem_nil _
  cases l with
  | text content =>
    by_cases escapes : o.escapeSpecial = true
    · rw [writeLeaf, if_pos escapes, exposed, if_pos escapes]
      exact .of_stays (staysInCell_escape inCell (of_decide_eq_true itself)) unexposed
    · rw [writeLeaf, if_neg escapes, exposed, if_neg escapes, List.forall_mem_singleton]
      exact ⟨.of_iff Iff.rfl, fun h => absurd h escapes⟩
  | inlineCode content =>
    exact .of_stays (staysInCell_inlineCode (of_decide_eq_true itself)) unexposed
  | htmlInline content => exact .of_stays (of_decide_eq_true itself) unexposed
  | image url alt title =>
    refine .of_iff (by simp [writeLeaf, image]) ?_
    rw [writeLeaf, staysInCell_image (of_decide_eq_true itself)]
    simp [exposed]
  | _ => contradiction

mutual

/-- A node in a cell stays there if what is exposed in it does. -/
theorem write_settled (mark : HasMark o) (depth : Nat) (place : Place)
    (inCell : place.inCell = true) : (n : Node) → staysItself n = true → Settled n.children →
    (write o depth place n).2 = place ∧ Written o (write o depth place n).1
      ((∀ s ∈ exposed o n, StaysInCell s) ∧ ExposedStay o n.children)
  | .leaf l, itself, _ => by
    have written := writeLeaf_settled (o := o) inCell l itself
    rw [write]
    refine ⟨rfl, written.congr (and_iff_left exposedStay_nil).symm Iff.rfl, written.head⟩
  | .branch b kids, itself, below => by
    obtain ⟨after, content⟩ := writeAll_settled mark depth place inCell kids below
    have unexposed (none : exposed o (.branch b kids) = []) {text : List Char}
        (h : Written o text (ExposedStay o kids)) :
        Written o text ((∀ s ∈ exposed o (.branch b kids), StaysInCell s) ∧ ExposedStay o kids) := by
      rw [none]
      exact ⟨h.congr (by simp) Iff.rfl, h.head⟩
    cases b with
    | emphasis =>
      have stays : StaysInCell o.emphasis.toList := by
        rcases mark with is | is <;> rw [is] <;> decide
      rw [write]
      exact ⟨after, unexposed rfl (content.between stays)⟩
    | strong =>
      rw [write]
      exact ⟨after, unexposed rfl (content.between (by decide : StaysInCell ['*', '*']))⟩
    | strikethrough =>
      rw [write]
      exact ⟨after, unexposed rfl (content.between (by decide : StaysInCell ['~', '~']))⟩
    | link url title =>
      have title_ : Governs o (∀ s ∈ exposed o (.branch (.link url title) kids), StaysInCell s)
          (StaysInCell (title.getD "").toList) := .of_iff (by simp [exposed])
      rw [write]
      refine ⟨after, (title_.and content.toGoverns).congr Iff.rfl ?_, fun _ => by simp [linkAround]⟩
      rw [staysInCell_linkAround (of_decide_eq_true itself), and_comm]
    | _ => contradiction

theorem writeAll_settled (mark : HasMark o) (depth : Nat) (place : Place)
    (inCell : place.inCell = true) : (ns : List Node) → Settled ns →
    (writeAll o depth place ns).2 = place ∧
      Written o (writeAll o depth place ns).1.flatten (ExposedStay o ns)
  | [], _ => by
    rw [writeAll]
    exact ⟨rfl, .of_stays staysInCell_nil exposedStay_nil⟩
  | n :: ns, settled => by
    obtain ⟨itself, below, rest⟩ := settled_cons.mp settled
    obtain ⟨between, first⟩ := write_settled mark depth place inCell n itself below
    obtain ⟨after, others⟩ := writeAll_settled mark depth place inCell ns rest
    rw [writeAll]
    simp only [between]
    refine ⟨after, ?_⟩
    rw [exposedStay_cons, ← and_assoc]
    exact first.append others

end

/-! ## rows -/

/-- A cell whose inline nodes are settled. -/
def IsCell (n : Node) : Prop := ∃ alignment kids, n = .branch (.cell alignment) kids ∧ Settled kids

/-- A row of such cells. -/
def IsRow (n : Node) : Prop := ∃ isHeader cells, n = .branch (.row isHeader) cells ∧
  ∀ c ∈ cells, IsCell c

theorem writeCells_settled (mark : HasMark o) (depth : Nat) (place : Place)
    (inCell : place.inCell = true) {ns : List Node} (cells : ∀ n ∈ ns, IsCell n) :
    (writeCells o depth place ns).2 = place ∧
      (writeCells o depth place ns).1.length = ns.length ∧
      Governs o (ExposedStay o ns) (∀ cell ∈ (writeCells o depth place ns).1, StaysInCell cell) := by
  induction ns with
  | nil =>
    rw [writeCells]
    exact ⟨rfl, rfl, .of_iff (iff_of_true exposedStay_nil nofun)⟩
  | cons n ns ih =>
    rw [List.forall_mem_cons] at cells
    obtain ⟨⟨alignment, kids, rfl, settled⟩, others⟩ := cells
    obtain ⟨between, content⟩ := writeAll_settled mark depth place inCell kids settled
    obtain ⟨after, count, stay⟩ := ih others
    have here : ExposedStay o kids ∧ ExposedStay o ns ↔
        ExposedStay o (.branch (.cell alignment) kids :: ns) := by
      rw [exposedStay_cons]
      simp [exposed, Tree.children]
    rw [writeCells]
    simp only [between]
    refine ⟨after, by rw [List.length_cons, count, List.length_cons], ?_⟩
    exact (content.toGoverns.and stay).congr here List.forall_mem_cons.symm

theorem writeRows_settled (mark : HasMark o) (depth : Nat) (place : Place) {ns : List Node}
    (rows : ∀ n ∈ ns, IsRow n) :
    (writeRows o depth place ns).1.map List.length = ns.map (·.children.length) ∧
      Governs o (ExposedStay o ns)
        (∀ cells ∈ (writeRows o depth place ns).1, ∀ cell ∈ cells, StaysInCell cell) := by
  induction ns generalizing place with
  | nil =>
    rw [writeRows]
    exact ⟨rfl, .of_iff (iff_of_true exposedStay_nil nofun)⟩
  | cons n ns ih =>
    rw [List.forall_mem_cons] at rows
    obtain ⟨⟨isHeader, cells, rfl, settled⟩, others⟩ := rows
    obtain ⟨-, count, stay⟩ :=
      writeCells_settled mark depth { place with inCell := true } rfl settled
    obtain ⟨counts, stays⟩ := ih _ others
    have here : ExposedStay o cells ∧ ExposedStay o ns ↔
        ExposedStay o (.branch (.row isHeader) cells :: ns) := by
      rw [exposedStay_cons]
      simp [exposed, Tree.children]
    rw [writeRows]
    refine ⟨by rw [List.map_cons, count, counts, List.map_cons, Tree.children], ?_⟩
    refine (stay.and stays).congr here ?_
    rw [List.forall_mem_cons]

/-- **A table of settled cells has its shape if what is exposed in it stays in its cell**, and where
text is escaped, only then. -/
theorem inShape_write (mark : HasMark o) (depth : Nat) (place : Place)
    (alignments : List (Option String)) {rows : List Node} (are : ∀ n ∈ rows, IsRow n)
    {columns : Nat} (is : (rows.map (·.children.length)).foldl max 0 = columns)
    (filled : columns ≠ 0) : Governs o (ExposedStay o rows)
      (InShape rows.length columns (write o depth place (.branch (.table alignments) rows)).1) := by
  obtain ⟨counts, stay⟩ := writeRows_settled mark depth place are
  have count := congrArg List.length counts
  rw [List.length_map, List.length_map] at count
  refine stay.congr Iff.rfl ?_
  rw [write, ← count, ← inShape_tableLines alignments (by rw [counts, is]) filled]

end Docsite.Markdown
