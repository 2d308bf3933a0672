import Docsite.Markdown.Tokenize
import Docsite.Proofs.Document.OfTokens
import Docsite.Proofs.Markdown.LineStarts
import Docsite.Proofs.Markdown.Options
import Docsite.Proofs.Markdown.Writer

/-!
# Docsite.Proofs.Markdown.Ancestors

What a node is written as, said from above.

A writer finds out where it is from what it has met on its way.  `textBelow` says the same without
a way: the text of a node is made of the node and of the labels of its ancestors, the nearest
first.  The ancestors settle the bullet of a list by the number of lists among them, the rule that
a text is escaped by, and how close together the blocks of an item stand.  In documents that
Markdown has, where nothing but inline nodes stands in headings and cells, both agree
(`renderEach_topDown`).
-/

namespace Docsite.Markdown

open Document Docsite.Tree

/-! ## ancestors -/

/-- The number of lists among some ancestors. -/
def listsAmong (above : List Branch) : Nat := (above.filter (·.kind == .list)).length

/-- Where a text stands below some ancestors: in a heading if one of them is a heading, in a cell
if one of them is a cell. -/
def placeBelow (above : List Branch) : Place where
  inHeading := above.any (·.kind == .heading)
  inCell := above.any (·.kind == .cell)

/-- Do the blocks of an item stand close together?  Its list decides. -/
def isTightBelow : List Branch → Bool
  | .list _ _ tight :: _ => tight
  | _ => true

mutual

/-- The text of a node below some ancestors.  That of an item goes behind the mark that its list
gives it. -/
def textBelow (o : WritingOptions) (above : List Branch) : Node → List Char
  | .leaf l => writeLeaf o (placeBelow above) l
  | .branch .root kids => joinBlocks (spacing false) (textsBelow o (.root :: above) kids)
  | .branch (.heading level) kids =>
    List.replicate level.toNat '#' ++ ' ' :: (textsBelow o (.heading level :: above) kids).flatten
  | .branch .paragraph kids => (textsBelow o (.paragraph :: above) kids).flatten
  | .branch .quote kids =>
    quoteLines (joinBlocks (spacing false) (textsBelow o (.quote :: above) kids))
  | .branch (.list ordered start tight) items =>
    (spacing tight).intercalate
      (placeItems ordered start (bulletAt o (listsAmong above)) 0
        (textsBelow o (.list ordered start tight :: above) items))
  | .branch (.item task) kids =>
    taskBox task
      ++ joinBlocks (spacing (isTightBelow above)) (textsBelow o (.item task :: above) kids)
  | .branch (.table alignments) rows =>
    Text.unlines (tableLines alignments (cellsBelow o (.table alignments :: above) rows))
  | .branch (.row isHeader) cells => tableLine (textsBelow o (.row isHeader :: above) cells)
  | .branch (.cell alignment) kids => (textsBelow o (.cell alignment :: above) kids).flatten
  | .branch .emphasis kids =>
    o.emphasis.toList ++ (textsBelow o (.emphasis :: above) kids).flatten ++ o.emphasis.toList
  | .branch .strong kids =>
    '*' :: '*' :: (textsBelow o (.strong :: above) kids).flatten ++ ['*', '*']
  | .branch .strikethrough kids =>
    '~' :: '~' :: (textsBelow o (.strikethrough :: above) kids).flatten ++ ['~', '~']
  | .branch (.link url title) kids =>
    linkAround (textsBelow o (.link url title :: above) kids).flatten url title

/-- The texts of several nodes below some ancestors. -/
def textsBelow (o : WritingOptions) (above : List Branch) : List Node → List (List Char)
  | [] => []
  | n :: ns => textBelow o above n :: textsBelow o above ns

/-- The texts of the cells of some rows below some ancestors. -/
def cellsBelow (o : WritingOptions) (above : List Branch) : List Node → List (List (List Char))
  | [] => []
  | .branch row cells :: rows => textsBelow o (row :: above) cells :: cellsBelow o above rows
  | .leaf _ :: rows => [] :: cellsBelow o above rows

end

/-! ## documents that Markdown has -/

/-- Is every node of a kind that its parent admits? -/
def Orderly (n : Node) : Prop := ∀ m ∈ n.subtrees, Admits m

theorem orderly_of_wellShaped {n : Node} (h : Node.WellShaped n) : Orderly n :=
  fun m mem => admits_of_fits (h m mem)

theorem orderly_branch {b : Branch} {kids : List Node} (h : Orderly (.branch b kids)) :
    (∀ n ∈ kids, b.admits (Node.kind n) = true) ∧ ∀ n ∈ kids, Orderly n := by
  refine ⟨h _ (mem_subtrees_self _), fun n mem m below => h m ?_⟩
  rw [subtrees_eq]
  exact List.mem_cons_of_mem _ (subtrees_subset_all kids n (mem_subtreesAll mem) below)

/-- Is a node inline, or a block below no heading and no cell? -/
def Belongs (above : List Branch) (n : Node) : Prop :=
  (Node.kind n).isInline = true ∨ (Node.kind n).isBlock = true ∧ placeBelow above = {}

section

variable (o : WritingOptions)

mutual

/-- Where a node belongs, it is written as its ancestors say, and the place comes back. -/
theorem write_textBelow : (n : Node) → Orderly n → (above : List Branch) → Belongs above n →
    write o (listsAmong above) (placeBelow above) n = (textBelow o above n, placeBelow above)
  | .leaf l, _, above, _ => by rw [write, textBelow]
  | .branch b kids, orderly, above, belongs => by
    obtain ⟨admits, below⟩ := orderly_branch orderly
    -- What stands in a line of text belongs below any ancestors.
    have inline (holds : b.holdsInlines = true) (above' : List Branch) :
        ∀ n ∈ kids, Belongs above' n := fun n mem =>
      .inl ((Branch.admits_of_holdsInlines holds _).symm.trans (admits n mem))
    have block (outside : placeBelow above = {}) (holds : b.holdsBlocks = true)
        (same : placeBelow (b :: above) = placeBelow above) :
        ∀ n ∈ kids, Belongs (b :: above) n := fun n mem =>
      .inr ⟨(Branch.admits_of_holdsBlocks holds _).symm.trans (admits n mem), same.trans outside⟩
    have content := writeAll_textsBelow kids below (b :: above)
    cases b with
    | heading level =>
      have written : writeAll o (listsAmong above) { placeBelow above with inHeading := true } kids =
          (textsBelow o (.heading level :: above) kids,
            { placeBelow above with inHeading := true }) := content (inline rfl _)
      obtain ⟨-, outside⟩ := belongs.resolve_left nofun
      rw [write, textBelow, written]
      simp only [outside]
    | quote =>
      obtain ⟨-, outside⟩ := belongs.resolve_left nofun
      have written : writeAll o (listsAmong above) (placeBelow above) kids =
          (textsBelow o (.quote :: above) kids, placeBelow above) :=
        content (block outside rfl rfl)
      rw [write, textBelow, written]
    | list ordered start tight =>
      obtain ⟨-, outside⟩ := belongs.resolve_left nofun
      have written : writeItems o (listsAmong above + 1) (placeBelow above) tight kids =
          (textsBelow o (.list ordered start tight :: above) kids, placeBelow above) :=
        writeItems_textsBelow kids below (.list ordered start tight :: above) outside
          fun n mem => of_decide_eq_true (admits n mem)
      rw [write, textBelow, written]
    | table alignments =>
      obtain ⟨-, outside⟩ := belongs.resolve_left nofun
      have written : writeRows o (listsAmong above) (placeBelow above) kids =
          (cellsBelow o (.table alignments :: above) kids, placeBelow above) :=
        writeRows_cellsBelow kids below (.table alignments :: above) outside
          fun n mem => of_decide_eq_true (admits n mem)
      rw [write, textBelow, written]
    | paragraph | emphasis | strong | strikethrough | link url title =>
      have written := content (inline rfl _)
      change writeAll o (listsAmong above) (placeBelow above) kids =
        (textsBelow o (_ :: above) kids, placeBelow above) at written
      rw [write, textBelow, written]
    | root | item task | row isHeader | cell alignment =>
      rcases belongs with line | ⟨block, -⟩ <;> contradiction

theorem writeAll_textsBelow : (ns : List Node) → (∀ n ∈ ns, Orderly n) → (above : List Branch) →
    (∀ n ∈ ns, Belongs above n) →
    writeAll o (listsAmong above) (placeBelow above) ns = (textsBelow o above ns, placeBelow above)
  | [], _, above, _ => by rw [writeAll, textsBelow]
  | n :: ns, orderly, above, belongs => by
    rw [List.forall_mem_cons] at orderly belongs
    rw [writeAll, textsBelow, write_textBelow n orderly.1 above belongs.1]
    simp only [writeAll_textsBelow ns orderly.2 above belongs.2]

theorem writeItems_textsBelow : (ns : List Node) → (∀ n ∈ ns, Orderly n) →
    (above : List Branch) → placeBelow above = {} → (∀ n ∈ ns, Node.kind n = .item) →
    writeItems o (listsAmong above) (placeBelow above) (isTightBelow above) ns =
      (textsBelow o above ns, placeBelow above)
  | [], _, above, _, _ => by rw [writeItems, textsBelow]
  | .leaf l :: ns, _, above, _, items => by
    rw [List.forall_mem_cons] at items
    cases l <;> exact absurd items.1 nofun
  | .branch b kids :: ns, orderly, above, outside, items => by
    rw [List.forall_mem_cons] at items orderly
    cases b with
    | item task =>
      obtain ⟨admits, below⟩ := orderly_branch orderly.1
      have written : writeAll o (listsAmong above) (placeBelow above) kids =
          (textsBelow o (.item task :: above) kids, placeBelow above) :=
        writeAll_textsBelow kids below (.item task :: above) fun n mem =>
          .inr ⟨admits n mem, outside⟩
      rw [writeItems, textsBelow, textBelow, written]
      simp only [writeItems_textsBelow ns orderly.2 above outside items.2]
    | _ => exact absurd items.1 nofun

theorem writeRows_cellsBelow : (ns : List Node) → (∀ n ∈ ns, Orderly n) →
    (above : List Branch) → placeBelow above = {} → (∀ n ∈ ns, Node.kind n = .row) →
    writeRows o (listsAmong above) (placeBelow above) ns =
      (cellsBelow o above ns, placeBelow above)
  | [], _, above, _, _ => by rw [writeRows, cellsBelow]
  | .leaf l :: ns, _, above, _, rows => by
    rw [List.forall_mem_cons] at rows
    cases l <;> exact absurd rows.1 nofun
  | .branch b kids :: ns, orderly, above, outside, rows => by
    rw [List.forall_mem_cons] at rows orderly
    cases b with
    | row isHeader =>
      obtain ⟨admits, below⟩ := orderly_branch orderly.1
      have written : writeCells o (listsAmong above) { placeBelow above with inCell := true } kids =
          (textsBelow o (.row isHeader :: above) kids, { placeBelow above with inCell := true }) :=
        writeCells_textsBelow kids below (.row isHeader :: above)
          fun n mem => of_decide_eq_true (admits n mem)
      have others := writeRows_cellsBelow ns orderly.2 above outside rows.2
      rw [outside] at others
      rw [writeRows, cellsBelow, written]
      simp only [outside, others]
    | _ => exact absurd rows.1 nofun

theorem writeCells_textsBelow : (ns : List Node) → (∀ n ∈ ns, Orderly n) →
    (above : List Branch) → (∀ n ∈ ns, Node.kind n = .cell) →
    writeCells o (listsAmong above) { placeBelow above with inCell := true } ns =
      (textsBelow o above ns, { placeBelow above with inCell := true })
  | [], _, above, _ => by rw [writeCells, textsBelow]
  | .leaf l :: ns, _, above, cells => by
    rw [List.forall_mem_cons] at cells
    cases l <;> exact absurd cells.1 nofun
  | .branch b kids :: ns, orderly, above, cells => by
    rw [List.forall_mem_cons] at cells orderly
    cases b with
    | cell alignment =>
      obtain ⟨admits, below⟩ := orderly_branch orderly.1
      have written : writeAll o (listsAmong above) { placeBelow above with inCell := true } kids =
          (textsBelow o (.cell alignment :: above) kids,
            { placeBelow above with inCell := true }) :=
        writeAll_textsBelow kids below (.cell alignment :: above) fun n mem => .inl (admits n mem)
      rw [writeCells, textsBelow, textBelow, written]
      simp only [writeCells_textsBelow ns orderly.2 above cells.2]
    | _ => exact absurd cells.1 nofun

end

/-- A document is written as its nodes and their ancestors say. -/
theorem render_document {blocks : List Node} (orderly : Orderly (.document blocks)) :
    render o (.document blocks) = .ofList (tidy (textBelow o [] (.document blocks))) := by
  obtain ⟨admits, below⟩ := orderly_branch orderly
  have written : writeAll o 0 {} blocks = (textsBelow o [.root] blocks, {}) :=
    writeAll_textsBelow o blocks below [.root] fun n mem => .inr ⟨admits n mem, rfl⟩
  rw [render, write, textBelow, written]

end

/-- Options that are allowed have a bullet for each depth of lists. -/
theorem getElem?_bullets {o : WritingOptions} (allowed : o.check = .ok o) (depth : Nat) :
    o.bullets.toList[depth % o.bullets.length]? = some (bulletAt o depth) := by
  have filled : 0 < o.bullets.length :=
    (WritingOptions.check_eq_ok_iff.mp allowed).2.length_bullets_pos
  have inside : depth % o.bullets.length < o.bullets.toList.length := Nat.mod_lt _ filled
  rw [bulletAt, List.getElem?_eq_getElem inside, Option.getD_some]

/-- **A writer writes each document as its nodes and their ancestors say**: whatever it has been used
for before, and whatever documents come before in the row, the text of a document is the one that
is made top down, where a list has the bullet that belongs to the number of lists around it, a
text is escaped as in a heading or in a cell just where it stands below one, and the texts of
siblings that are not empty stand side by side with the separator of their container.  It is
the text that the document has on its own. -/
theorem renderEach_topDown (o : WritingOptions) (allowed : o.check = .ok o)
    (documents : List (List Node)) (orderly : ∀ blocks ∈ documents, Orderly (.document blocks))
    (w : Writer) :
    ((Writer.renderEach o (documents.map .document)).run w).1 =
        documents.map (fun blocks => .ofList (tidy (textBelow o [] (.document blocks)))) ∧
      (∀ blocks ∈ documents, render o (.document blocks) =
        .ofList (tidy (textBelow o [] (.document blocks)))) ∧
      ∀ above, o.bullets.toList[listsAmong above % o.bullets.length]? =
        some (bulletAt o (listsAmong above)) := by
  have each : ∀ blocks ∈ documents, render o (.document blocks) =
      .ofList (tidy (textBelow o [] (.document blocks))) :=
    fun blocks mem => render_document o (orderly blocks mem)
  refine ⟨?_, each, fun above => getElem?_bullets allowed _⟩
  rw [Writer.run_renderEach, List.map_map]
  exact List.map_congr_left each

/-- Two sources with a mark in a heading, lists of two depths, and pipes in a text and in a cell. -/
theorem renderEach_topDown_sources :
    let o : WritingOptions := { bullets := "-+" }
    let documents := [blocks (tokenize {} "# - a\n\n* b\n  * c"),
      blocks (tokenize {} "\\- a|b\n\n| a\\|b |\n| --- |")]
    o.check = .ok o ∧
      ((Writer.renderEach o (documents.map .document)).run ⟨['x'], 1, ⟨true, true⟩⟩).1 =
        ["# - a\n\n- b\n  + c", "\\- a|b\n\n| a\\|b |\n| --- |"] := by
  intro o documents
  have allowed : o.check = .ok o := rfl
  have orderly : ∀ blocks ∈ documents, Orderly (.document blocks) := by
    simp only [documents, List.forall_mem_cons, List.not_mem_nil, false_implies, implies_true,
      and_true]
    exact ⟨orderly_of_wellShaped (wellShaped_ofTokens _), orderly_of_wellShaped (wellShaped_ofTokens _)⟩
  refine ⟨allowed, ?_⟩
  rw [(renderEach_topDown o allowed documents orderly _).1]
  decide +kernel

end Docsite.Markdown
