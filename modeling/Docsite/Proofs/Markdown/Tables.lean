import Docsite.Markdown.Tokenize
import Docsite.Proofs.Document.OfTokens
import Docsite.Proofs.Markdown.TableBlocks

/-!
# Docsite.Proofs.Markdown.Tables

The tables that are read, written again.

The rows of a table that is read are rows of settled cells, because their sources come from the lines
of a text (`isTable_of_mem_tokenize`).  So a table keeps its lines and its columns when it is written,
if the titles of its links and images and the descriptions of its images stay in their cells
(`inShape_write_of_mem_tokenize`); nothing else in a cell can add a column or break a row.
-/

namespace Docsite.Markdown

open Document Docsite.Tree

/-! ## definitions -/

theorem Block.definitionsAll_eq (blocks : List Block) :
    Block.definitionsAll blocks = blocks.flatMap Block.definitions := by
  induction blocks with
  | nil => rfl
  | cons b bs ih => rw [Block.definitionsAll, ih, List.flatMap_cons]

theorem Block.urls_definitionsAll {blocks : List Block}
    (each : ∀ b ∈ blocks, ∀ d ∈ b.definitions, StaysInCell d.target.url.toList) :
    ∀ d ∈ Block.definitionsAll blocks, StaysInCell d.target.url.toList := by
  rw [Block.definitionsAll_eq]
  intro d mem
  obtain ⟨b, there, mem⟩ := List.mem_flatMap.mp mem
  exact each b there d mem

/-- The addresses of all definitions in a sound block are encoded. -/
theorem Block.Sound.urls {b : Block} (sound : b.Sound) :
    ∀ d ∈ b.definitions, StaysInCell d.target.url.toList := by
  induction sound with
  | definition url => exact List.forall_mem_singleton.mpr url
  | quote _ ih => exact Block.urls_definitionsAll ih
  | list _ _ ih => exact Block.urls_definitionsAll ih
  | item _ ih => exact Block.urls_definitionsAll ih
  | _ => exact nofun

/-! ## tables in a document -/

/-- The rows of a table: rows of settled cells, and not all of them empty. -/
structure IsTable (rows : List Node) : Prop where
  are : ∀ row ∈ rows, IsRow row
  filled : (rows.map (·.children.length)).foldl max 0 ≠ 0

/-- Are all tables below some nodes made of rows of settled cells? -/
def Tidy (ns : List Node) : Prop :=
  ∀ alignments rows, .branch (.table alignments) rows ∈ subtreesAll ns → IsTable rows

theorem tidy_nil : Tidy [] := fun _ _ none => absurd none List.not_mem_nil

theorem tidy_of_forall {ns : List Node} (each : ∀ n ∈ ns, Tidy [n]) : Tidy ns := by
  intro alignments rows mem
  rw [subtreesAll_eq_flatMap, List.mem_flatMap] at mem
  obtain ⟨n, there, mem⟩ := mem
  exact each n there alignments rows (by rwa [subtreesAll, subtreesAll, List.append_nil])

theorem tidy_singleton {n : Node}
    (here : ∀ alignments rows, n = .branch (.table alignments) rows → IsTable rows)
    (below : Tidy n.children) : Tidy [n] := by
  intro alignments rows mem
  rw [subtreesAll, subtrees_eq, subtreesAll, List.append_nil, List.mem_cons] at mem
  exact mem.elim (fun is => here alignments rows is.symm) (below alignments rows)

/-- There are no tables in a line. -/
theorem tidy_inlines (ts : List Token) : Tidy (inlines ts) := by
  intro alignments rows mem
  have line : AllWell Kind.isInline (inlines ts) := (line_inlines ts).1
  have inline := Node.isInline_of_mem_subtreesAll (inlines ts) (fun n mem => (line n mem).1)
    (Node.wellShapedAll_iff.mpr fun n mem => (line n mem).2) _ mem
  contradiction

theorem tidy_line (b : Branch) (ts : List Token) (other : ∀ names, b ≠ .table names) :
    Tidy [.branch b (inlines ts)] :=
  tidy_singleton (fun names _ is => absurd (Tree.branch.inj is).1 (other names))
    (tidy_inlines ts)

theorem tidy_of_settled {ns : List Node} (settled : Settled ns) : Tidy ns :=
  fun _ _ mem => absurd (settled _ mem) Bool.false_ne_true

theorem tidy_of_isRow {rows : List Node} (are : ∀ row ∈ rows, IsRow row) : Tidy rows := by
  apply tidy_of_forall
  intro row mem
  obtain ⟨isHeader, cells, rfl, are⟩ := are row mem
  refine tidy_singleton nofun (tidy_of_forall fun cell mem => ?_)
  obtain ⟨alignment, kids, rfl, settled⟩ := are cell mem
  exact tidy_singleton nofun (tidy_of_settled settled)

/-! ## the nodes of tokens -/

theorem blocks_eq_filterMap (ts : List Token) : blocks ts = ts.filterMap block? := by
  induction ts with
  | nil => rfl
  | cons t ts ih =>
    rw [blocks, List.filterMap_cons, ih]
    cases block? t <;> rfl

theorem tidy_blocks {ts : List Token} (each : ∀ t ∈ ts, ∀ n, block? t = some n → Tidy [n]) :
    Tidy (blocks ts) := by
  rw [blocks_eq_filterMap]
  apply tidy_of_forall
  intro n mem
  obtain ⟨t, mem, is⟩ := List.mem_filterMap.mp mem
  exact each t mem n is

theorem items_eq_map (ts : List Token) : items ts = ts.map fun
    | .mk _ _ attributes _ inside => .branch (.item (taskStatus attributes)) (blocks inside) := by
  induction ts with
  | nil => rfl
  | cons t ts ih =>
    obtain ⟨kind, raw, attributes, tight, inside⟩ := t
    rw [items, List.map_cons, ih]

/-! ## the node of a table -/

section

variable {k : InlineContext} (urls : ∀ d ∈ k.definitions, StaysInCell d.target.url.toList)
  {alignments : List (Option Alignment)} {sources : List (List Char)}

theorem cells_cellTokens : cells (cellTokens k alignments sources) =
    (alignments.zip sources).map fun (a, source) =>
      .branch (.cell (a.map (·.name))) (inlines (inlinesOf k source)) := by
  rw [cellTokens]
  induction alignments.zip sources with
  | nil => rfl
  | cons pair pairs ih =>
    rw [List.map_cons, List.map_cons, cells, ih]

include urls in
theorem isRow_cellTokens (guarded : ∀ source ∈ sources, Guarded source) (isHeader : Bool) :
    IsRow (.branch (.row isHeader) (cells (cellTokens k alignments sources))) := by
  refine ⟨isHeader, _, rfl, ?_⟩
  rw [cells_cellTokens, List.forall_mem_map]
  rintro ⟨a, source⟩ mem
  exact ⟨_, _, rfl, settled_inlinesOf urls (guarded source (List.of_mem_zip mem).2)⟩

theorem bodyRows_map (rows : List (List (List Char))) :
    bodyRows (rows.map fun r => .around (.other "table_row") (cellTokens k alignments r)) =
      rows.map fun r => .branch (.row false) (cells (cellTokens k alignments r)) := by
  induction rows with
  | nil => rfl
  | cons row rows ih => rw [List.map_cons, List.map_cons, Token.around, bodyRows, ih]

include urls in
/-- The node of a table that is read. -/
theorem exists_of_block?_tableToken {header : List (List Char)} {body : List (List (List Char))}
    (table : TableSources alignments header body) {n : Node}
    (is : block? (tableToken k alignments header body) = some n) :
    ∃ names rows, n = .branch (.table names) rows ∧ IsTable rows := by
  let first : Node := .branch (.row true) (cells (cellTokens k alignments header))
  let others : List Node :=
    body.map fun r => .branch (.row false) (cells (cellTokens k alignments r))
  have node : rows [.around .tableHead (cellTokens k alignments header),
      .around .tableBody (body.map fun r => .around (.other "table_row")
        (cellTokens k alignments r))] = first :: others := by
    rw [Token.around, rows, Token.around, rows, rows, bodyRows_map, List.append_nil]
  have table : IsTable (first :: others) := by
    constructor
    · rw [List.forall_mem_cons, List.forall_mem_map]
      exact ⟨isRow_cellTokens urls table.header true,
        fun row mem => isRow_cellTokens urls (table.rows row mem) false⟩
    · have width : first.children.length = header.length := by
        show (cells (cellTokens k alignments header)).length = _
        rw [cells_cellTokens, List.length_map, List.length_zip, table.aligned, Nat.min_self]
      have filled : header.length ≠ 0 := mt List.length_eq_zero_iff.mp table.filled
      rw [List.map_cons, List.foldl_cons, width, List.foldl_max]
      omega
  rw [tableToken, Token.around, block?, node] at is
  exact ⟨_, _, (Option.some.inj is).symm, table⟩

end

/-! ## blocks that are read -/

section

variable {o : ReadingOptions} {k : InlineContext}

theorem Block.tokens_eq (blocks : List Block) :
    Block.tokens o k blocks = blocks.filterMap (Block.token? o k) := by
  induction blocks with
  | nil => rfl
  | cons b bs ih =>
    rw [Block.tokens, List.filterMap_cons, ih]
    cases b.token? o k <;> rfl

/-- What is known of the token of a block: its node is tidy, and if the block is an item, so is what
is inside. -/
structure TidyToken (b : Block) (t : Token) : Prop where
  node : ∀ n, block? t = some n → Tidy [n]
  inside : ∀ blocks, b = .item blocks → ∀ kind raw attributes tight inside,
    t = .mk kind raw attributes tight inside → Tidy (Document.blocks inside)

/-- The nodes of the blocks that are read in a container. -/
theorem Block.tidy_tokens {blocks : List Block}
    (each : ∀ b ∈ blocks, ∀ t, b.token? o k = some t → TidyToken b t) :
    ∀ t ∈ Block.tokens o k blocks, ∀ n, block? t = some n → Tidy [n] := by
  rw [Block.tokens_eq]
  intro t mem
  obtain ⟨b, mem, is⟩ := List.mem_filterMap.mp mem
  exact (each b mem t is).node

/-- The token of an item; a box takes the place of the start of its first paragraph. -/
theorem tidyToken_item {blocks : List Block}
    (within : ∀ t ∈ Block.tokens o k blocks, ∀ n, block? t = some n → Tidy [n]) {t : Token}
    (is : (Block.item blocks).token? o k = some t) : TidyToken (.item blocks) t := by
  unfold Block.token? at is
  dsimp only at is
  split at is
  · cases is
    refine ⟨nofun, ?_⟩
    rintro blocks - kind raw attributes tight inside ⟨⟩
    refine tidy_blocks (List.forall_mem_cons.mpr ⟨?_, fun t mem => ?_⟩)
    · rintro n ⟨⟩
      exact tidy_line _ _ nofun
    · exact within t (List.mem_of_mem_drop mem)
  · cases is
    refine ⟨nofun, ?_⟩
    rintro blocks - kind raw attributes tight inside ⟨⟩
    exact tidy_blocks within

theorem Block.Sound.tidy (urls : ∀ d ∈ k.definitions, StaysInCell d.target.url.toList) {b : Block}
    (sound : b.Sound) : ∀ t, b.token? o k = some t → TidyToken b t := by
  induction sound with
  | definition => exact nofun
  | paragraph | heading =>
    rintro t ⟨⟩
    refine ⟨?_, nofun⟩
    rintro n ⟨⟩
    exact tidy_line _ _ nofun
  | code | html | thematicBreak =>
    rintro t ⟨⟩
    refine ⟨?_, nofun⟩
    rintro n ⟨⟩
    exact tidy_singleton nofun tidy_nil
  | quote _ ih =>
    rintro t ⟨⟩
    refine ⟨?_, nofun⟩
    rintro n ⟨⟩
    exact tidy_singleton nofun (tidy_blocks (Block.tidy_tokens ih))
  | list are _ ih =>
    rintro t ⟨⟩
    refine ⟨?_, nofun⟩
    rintro n ⟨⟩
    refine tidy_singleton nofun ?_
    show Tidy (items (Block.tokens o k _))
    rw [items_eq_map]
    apply tidy_of_forall
    rw [List.forall_mem_map, Block.tokens_eq]
    rintro ⟨kind, raw, attributes, tight, inside⟩ mem
    obtain ⟨i, mem, is⟩ := List.mem_filterMap.mp mem
    obtain ⟨blocks, item⟩ := are i mem
    exact tidy_singleton nofun ((ih i mem _ is).inside blocks item _ _ _ _ _ rfl)
  | item _ ih => exact fun t => tidyToken_item (Block.tidy_tokens ih)
  | table sources =>
    rintro t ⟨⟩
    refine ⟨fun n is => ?_, nofun⟩
    obtain ⟨names, rows, rfl, table⟩ := exists_of_block?_tableToken urls sources is
    refine tidy_singleton ?_ (tidy_of_isRow table.are)
    rintro names rows ⟨⟩
    exact table

theorem tidy_of_sound {blocks : List Block} (sound : ∀ b ∈ blocks, b.Sound) (strikethrough : Bool) :
    Tidy (Document.blocks
      (Block.tokens o ⟨strikethrough, Block.definitionsAll blocks⟩ blocks)) := by
  have urls := Block.urls_definitionsAll fun b mem => (sound b mem).urls
  exact tidy_blocks (Block.tidy_tokens fun b mem => (sound b mem).tidy urls)

end

/-- All tables of a text are made of rows of settled cells. -/
theorem isTable_of_mem_tokenize {o : ReadingOptions} {text : String}
    {alignments : List (Option String)} {rows : List Node}
    (mem : .branch (.table alignments) rows ∈ (ofTokens (tokenize o text)).subtrees) :
    IsTable rows := by
  have tidy := tidy_of_sound (o := o) (sound_blocksOf o text.toList) o.strikethrough
  rw [ofTokens, tokenize, subtrees, List.mem_cons] at mem
  rcases mem with root | below
  · cases root
  · exact tidy alignments rows below

/-- **Every line of a table that is read, written again, has a cell for each column if the titles of
links and the descriptions and titles of images in it have no line feed and no pipe without a
backslash** (and its text neither, if it is not escaped).  Where text is escaped, this is the only
way to keep the shape of the table. -/
theorem inShape_write_of_mem_tokenize (ro : ReadingOptions) (text : String)
    {alignments : List (Option String)} {rows : List Node}
    (mem : .branch (.table alignments) rows ∈ (ofTokens (tokenize ro text)).subtrees)
    {wo : WritingOptions} (mark : HasMark wo) (depth : Nat) (place : Place) :
    let columns := (rows.map (·.children.length)).foldl max 0
    let written := (write wo depth place (.branch (.table alignments) rows)).1
    (ExposedStay wo rows → InShape rows.length columns written) ∧
      (wo.escapeSpecial = true → InShape rows.length columns written → ExposedStay wo rows) := by
  have table := isTable_of_mem_tokenize mem
  have governs := inShape_write mark depth place alignments table.are rfl table.filled
  exact ⟨governs.enough, governs.needed⟩

/-- The rows of a table with one column and something below its header `a`. -/
def rowsOver (content : List Node) : List Node :=
  [.branch (.row true) [.branch (.cell none) [Node.text "a"]],
   .branch (.row false) [.branch (.cell none) content]]

/-- A pipe in a text, which is escaped when it is read and when it is written. -/
theorem inShape_write_of_mem_tokenize_text :
    let rows := rowsOver [Node.text "b|c"]
    .branch (.table [none]) rows ∈
        (ofTokens (tokenize {} "| a |\n| --- |\n| b\\|c |\n")).subtrees ∧
      ExposedStay {} rows ∧ InShape 2 1 (write {} 0 {} (.branch (.table [none]) rows)).1 := by
  intro rows
  have mem : .branch (.table [none]) rows ∈
      (ofTokens (tokenize {} "| a |\n| --- |\n| b\\|c |\n")).subtrees := by decide +kernel
  have stay : ExposedStay {} rows := by decide +kernel
  exact ⟨mem, stay, (inShape_write_of_mem_tokenize {} _ mem (.inl rfl) 0 {}).1 stay⟩

/-- The link `[x](u "p\|q")` in a cell: its title is written without the backslash, so the line has
two cells in a table with one column. -/
theorem not_inShape_write_title :
    let rows := rowsOver [.branch (.link "u" (some "p|q")) [Node.text "x"]]
    .branch (.table [none]) rows ∈
        (ofTokens (tokenize {} "| a |\n| --- |\n| [x](u \"p\\|q\") |\n")).subtrees ∧
      ¬InShape 2 1 (write {} 0 {} (.branch (.table [none]) rows)).1 := by
  intro rows
  have mem : .branch (.table [none]) rows ∈
      (ofTokens (tokenize {} "| a |\n| --- |\n| [x](u \"p\\|q\") |\n")).subtrees := by decide +kernel
  have last : "| [x](u \"p|q\") |".toList ∈
      Text.lines (write {} 0 {} (.branch (.table [none]) rows)).1 := by decide +kernel
  exact ⟨mem, fun shape => absurd (shape.columns _ last).openPipes_eq (by decide)⟩

end Docsite.Markdown
