import Docsite.Proofs.Document.Shape
import Docsite.Proofs.Markdown.Escape
import Docsite.Proofs.Markdown.Layout

/-!
# Docsite.Proofs.Markdown.LineStarts

Where a written text has a hash sign at the start of a line.

What stands in a line of text brings none, because texts are escaped and everything else begins
with a mark of its own (`clean_write`); what stands in a quote, a list or a table has something
before it on every line.  So among the blocks only headings, code and HTML can bring one
(`write_block`).  All of this is about line feeds: a carriage return becomes one when the page is
finished, so the texts must not have any.
-/

namespace Docsite.Markdown

open Document Docsite.Tree

/-! ## texts -/

/-- Is there no hash sign at the start of a line?  The text itself may start at one. -/
def hashless : Bool → List Char → Bool
  | _, [] => true
  | starts, c :: cs => !(starts && c == '#') && hashless (c == '\n') cs

@[simp] theorem hashless_cons (starts : Bool) (c : Char) (cs : List Char) :
    hashless starts (c :: cs) = (!(starts && c == '#') && hashless (c == '\n') cs) := rfl

section

variable {starts : Bool} {s t : List Char}

/-- What is right at the start of a line is right everywhere. -/
theorem hashless_of_start (h : hashless true s = true) : hashless starts s = true := by
  cases s with
  | nil => rfl
  | cons c cs =>
    simp at h
    simp [h]

theorem hashless_append (hs : hashless starts s = true) (ht : hashless true t = true) :
    hashless starts (s ++ t) = true := by
  induction s generalizing starts with
  | nil => exact hashless_of_start ht
  | cons c cs ih =>
    simp at hs
    simp [hs.1, ih hs.2]

/-- Inside a line there is nothing to look for. -/
theorem hashless_of_notMem (h : '\n' ∉ s) : hashless false s = true := by
  induction s with
  | nil => rfl
  | cons c cs ih =>
    simp only [List.mem_cons, not_or] at h
    have inLine : (c == '\n') = false := by simpa using Ne.symm h.1
    simp [inLine, ih h.2]

theorem hashless_shorter (h : hashless starts s = true) (begins : t <+: s) :
    hashless starts t = true := by
  induction t generalizing s starts with
  | nil => rfl
  | cons c cs ih =>
    obtain ⟨rest, rfl⟩ := begins
    simp at h
    simp [h.1, ih h.2 (List.prefix_append cs rest)]

theorem head?_of_hashless (h : hashless starts s = true) :
    (starts = true → s.head? ≠ some '#') ∧ ∀ l ∈ (Text.lines s).tail, l.head? ≠ some '#' := by
  induction s generalizing starts with
  | nil => simp
  | cons c cs ih =>
    simp at h
    have ⟨first, others⟩ := ih h.2
    refine ⟨fun is => by simpa [is] using h.1, ?_⟩
    by_cases newline : c = '\n'
    · obtain ⟨l, ls, rest, cut, whole, -⟩ := Text.exists_head_lines cs
      subst newline
      rw [Text.lines_newline, List.tail_cons, cut, List.forall_mem_cons]
      refine ⟨?_, by simpa [cut] using others⟩
      intro hash
      apply first rfl
      rw [whole, List.head?_append, hash]
      rfl
    · rwa [Text.tail_lines_cons newline]

/-- No line of such a text begins with a hash sign. -/
theorem head?_of_mem_lines (h : hashless true s = true) {l : List Char} (mem : l ∈ Text.lines s) :
    l.head? ≠ some '#' := by
  have second : hashless true ('\n' :: s) = true := by simpa using h
  exact (head?_of_hashless second).2 l (by simpa using mem)

end

/-- A text without a hash sign at the start of a line, also when its line endings are normalized. -/
structure Clean (s : List Char) : Prop where
  hashes : hashless true s = true
  returns : '\r' ∉ s

instance (s : List Char) : Decidable (Clean s) :=
  decidable_of_iff (hashless true s = true ∧ '\r' ∉ s)
    ⟨fun ⟨hashes, returns⟩ => ⟨hashes, returns⟩, fun ⟨hashes, returns⟩ => ⟨hashes, returns⟩⟩

namespace Clean

variable {s t : List Char} {ts : List (List Char)}

theorem nil : Clean [] := ⟨rfl, List.not_mem_nil⟩

theorem append (hs : Clean s) (ht : Clean t) : Clean (s ++ t) :=
  ⟨hashless_append hs.hashes ht.hashes, by simp [hs.returns, ht.returns]⟩

theorem cons {c : Char} (hash : c ≠ '#') (ret : c ≠ '\r') (h : Clean s) : Clean (c :: s) :=
  ⟨by simp [hash, hashless_of_start h.hashes], by simp [Ne.symm ret, h.returns]⟩

theorem flatten (h : ∀ t ∈ ts, Clean t) : Clean ts.flatten := by
  induction ts with
  | nil => exact nil
  | cons t ts ih =>
    simp only [List.forall_mem_cons] at h
    rw [List.flatten_cons]
    exact h.1.append (ih h.2)

theorem intercalate (hs : Clean s) (h : ∀ t ∈ ts, Clean t) : Clean (s.intercalate ts) := by
  cases ts with
  | nil => exact nil
  | cons t ts =>
    simp only [List.forall_mem_cons] at h
    rw [intercalate_cons, List.flatMap_def]
    apply h.1.append
    apply flatten
    simp only [List.forall_mem_map]
    exact fun u mem => hs.append (h.2 u mem)

end Clean

/-! ## marks before lines -/

/-- What may be put before the lines of a text to keep hash signs from their starts. -/
structure IsMark (p : List Char) : Prop where
  filled : p ≠ []
  quiet : ∀ c ∈ p, c ≠ '\n' ∧ c ≠ '\r' ∧ c ≠ '#'

theorem IsMark.clean_append {p l : List Char} (h : IsMark p) (inLine : '\n' ∉ l)
    (returns : '\r' ∉ l) : Clean (p ++ l) := by
  obtain ⟨c, cs, rfl⟩ := List.exists_cons_of_ne_nil h.filled
  have quiet := h.quiet
  simp only [List.forall_mem_cons] at quiet
  obtain ⟨⟨newline, ret, hash⟩, others⟩ := quiet
  have later : '\n' ∉ cs ++ l := by
    rw [List.mem_append, not_or]
    exact ⟨fun mem => (others _ mem).1 rfl, inLine⟩
  have inside : (c == '\n') = false := by simpa using newline
  refine ⟨by simp [inside, hash, hashless_of_notMem later], ?_⟩
  simp only [List.cons_append, List.mem_cons, List.mem_append, not_or]
  exact ⟨Ne.symm ret, fun mem => (others _ mem).2.1 rfl, returns⟩

theorem IsMark.clean {p : List Char} (h : IsMark p) : Clean p := by
  simpa using h.clean_append (l := []) (by simp) (by simp)

theorem isMark_replicate {n : Nat} (h : n ≠ 0) : IsMark (List.replicate n ' ') where
  filled := by simp [h]
  quiet c mem := by
    rw [List.eq_of_mem_replicate mem]
    decide

/-- A number has digits, and maybe a sign. -/
theorem isMark_toString (n : Int) : IsMark (toString n).toList := by
  have digits (k : Nat) : IsMark k.repr.toList := by
    rw [Nat.toList_repr]
    refine ⟨Nat.toDigits_ne_nil, fun c mem => ?_⟩
    have digit : c.isDigit = true := Nat.isDigit_of_mem_toDigits (by decide) (by decide) mem
    refine ⟨?_, ?_, ?_⟩ <;> rintro rfl <;> contradiction
  rw [Int.toString_eq_repr, Int.repr_eq_if]
  split
  · exact digits _
  · have sign : ∀ c ∈ "-".toList, c ≠ '\n' ∧ c ≠ '\r' ∧ c ≠ '#' := by simp
    refine ⟨by simp, ?_⟩
    rw [String.toList_append, List.forall_mem_append]
    exact ⟨sign, (digits _).quiet⟩

theorem isMark_itemMark (ordered : Bool) (start : Int) (position : Nat) :
    IsMark (itemMark ordered start '-' position) := by
  have dot : ∀ c ∈ ['.', ' '], c ≠ '\n' ∧ c ≠ '\r' ∧ c ≠ '#' := by simp
  unfold itemMark
  split
  · refine ⟨by simp, ?_⟩
    rw [List.forall_mem_append]
    exact ⟨(isMark_toString _).quiet, dot⟩
  · exact ⟨by decide, by simp⟩

/-- In a container a text is clean, whatever hash signs it has. -/
theorem clean_indentLines {first rest blank : List Char} (hfirst : IsMark first)
    (hrest : IsMark rest) (hblank : Clean blank) {s : List Char} (h : '\r' ∉ s) :
    Clean (indentLines first rest blank s) := by
  unfold indentLines
  split
  · exact .nil
  · next l ls cut =>
    have inLine : ∀ m ∈ l :: ls, '\n' ∉ m ∧ '\r' ∉ m := by
      rw [← cut]
      exact fun m mem => ⟨Text.newline_notMem_of_mem_lines mem,
        fun inside => h (Text.mem_of_mem_lines mem inside)⟩
    simp only [List.forall_mem_cons] at inLine
    apply Clean.intercalate ⟨by decide, by decide⟩
    rw [List.forall_mem_cons, List.forall_mem_map]
    constructor
    · split
      · have shorter : Text.trimEnd first <+: first := Text.dropEndWhile_prefix _ _
        exact ⟨hashless_shorter hfirst.clean.hashes shorter,
          fun mem => hfirst.clean.returns (shorter.subset mem)⟩
      · exact hfirst.clean_append inLine.1.1 inLine.1.2
    · intro m mem
      unfold indentLater
      split
      · exact hblank
      · exact hrest.clean_append (inLine.2 m mem).1 (inLine.2 m mem).2

theorem clean_quoteLines {s : List Char} (h : '\r' ∉ s) : Clean (quoteLines s) := by
  have mark : IsMark ['>', ' '] := ⟨by decide, by simp⟩
  exact clean_indentLines mark mark ⟨by decide, by decide⟩ h

theorem clean_placeItem {mark s : List Char} (hmark : IsMark mark) (h : '\r' ∉ s) :
    Clean (placeItem mark s) :=
  clean_indentLines hmark (isMark_replicate (by simpa using hmark.filled)) .nil h

theorem clean_placeItems (ordered : Bool) (start : Int) (position : Nat)
    {bodies : List (List Char)} (h : ∀ s ∈ bodies, '\r' ∉ s) :
    ∀ t ∈ placeItems ordered start '-' position bodies, Clean t := by
  induction bodies generalizing position with
  | nil => simp [placeItems]
  | cons body bodies ih =>
    rw [List.forall_mem_cons] at h
    rw [placeItems, List.forall_mem_cons]
    exact ⟨clean_placeItem (isMark_itemMark ordered start position) h.1, ih (position + 1) h.2⟩

/-! ## texts in lines -/

theorem hashless_escapeFrom (place : Place) (before : Option Char) (mark : Option Nat)
    (s : List Char) : hashless (startsLine before) (escapeFrom place before mark s) = true := by
  induction s generalizing before mark with
  | nil => rfl
  | cons c cs ih =>
    rw [escapeFrom_cons]
    have later := ih (some c) (nearer (aim place before mark (c :: cs)))
    simp only [startsLine, Option.all_some] at later
    cases escaped : isEscaped place before (aim place before mark (c :: cs)) c cs.head? with
    | true => simp [backslashed, later]
    | false =>
      simp only [isEscaped, Bool.or_eq_false_iff] at escaped
      have hash := escaped.1.1.2
      rw [Bool.and_comm] at hash
      show hashless (startsLine before) (c :: escapeFrom place (some c) _ cs) = true
      rw [hashless_cons, hash, later]
      rfl

/-- Escaped text is clean, wherever it stands. -/
theorem clean_escape (place : Place) {s : List Char} (h : '\r' ∉ s) : Clean (escape place s) :=
  ⟨hashless_escapeFrom place none none s, fun mem => h (mem_of_mem_escape (by decide) mem)⟩

theorem clean_linkAround {content : List Char} {url : String} {title : Option String}
    (h : Clean (linkAround [] url title)) (inside : Clean content) :
    Clean (linkAround content url title) := by
  obtain ⟨behind, around⟩ :
      ∃ behind, ∀ inner, linkAround inner url title = '[' :: (inner ++ ']' :: behind) :=
    ⟨_, fun _ => rfl⟩
  rw [around, List.nil_append] at h
  have hashes := h.hashes
  have returns := h.returns
  simp at hashes returns
  have closed : Clean (']' :: behind) := ⟨by simpa using hashes, by simpa using returns⟩
  rw [around]
  exact (inside.append closed).cons (by decide) (by decide)

/-! ## tables -/

theorem clean_tableLine {cells : List (List Char)} (h : ∀ c ∈ cells, Clean c) :
    Clean (tableLine cells) := by
  have inside : Clean (" | ".toList.intercalate cells) := .intercalate ⟨by decide, by decide⟩ h
  have behind : Clean [' ', '|'] := ⟨by decide, by decide⟩
  exact ((inside.append behind).cons (by decide) (by decide)).cons (by decide) (by decide)

theorem mem_fit {α : Type} {n : Nat} {filler x : α} {xs : List α} (mem : x ∈ fit n filler xs) :
    x ∈ xs ∨ x = filler := by
  rw [fit, List.mem_append] at mem
  exact mem.imp List.mem_of_mem_take List.eq_of_mem_replicate

theorem clean_alignmentMark (alignment : Option String) : Clean (alignmentMark alignment) := by
  unfold alignmentMark
  split <;> exact ⟨by decide, by decide⟩

theorem clean_tableLines (alignments : List (Option String)) {rows : List (List (List Char))}
    (h : ∀ cells ∈ rows, ∀ c ∈ cells, Clean c) :
    Clean (Text.unlines (tableLines alignments rows)) := by
  have row (columns : Nat) {cells : List (List Char)} (mem : cells ∈ rows) :
      Clean (tableLine (fit columns [] cells)) := by
    apply clean_tableLine
    intro c there
    rcases mem_fit there with inside | rfl
    · exact h cells mem c inside
    · exact .nil
  have marks (columns : Nat) :
      Clean (tableLine ((fit columns none alignments).map alignmentMark)) := by
    apply clean_tableLine
    rw [List.forall_mem_map]
    exact fun alignment _ => clean_alignmentMark alignment
  apply Clean.intercalate ⟨by decide, by decide⟩
  cases rows with
  | nil => simp [tableLines]
  | cons cells rows =>
    simp only [tableLines, List.map_cons, List.forall_mem_cons, List.forall_mem_map]
    exact ⟨row _ List.mem_cons_self, marks _, fun _ mem => row _ (List.mem_cons_of_mem _ mem)⟩

/-! ## nodes -/

/-- Does a node stand above nodes of the kinds that it admits? -/
def Admits : Node → Prop
  | .leaf _ => True
  | .branch b kids => ∀ n ∈ kids, b.admits (Node.kind n) = true

theorem admits_of_fits {n : Node} (h : Node.Fits n) : Admits n := by
  cases n with
  | leaf l => trivial
  | branch b kids => exact fun m mem => h.admits _ (List.mem_map_of_mem mem)

/-- Is what a node itself brings clean?  Texts are escaped, and blocks of code or HTML may have
hash signs at the starts of their lines. -/
def isCalm : Node → Bool
  | .leaf (.text content) => decide ('\r' ∉ content.toList)
  | .leaf (.codeBlock content language) => decide ('\r' ∉ codeBlock {} content.toList language)
  | .leaf (.htmlBlock content) => decide ('\r' ∉ content.toList)
  | .leaf l => decide (Clean (writeLeaf {} {} l))
  | .branch (.link url title) _ => decide (Clean (linkAround [] url title))
  | .branch _ _ => true

/-- Are kinds and texts right everywhere in a node? -/
def Tame (n : Node) : Prop := ∀ m ∈ n.subtrees, Admits m ∧ isCalm m = true

theorem tame_branch {b : Branch} {kids : List Node} (h : Tame (.branch b kids)) :
    (∀ n ∈ kids, b.admits (Node.kind n) = true) ∧ isCalm (.branch b kids) = true ∧
      ∀ n ∈ kids, Tame n := by
  have here := h _ (mem_subtrees_self _)
  refine ⟨here.1, here.2, fun n mem m below => h m ?_⟩
  rw [subtrees_eq]
  exact List.mem_cons_of_mem _ (subtrees_subset_all kids n (mem_subtreesAll mem) below)

theorem isInline_of_tame {b : Branch} {kids : List Node} (h : Tame (.branch b kids))
    (holds : b.holdsInlines = true) : ∀ n ∈ kids, (Node.kind n).isInline = true := by
  intro n mem
  rw [← Branch.admits_of_holdsInlines holds]
  exact (tame_branch h).1 n mem

theorem isCalm_of_tame {n : Node} (h : Tame n) : isCalm n = true := (h n (mem_subtrees_self n)).2

mutual

/-- What is written in a line of text is clean. -/
theorem clean_write (depth : Nat) (place : Place) : (n : Node) → (Node.kind n).isInline = true →
    Tame n → Clean (write {} depth place n).1
  | .leaf l, inline, tame => by
    have calm := isCalm_of_tame tame
    rw [write]
    cases l with
    | text content => exact clean_escape place (of_decide_eq_true calm)
    | _ => first
        | contradiction
        | exact of_decide_eq_true calm
  | .branch b kids, inline, tame => by
    obtain ⟨-, calm, below⟩ := tame_branch tame
    have inside (holds : b.holdsInlines = true) : Clean (writeAll {} depth place kids).1.flatten :=
      .flatten (clean_writeAll depth place kids (isInline_of_tame tame holds) below)
    have star : Clean ['*'] := ⟨by decide, by decide⟩
    have tilde : Clean ['~'] := ⟨by decide, by decide⟩
    cases b with
    | emphasis =>
      rw [write]
      exact (star.append (inside rfl)).append star
    | strong =>
      rw [write]
      exact (star.append (star.append (inside rfl))).append (star.append star)
    | strikethrough =>
      rw [write]
      exact (tilde.append (tilde.append (inside rfl))).append (tilde.append tilde)
    | link url title =>
      rw [write]
      exact clean_linkAround (of_decide_eq_true calm) (inside rfl)
    | _ => contradiction

theorem clean_writeAll (depth : Nat) (place : Place) : (ns : List Node) →
    (∀ n ∈ ns, (Node.kind n).isInline = true) → (∀ n ∈ ns, Tame n) →
    ∀ t ∈ (writeAll {} depth place ns).1, Clean t
  | [], _, _ => by simp [writeAll]
  | n :: ns, inline, tame => by
    rw [List.forall_mem_cons] at inline tame
    rw [writeAll, List.forall_mem_cons]
    exact ⟨clean_write depth place n inline.1 tame.1, clean_writeAll depth _ ns inline.2 tame.2⟩

end

/-- The content of a branch that holds inline nodes. -/
theorem clean_content {b : Branch} {kids : List Node} (tame : Tame (.branch b kids))
    (holds : b.holdsInlines = true) (depth : Nat) (place : Place) :
    Clean (writeAll {} depth place kids).1.flatten :=
  .flatten (clean_writeAll depth place kids (isInline_of_tame tame holds) (tame_branch tame).2.2)

theorem clean_writeCells (depth : Nat) (place : Place) {ns : List Node}
    (tame : ∀ n ∈ ns, Tame n) : ∀ t ∈ (writeCells {} depth place ns).1, Clean t := by
  induction ns generalizing place with
  | nil => simp [writeCells]
  | cons n ns ih =>
    rw [List.forall_mem_cons] at tame
    have other (h : ∀ alignment kids, n ≠ .branch (.cell alignment) kids) :
        ∀ t ∈ (writeCells {} depth place (n :: ns)).1, Clean t := by
      rw [writeCells]
      · exact ih place tame.2
      · exact h
    cases n with
    | leaf l => exact other fun _ _ is => by cases is
    | branch b kids =>
      cases b with
      | cell alignment =>
        rw [writeCells, List.forall_mem_cons]
        exact ⟨clean_content tame.1 rfl depth place, ih _ tame.2⟩
      | _ => exact other fun _ _ is => by cases is

theorem clean_writeRows (depth : Nat) (place : Place) {ns : List Node}
    (tame : ∀ n ∈ ns, Tame n) :
    ∀ cells ∈ (writeRows {} depth place ns).1, ∀ t ∈ cells, Clean t := by
  induction ns generalizing place with
  | nil => simp [writeRows]
  | cons n ns ih =>
    rw [List.forall_mem_cons] at tame
    have other (h : ∀ isHeader kids, n ≠ .branch (.row isHeader) kids) :
        ∀ cells ∈ (writeRows {} depth place (n :: ns)).1, ∀ t ∈ cells, Clean t := by
      rw [writeRows]
      · rw [List.forall_mem_cons]
        exact ⟨by simp, ih place tame.2⟩
      · exact h
    cases n with
    | leaf l => exact other fun _ _ is => by cases is
    | branch b kids =>
      cases b with
      | row isHeader =>
        rw [writeRows, List.forall_mem_cons]
        exact ⟨clean_writeCells depth _ (tame_branch tame.1).2.2, ih _ tame.2⟩
      | _ => exact other fun _ _ is => by cases is

/-- Is a block one that may have a hash sign at the start of a line? -/
def mayHash : Kind → Bool
  | .heading | .codeBlock | .htmlBlock => true
  | _ => false

theorem bulletAt_default (depth : Nat) : bulletAt {} depth = '-' := by
  have one : ({} : WritingOptions).bullets.length = 1 := rfl
  rw [bulletAt, one, Nat.mod_one]
  rfl

theorem return_notMem_joinBlocks (tight : Bool) {ts : List (List Char)} (h : ∀ t ∈ ts, '\r' ∉ t) :
    '\r' ∉ joinBlocks (spacing tight) ts := by
  intro mem
  rcases mem_intercalate mem with separator | ⟨t, there, inside⟩
  · cases tight <;> exact absurd separator (by decide)
  · exact h t (List.mem_of_mem_filter there) inside

mutual

/-- A block is written without carriage returns, and clean if it is no heading, code or HTML. -/
theorem write_block (depth : Nat) (place : Place) : (n : Node) → (Node.kind n).isBlock = true →
    Tame n → '\r' ∉ (write {} depth place n).1 ∧
      (mayHash (Node.kind n) = false → Clean (write {} depth place n).1)
  | .leaf l, block, tame => by
    have calm := isCalm_of_tame tame
    rw [write]
    cases l with
    | codeBlock content language => exact ⟨of_decide_eq_true calm, nofun⟩
    | htmlBlock content => exact ⟨of_decide_eq_true calm, nofun⟩
    | thematicBreak =>
      have clean : Clean ['-', '-', '-'] := of_decide_eq_true calm
      exact ⟨clean.returns, fun _ => clean⟩
    | _ => contradiction
  | .branch b kids, block, tame => by
    obtain ⟨admits, -, below⟩ := tame_branch tame
    have whole {t : List Char} (h : Clean t) : '\r' ∉ t ∧ (mayHash b.kind = false → Clean t) :=
      ⟨h.returns, fun _ => h⟩
    cases b with
    | heading level =>
      refine ⟨?_, nofun⟩
      have returns := (clean_content tame rfl depth { place with inHeading := true }).returns
      rw [write]
      simpa [List.mem_replicate] using returns
    | paragraph =>
      rw [write]
      exact whole (clean_content tame rfl depth place)
    | quote =>
      rw [write]
      apply whole
      apply clean_quoteLines
      exact return_notMem_joinBlocks false (writeAll_blocks depth place kids admits below)
    | list ordered start tight =>
      have items : ∀ n ∈ kids, Node.kind n = .item := by
        simpa [Branch.admits] using admits
      have bodies := writeItems_blocks (depth + 1) place tight kids items below
      rw [write, bulletAt_default]
      apply whole
      apply Clean.intercalate
      · cases tight <;> exact ⟨by decide, by decide⟩
      · exact clean_placeItems ordered start 0 bodies
    | table alignments =>
      rw [write]
      exact whole (clean_tableLines alignments (clean_writeRows depth place below))
    | _ => contradiction

theorem writeAll_blocks (depth : Nat) (place : Place) : (ns : List Node) →
    (∀ n ∈ ns, (Node.kind n).isBlock = true) → (∀ n ∈ ns, Tame n) →
    ∀ t ∈ (writeAll {} depth place ns).1, '\r' ∉ t
  | [], _, _ => by simp [writeAll]
  | n :: ns, blocks, tame => by
    rw [List.forall_mem_cons] at blocks tame
    rw [writeAll, List.forall_mem_cons]
    exact ⟨(write_block depth place n blocks.1 tame.1).1,
      writeAll_blocks depth _ ns blocks.2 tame.2⟩

theorem writeItems_blocks (depth : Nat) (place : Place) (tight : Bool) : (ns : List Node) →
    (∀ n ∈ ns, Node.kind n = .item) → (∀ n ∈ ns, Tame n) →
    ∀ t ∈ (writeItems {} depth place tight ns).1, '\r' ∉ t
  | [], _, _ => by simp [writeItems]
  | .leaf l :: ns, items, _ => by
    rw [List.forall_mem_cons] at items
    have item := items.1
    cases l <;> contradiction
  | .branch b kids :: ns, items, tame => by
    rw [List.forall_mem_cons] at items tame
    have item := items.1
    cases b with
    | item task =>
      obtain ⟨admits, -, below⟩ := tame_branch tame.1
      have box : '\r' ∉ taskBox task := by
        rcases task with - | ⟨⟨⟩⟩ <;> decide
      have body := return_notMem_joinBlocks tight (writeAll_blocks depth place kids admits below)
      rw [writeItems, List.forall_mem_cons, List.mem_append, not_or]
      exact ⟨⟨box, body⟩, writeItems_blocks depth _ tight ns items.2 tame.2⟩
    | _ => contradiction

end

end Docsite.Markdown
