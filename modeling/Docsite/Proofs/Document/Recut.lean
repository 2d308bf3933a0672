import Docsite.Document.OfTokens

/-!
# Docsite.Proofs.Document.Recut

Documents do not show how a tokenizer has cut their text.

A tokenizer may hand over a run of text in one token or in several, and may put tokens between
them that documents have no node for.  `Recut` says that two sequences of tokens differ in
nothing else, anywhere in them, and such sequences have the same document
(`Recut.nodes_eq`).  What the document has of the text is read off the tokens in
`textContents_nodes`: the pieces of the tokens of a line, in their order.

What a token may be changed to depends on the reader of the list that it stands in, its
`Place`.  Every token of a list stands for an item and every token of a table body for a row,
whatever its kind, so there a text token is no run of text and is left whole.
-/

namespace Docsite.Document

open Markdown (Token)

/-! ## places -/

/-- How the tokens of a sequence are read. -/
inductive Place where
  | blocks
  /-- In a list. -/
  | items
  /-- In a table. -/
  | parts
  /-- In the body of a table. -/
  | rows
  | cells
  | line
  /-- In a token whose inside makes no nodes. -/
  | unread
  deriving DecidableEq, Repr

namespace Place

/-- Does a token of the kind have a node at the place? -/
def supports : Place → Token.Kind → Bool
  | blocks, kind =>
    kind ∈ [.heading, .paragraph, .blockText, .blockCode, .blockQuote, .list, .table,
      .thematicBreak, .blockHtml]
  | items, _ | rows, _ => true
  | parts, kind => kind ∈ [.tableHead, .tableBody]
  | cells, kind => kind == .tableCell
  | line, kind =>
    kind ∈ [.text, .softBreak, .lineBreak, .strong, .emphasis, .strikethrough, .codeSpan, .link,
      .image, .inlineHtml]
  | unread, _ => false

/-- The place of the tokens inside a token. -/
def inside : Place → Token.Kind → Place
  | items, _ => blocks
  | rows, _ => cells
  | cells, .tableCell => line
  | parts, .tableHead => cells
  | parts, .tableBody => rows
  | blocks, .heading | blocks, .paragraph | blocks, .blockText => line
  | blocks, .blockQuote => blocks
  | blocks, .list => items
  | blocks, .table => parts
  | line, .strong | line, .emphasis | line, .strikethrough | line, .link => line
  | _, _ => unread

/-- The nodes of tokens at a place. -/
def nodes : Place → List Token → List Node
  | blocks => Document.blocks
  | items => Document.items
  | parts => Document.rows
  | rows => bodyRows
  | cells => Document.cells
  | line => inlines
  | unread => fun _ => []

end Place

/-! ## cutting text -/

/-- The second sequence of tokens is the first with texts cut into more tokens, and with tokens
that have no node put in between, at any depth. -/
inductive Recut : Place → List Token → List Token → Prop
  | nil (p : Place) : Recut p [] []
  | same {p : Place} {kind : Token.Kind} {inside inside' ts us : List Token} (raw : String)
      (attributes : Token.Attributes) (tight : Option Bool)
      (within : Recut (p.inside kind) inside inside') (rest : Recut p ts us) :
      Recut p (.mk kind raw attributes tight inside :: ts)
        (.mk kind raw attributes tight inside' :: us)
  | cut {p : Place} {whole : Token} {pieces ts us : List Token} (merges : p ≠ .items ∧ p ≠ .rows)
      (text : whole.kind = .text) (texts : ∀ t ∈ pieces, t.kind = .text) (some : pieces ≠ [])
      (joined : String.join (pieces.map Token.raw) = whole.raw) (rest : Recut p ts us) :
      Recut p (whole :: ts) (pieces ++ us)
  | insert {p : Place} {t : Token} {ts us : List Token} (among : p = .line ∨ p = .unread)
      (unsupported : Place.line.supports t.kind = false) (rest : Recut p ts us) :
      Recut p ts (t :: us)
  | trans {p : Place} {ts us vs : List Token} (first : Recut p ts us) (next : Recut p us vs) :
      Recut p ts vs

/-- Tokens that are left as they are. -/
theorem Recut.refl (p : Place) : (ts : List Token) → Recut p ts ts
  | [] => .nil p
  | .mk kind raw attributes tight inside :: ts =>
    .same raw attributes tight (Recut.refl (p.inside kind) inside) (Recut.refl p ts)

section

variable {p : Place} {t : Token} {pieces ts us : List Token}

/-! ## runs of text -/

theorem consInline_text (a b : String) (ns : List Node) :
    consInline (.text a) (consInline (.text b) ns) = consInline (.text (a ++ b)) ns := by
  cases ns with
  | nil => rfl
  | cons n ns =>
    cases n with
    | branch b kids => rfl
    | leaf l =>
      cases l with
      | text c => simp [consInline, String.append_assoc]
      | _ => rfl

/-- Text tokens in a row are one run of text. -/
theorem inlines_texts (texts : ∀ t ∈ pieces, t.kind = .text) (some : pieces ≠ []) :
    inlines (pieces ++ us) =
      consInline (.text (String.join (pieces.map Token.raw))) (inlines us) := by
  induction pieces with
  | nil => contradiction
  | cons t rest ih =>
    obtain ⟨kind, raw, attributes, tight, inside⟩ := t
    obtain rfl : kind = .text := texts _ List.mem_cons_self
    have here : inlines (.mk .text raw attributes tight inside :: (rest ++ us)) =
        consInline (.text raw) (inlines (rest ++ us)) := by
      rw [inlines, inline?]
    rw [List.cons_append, here, List.map_cons, String.join_cons]
    cases rest with
    | nil => simp [Token.raw]
    | cons u rest =>
      rw [ih (fun v mem => texts v (List.mem_cons_of_mem _ mem)) (by simp), consInline_text]
      rfl

/-! ## what else is read off tokens -/

theorem imageAlt_eq_join (inside : List Token) :
    imageAlt inside = String.join ((inside.filter (·.kind == .text)).map Token.raw) := by
  rw [imageAlt, ← String.toList_inj, String.toList_ofList, String.toList_join, List.flatMap_map]

theorem imageAlt_append (ts us : List Token) :
    imageAlt (ts ++ us) = imageAlt ts ++ imageAlt us := by
  simp [imageAlt_eq_join, String.join_append]

/-- The description of an image does not depend on how its texts are cut. -/
theorem Recut.imageAlt_eq (h : Recut .unread ts us) : imageAlt ts = imageAlt us := by
  generalize place : Place.unread = p at h
  induction h with
  | nil => rfl
  | @same p kind inside inside' ts us raw attributes tight within rest _ ih =>
    simp only [imageAlt, List.filter_cons, Token.kind] at ih ⊢
    split <;> simp_all [Token.raw]
  | @cut p whole pieces ts us merges text texts some joined rest ih =>
    have here : imageAlt [whole] = imageAlt pieces := by
      have all : pieces.filter (·.kind == .text) = pieces := by simpa using texts
      simp [imageAlt_eq_join, text, all, joined, String.join_cons]
    rw [← List.singleton_append, imageAlt_append, imageAlt_append, here, ih place]
  | @insert p t ts us among unsupported rest ih =>
    have other : (t.kind == .text) = false := by
      cases kind : t.kind <;> simp_all [Place.supports]
    rw [ih place]
    simp [imageAlt, other]
  | trans _ _ first next => exact (first place).trans (next place)

section

variable {α : Type} {f : List Token → α}

/-- A reader that has nothing to say of text tokens passes over them. -/
theorem read_texts (passes : ∀ t ts, t.kind = .text → f (t :: ts) = f ts)
    (texts : ∀ t ∈ pieces, t.kind = .text) : f (pieces ++ us) = f us := by
  induction pieces with
  | nil => rfl
  | cons t rest ih =>
    rw [List.cons_append, passes t _ (texts t List.mem_cons_self)]
    exact ih fun u mem => texts u (List.mem_cons_of_mem _ mem)

/-- Outside of lines such a reader reads the same if it does where the insides of one token were
cut. -/
theorem Recut.read_eq (h : Recut p ts us) (apart : p ≠ .line ∧ p ≠ .unread)
    (passes : ∀ t ts, t.kind = .text → f (t :: ts) = f ts)
    (within : ∀ kind raw attributes tight inside inside' ts us,
      Recut (p.inside kind) inside inside' → Recut p ts us → f ts = f us →
        f (.mk kind raw attributes tight inside :: ts) =
          f (.mk kind raw attributes tight inside' :: us)) : f ts = f us := by
  induction h with
  | nil => rfl
  | same raw attributes tight cut rest _ ih =>
    exact within _ raw attributes tight _ _ _ _ cut rest (ih apart within)
  | cut merges text texts some joined rest ih =>
    rw [passes _ _ text, read_texts passes texts, ih apart within]
  | insert among unsupported rest ih =>
    obtain rfl | rfl := among <;> simp at apart
  | trans _ _ first next => exact (first apart within).trans (next apart within)

end

/-- How texts are cut does not show in the alignments of the cells of a row. -/
theorem Recut.cellAlignments_eq (h : Recut .cells ts us) :
    cellAlignments ts = cellAlignments us := by
  refine h.read_eq (by decide) ?_ ?_
  · rintro ⟨kind, raw, attributes, tight, inside⟩ ts rfl
    rfl
  · intro kind raw attributes tight inside inside' ts us _ _ same
    cases kind <;> simp [cellAlignments, same]

/-- Nor does it show in whether a table has a header. -/
theorem Recut.any_tableHead_eq (h : Recut .parts ts us) :
    ts.any (·.kind == .tableHead) = us.any (·.kind == .tableHead) := by
  refine h.read_eq (f := fun ts => ts.any (·.kind == .tableHead)) (by decide) ?_ ?_
  · intro t ts text
    simp [text]
  · intro kind raw attributes tight inside inside' ts us _ _ same
    rw [List.any_cons, List.any_cons, same]
    rfl

/-- Nor in the alignments of the columns of a table. -/
theorem Recut.columnAlignments_eq (h : Recut .parts ts us) :
    columnAlignments ts = columnAlignments us := by
  refine h.read_eq (by decide) ?_ ?_
  · rintro ⟨kind, raw, attributes, tight, inside⟩ ts rfl
    rfl
  · intro kind raw attributes tight inside inside' ts us cut rest same
    cases kind with
    | tableHead =>
      simp [columnAlignments, same, rest.any_tableHead_eq, Recut.cellAlignments_eq cut]
    | _ => simp [columnAlignments, same]

/-! ## nodes -/

/-- A text token is read at a line only; elsewhere it has no node, or counts whatever its kind. -/
theorem nodes_text (merges : p ≠ .items ∧ p ≠ .rows) (other : p ≠ .line) (text : t.kind = .text) :
    p.nodes (t :: ts) = p.nodes ts := by
  obtain ⟨kind, raw, attributes, tight, inside⟩ := t
  obtain rfl : kind = .text := text
  cases p with
  | items | rows | line => simp at merges other
  | blocks | parts | cells | unread => rfl

/-- **The nodes that tokens describe do not depend on how texts are cut.** -/
theorem Recut.nodes_eq (h : Recut p ts us) : p.nodes ts = p.nodes us := by
  induction h with
  | nil => rfl
  | @same p kind inside inside' ts us raw attributes tight within rest ih_within ih =>
    cases p with
    | blocks =>
      have here : block? (.mk kind raw attributes tight inside) =
          block? (.mk kind raw attributes tight inside') := by
        cases kind with
        | table =>
          have header : columnAlignments inside = columnAlignments inside' :=
            Recut.columnAlignments_eq within
          simp_all [block?, Place.inside, Place.nodes]
        | _ => simp_all [block?, Place.inside, Place.nodes]
      simp_all [Place.nodes, blocks]
    | items => simp_all [Place.nodes, Place.inside, items]
    | parts => cases kind <;> simp_all [Place.nodes, Place.inside, rows]
    | rows => simp_all [Place.nodes, Place.inside, bodyRows]
    | cells => cases kind <;> simp_all [Place.nodes, Place.inside, cells]
    | line =>
      have here : inline? (.mk kind raw attributes tight inside) =
          inline? (.mk kind raw attributes tight inside') := by
        cases kind with
        | image =>
          have alt : imageAlt inside = imageAlt inside' := Recut.imageAlt_eq within
          simp_all [inline?]
        | _ => simp_all [inline?, Place.inside, Place.nodes]
      simp_all [Place.nodes, inlines]
    | unread => rfl
  | @cut p whole pieces ts us merges text texts some joined rest ih =>
    by_cases line : p = .line
    · subst line
      have whole : inlines (whole :: ts) = consInline (.text whole.raw) (inlines ts) := by
        obtain ⟨kind, raw, attributes, tight, inside⟩ := whole
        obtain rfl : kind = .text := text
        rw [inlines, inline?]
        rfl
      have merged : inlines (pieces ++ us) = _ := inlines_texts texts some
      simp only [Place.nodes] at ih ⊢
      rw [whole, merged, joined, ih]
    · rw [nodes_text merges line text, read_texts (fun t ts => nodes_text merges line) texts, ih]
  | @insert p t ts us among unsupported rest ih =>
    obtain ⟨kind, raw, attributes, tight, inside⟩ := t
    obtain rfl | rfl := among
    · have none : inline? (.mk kind raw attributes tight inside) = none := by
        cases kind <;> simp_all [Place.supports, Token.kind, inline?]
      simp only [Place.nodes, inlines, none] at ih ⊢
      exact ih
    · rfl
  | trans _ _ first next => exact first.trans next

end

/-! ## the text of a document -/

/-- The text that the node of a token in a line has by itself. -/
def ownText : Token → String
  | .mk .text raw _ _ _ | .mk .codeSpan raw _ _ _ => raw
  | .mk .softBreak _ _ _ _ => "\n"
  | .mk .image _ _ _ inside => String.join ((inside.filter (·.kind == .text)).map Token.raw)
  | _ => ""

mutual

/-- The tokens in lines that have a node, in their order. -/
def lineTokens : Place → List Token → List Token
  | _, [] => []
  | p, t :: ts => lineTokensAt p t ++ lineTokens p ts

/-- A token, if it stands in a line and has a node, and the tokens in lines inside it. -/
def lineTokensAt : Place → Token → List Token
  | p, .mk kind raw attributes tight inside =>
    if p.supports kind then
      (if p = .line then [.mk kind raw attributes tight inside] else [])
        ++ lineTokens (p.inside kind) inside
    else []

end

@[simp] theorem lineTokens_unread (ts : List Token) : lineTokens .unread ts = [] := by
  induction ts with
  | nil => rfl
  | cons t ts ih =>
    obtain ⟨kind, raw, attributes, tight, inside⟩ := t
    simp [lineTokens, lineTokensAt, Place.supports, ih]

/-- The text of tokens at a place. -/
def textOf (p : Place) (ts : List Token) : String := String.join ((lineTokens p ts).map ownText)

theorem textOf_cons (p : Place) (t : Token) (ts : List Token) :
    textOf p (t :: ts) = String.join ((lineTokensAt p t).map ownText) ++ textOf p ts := by
  simp [textOf, lineTokens, String.join_append]

theorem textContents_append (ns ms : List Node) :
    Node.textContents (ns ++ ms) = Node.textContents ns ++ Node.textContents ms := by
  induction ns with
  | nil => simp [Node.textContents]
  | cons n ns ih => simp [Node.textContents, ih, String.append_assoc]

/-- Runs of text that join keep their text. -/
theorem textContents_consInline (n : Node) (ns : List Node) :
    Node.textContents (consInline n ns) = Node.textContent n ++ Node.textContents ns := by
  unfold consInline
  split
  · simp [Node.textContents, Node.textContent, String.append_assoc]
  · rw [Node.textContents]

/-- The text of the nodes of some tokens is that of the tokens in lines. -/
theorem textContents_nodes (p : Place) :
    (ts : List Token) → Node.textContents (p.nodes ts) = textOf p ts
  | [] => by cases p <;> rfl
  | .mk kind raw attributes tight inside :: ts => by
    have within := textContents_nodes (p.inside kind) inside
    have rest := textContents_nodes p ts
    rw [textOf_cons, ← rest]
    cases p with
    | blocks =>
      cases kind <;>
        simp_all [Place.nodes, blocks, block?, lineTokensAt, Place.supports, Place.inside,
          Node.textContents, Node.textContent, textOf]
    | items =>
      simp_all [Place.nodes, items, lineTokensAt, Place.supports, Place.inside,
        Node.textContents, Node.textContent, textOf]
    | parts =>
      cases kind <;>
        simp_all [Place.nodes, rows, lineTokensAt, Place.supports, Place.inside,
          Node.textContents, Node.textContent, textOf, textContents_append]
    | rows =>
      simp_all [Place.nodes, bodyRows, lineTokensAt, Place.supports, Place.inside,
        Node.textContents, Node.textContent, textOf]
    | cells =>
      cases kind <;>
        simp_all [Place.nodes, cells, lineTokensAt, Place.supports, Place.inside,
          Node.textContents, Node.textContent, textOf]
    | line =>
      cases kind <;>
        simp_all [Place.nodes, inlines, inline?, lineTokensAt, Place.supports, Place.inside,
          Node.textContents, Node.textContent, textOf, textContents_consInline, ownText,
          imageAlt_eq_join]
    | unread => simp_all [Place.nodes, lineTokensAt, Place.supports, Node.textContents]

/-- **A document does not show how its text was cut into tokens**: tokens that differ in nothing
else have the same document, and the text of the document is that of the tokens in its lines. -/
theorem ofTokens_recut :
    (∀ ts us : List Token, Recut .blocks ts us → ofTokens ts = ofTokens us) ∧
      ∀ ts : List Token, Node.textContent (ofTokens ts) =
        String.join ((lineTokens .blocks ts).map ownText) := by
  constructor
  · intro ts us h
    have same : blocks ts = blocks us := h.nodes_eq
    rw [ofTokens, ofTokens, same]
  · intro ts
    rw [ofTokens, Node.document, Node.textContent]
    exact textContents_nodes .blocks ts

/-- The sentence of a problem example as one tokenizer may cut it: the words before the emphasis
in two tokens with an unknown one between them, and an image with its description cut too. -/
def sentenceCut : List Token :=
  [.around .paragraph
    [.ofRaw .text "The following ", .ofRaw (.other "footnote_ref") "1",
      .ofRaw .text "patterns are ", .around .emphasis [.ofRaw .text "no", .ofRaw .text "t"],
      .ofRaw .text " problems:", .around .image [.ofRaw .text "a", .ofRaw (.other "math") "m", .ofRaw .text "b"]]]

theorem ofTokens_recut_sentence :
    let whole : List Token :=
      [.around .paragraph
        [.ofRaw .text "The following patterns are ", .around .emphasis [.ofRaw .text "not"],
          .ofRaw .text " problems:", .around .image [.ofRaw .text "ab"]]]
    Recut .blocks whole sentenceCut ∧ ofTokens whole = ofTokens sentenceCut ∧
      Node.textContent (ofTokens whole) = "The following patterns are not problems:ab" := by
  have emphasis : Recut .line [.ofRaw .text "not"] ([.ofRaw .text "no", .ofRaw .text "t"] ++ []) :=
    .cut (by decide) rfl (by decide) (by decide) (by decide) (.nil _)
  have texts : Recut .unread [.ofRaw .text "ab"] ([.ofRaw .text "a", .ofRaw .text "b"] ++ []) :=
    .cut (by decide) rfl (by decide) (by decide) (by decide) (.nil _)
  have image : Recut .unread [.ofRaw .text "ab"]
      [.ofRaw .text "a", .ofRaw (.other "math") "m", .ofRaw .text "b"] :=
    .trans texts (.same _ _ _ (.nil _) (.insert (.inr rfl) (by decide) (.refl _ _)))
  have rest : Recut .line
      [.around .emphasis [.ofRaw .text "not"], .ofRaw .text " problems:",
        .around .image [.ofRaw .text "ab"]]
      [.around .emphasis [.ofRaw .text "no", .ofRaw .text "t"], .ofRaw .text " problems:",
        .around .image [.ofRaw .text "a", .ofRaw (.other "math") "m", .ofRaw .text "b"]] :=
    .same _ _ _ emphasis (.same _ _ _ (.nil _) (.same _ _ _ image (.nil _)))
  have words : Recut .line
      (.ofRaw .text "The following patterns are " :: [.around .emphasis [.ofRaw .text "not"],
        .ofRaw .text " problems:", .around .image [.ofRaw .text "ab"]])
      ([.ofRaw .text "The following ", .ofRaw .text "patterns are "] ++ _) :=
    .cut (by decide) rfl (by decide) (by decide) (by decide) rest
  have h : Recut .blocks
      [.around .paragraph
        [.ofRaw .text "The following patterns are ", .around .emphasis [.ofRaw .text "not"],
          .ofRaw .text " problems:", .around .image [.ofRaw .text "ab"]]] sentenceCut :=
    .same _ _ _ (.trans words (.same _ _ _ (.nil _) (.insert (.inl rfl) (by decide) (.refl _ _))))
      (.nil _)
  refine ⟨h, ofTokens_recut.1 _ _ h, ?_⟩
  rw [ofTokens_recut.2]
  decide

/-- A text token that stands in a list counts as an item of it, so a list with such a token has
one more item when the token is cut. -/
theorem ofTokens_text_items :
    ofTokens [.around .list [.ofRaw .text "ab"]] ≠
      ofTokens [.around .list [.ofRaw .text "a", .ofRaw .text "b"]] := by
  simp [ofTokens, blocks, block?, items, Token.around, Token.ofRaw]

end Docsite.Document
