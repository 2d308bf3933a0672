import Docsite.Proofs.Document.OfTokens
import Docsite.Proofs.Pass.Admonitions
import Docsite.Proofs.Pass.Examples
import Docsite.Proofs.Pass.Links
import Docsite.Proofs.Pass.Relay
import Docsite.Proofs.Pass.Symbols

/-!
# Docsite.Proofs.Pass.Shape

Passes keep documents well shaped.

Two of the passes put blocks among the children of a node.  They do so only where a block
stands already, and there any blocks fit; everywhere else they keep the kinds of the children.
The other two change the labels of nodes, and the new labels fit where the old ones do.
-/

namespace Docsite.Pass

open Document Docsite.Tree

/-! ## links -/

section

variable {rewriter : Link.Rewriter}

theorem fits_relabelled {b b' : Branch} (h : relabelled rewriter b = .ok b') {kinds : List Kind}
    (fits : b.Fits kinds) : b'.Fits kinds ∧ b'.kind = b.kind := by
  cases b with
  | link url title =>
    cases answer : rewriter url with
    | ok new =>
      simp only [relabelled, answer, Except.map, Except.ok.injEq] at h
      subst h
      exact ⟨⟨(fun _ is => by cases is), fits.admits, fits.apart⟩, rfl⟩
    | error refusal => simp [relabelled, answer, Except.map] at h
  | _ =>
    cases h
    exact ⟨fits, rfl⟩

end

mutual

theorem shape_relinked (rewriter : Link.Rewriter) : (n : Node) → Node.WellShaped n →
    Node.WellShaped (relinked rewriter n).1 ∧
      Node.kind (relinked rewriter n).1 = Node.kind n
  | .leaf l, _ => ⟨Node.wellShaped_leaf l, rfl⟩
  | .branch b kids, h => by
    rw [relinked]
    cases label : relabelled rewriter b with
    | error refusal => exact ⟨h, rfl⟩
    | ok b' =>
      rw [Node.wellShaped_branch] at h
      obtain ⟨below, kinds⟩ := shape_relinkedAll rewriter kids h.2
      obtain ⟨fits, kind⟩ := fits_relabelled label h.1
      exact ⟨Node.wellShaped_branch.mpr ⟨by rwa [kinds], below⟩, kind⟩

theorem shape_relinkedAll (rewriter : Link.Rewriter) : (ns : List Node) →
    Node.WellShapedAll ns → Node.WellShapedAll (relinkedAll rewriter ns).1 ∧
      (relinkedAll rewriter ns).1.map Node.kind = ns.map Node.kind
  | [], h => ⟨h, rfl⟩
  | n :: ns, h => by
    rw [Node.wellShapedAll_cons] at h
    obtain ⟨here, kind⟩ := shape_relinked rewriter n h.1
    obtain ⟨rest, kinds⟩ := shape_relinkedAll rewriter ns h.2
    rw [relinkedAll]
    cases (relinked rewriter n).2 with
    | none =>
      exact ⟨Node.wellShapedAll_cons.mpr ⟨here, rest⟩, by simp only [List.map_cons, kind, kinds]⟩
    | some refusal =>
      exact ⟨Node.wellShapedAll_cons.mpr ⟨here, h.2⟩, by simp only [List.map_cons, kind]⟩

end

/-! ## symbols -/

/-- A run of text may become raw HTML; nothing else changes its kind. -/
theorem kind_annotated (tables : Tables) (n : Node) :
    Node.kind (annotated tables n) = Node.kind n ∨
      Node.kind n = .text ∧ Node.kind (annotated tables n) = .htmlInline := by
  cases n with
  | branch b kids => exact .inl rfl
  | leaf l =>
    rw [annotated, annotatedLeaf]
    cases labelled : symbolLabel? tables (.leaf l) with
    | none => exact .inl rfl
    | some label =>
      cases l <;> first
        | exact .inr ⟨rfl, rfl⟩
        | contradiction

section

variable {tables : Tables}

theorem kind_eq_text_of_annotated {n : Node} (h : Node.kind (annotated tables n) = .text) :
    Node.kind n = .text := by
  rcases kind_annotated tables n with same | ⟨text, -⟩
  · rwa [← same]
  · exact text

/-- Raw HTML fits where a run of text does. -/
theorem fits_annotatedAll {b : Branch} {kids : List Node} (fits : b.Fits (kids.map Node.kind)) :
    b.Fits ((annotatedAll tables kids).map Node.kind) := by
  rw [annotatedAll_eq_map, List.map_map]
  refine ⟨fits.level, ?_, ?_⟩
  · rw [List.forall_mem_map]
    intro n mem
    have admitted := List.forall_mem_map.mp fits.admits n mem
    rcases kind_annotated tables n with same | ⟨text, html⟩
    · rwa [Function.comp_apply, same]
    · rw [Function.comp_apply, html]
      rw [text] at admitted
      cases b <;> first
        | rfl
        | contradiction
  · have apart := fits.apart
    rw [Kind.Apart, List.isChain_map] at apart ⊢
    exact apart.imp fun n m apart both =>
      apart ⟨kind_eq_text_of_annotated both.1, kind_eq_text_of_annotated both.2⟩

end

mutual

theorem shape_annotated (tables : Tables) : (n : Node) → Node.WellShaped n →
    Node.WellShaped (annotated tables n)
  | .leaf l, h => by
    rw [annotated, annotatedLeaf]
    split
    · exact Node.wellShaped_leaf _
    · exact h
  | .branch b kids, h => by
    rw [Node.wellShaped_branch] at h
    rw [annotated, Node.wellShaped_branch]
    exact ⟨fits_annotatedAll h.1, shape_annotatedAll tables kids h.2⟩

theorem shape_annotatedAll (tables : Tables) : (ns : List Node) → Node.WellShapedAll ns →
    Node.WellShapedAll (annotatedAll tables ns)
  | [], h => h
  | n :: ns, h => by
    rw [Node.wellShapedAll_cons] at h
    rw [annotatedAll, Node.wellShapedAll_cons]
    exact ⟨shape_annotated tables n h.1, shape_annotatedAll tables ns h.2⟩

end

/-! ## examples -/

section

variable {tables : Tables}

theorem kind_wrapped (n : Node) : Node.kind (wrapped tables n) = Node.kind n := by
  cases n with
  | leaf l => rw [wrapped]
  | branch b kids =>
    rw [wrapped]
    split <;> rfl

theorem kind_of_isTrigger {n : Node} (h : isTrigger tables n = true) :
    Node.kind n = .paragraph := by
  unfold isTrigger at h
  split at h
  · rfl
  · contradiction

/-- Without a trigger among them, siblings keep their kinds. -/
theorem kinds_wrappedSiblings {ns : List Node} (h : ∀ n ∈ ns, isTrigger tables n = false) :
    (wrappedSiblings tables false ns).map Node.kind = ns.map Node.kind := by
  induction ns with
  | nil => rfl
  | cons n ns ih =>
    rw [List.forall_mem_cons] at h
    rw [wrappedSiblings_of_other ns rfl h.1, List.map_cons, List.map_cons, kind_wrapped, ih h.2]

theorem wrapped_of_isTrigger {n : Node} (h : isTrigger tables n = true) :
    wrapped tables n = n := by
  cases n with
  | leaf l => contradiction
  | branch b kids => rw [wrapped, if_pos h]

/-- What holds of divisions and of each sibling once it is wrapped, holds of all that comes
out. -/
theorem forall_wrappedSiblings {P : Node → Prop} (opening : ∀ valid, P (openingDivision valid))
    (closing : P closingDivision) {ns : List Node} (each : ∀ n ∈ ns, P (wrapped tables n)) (inside : Bool) :
    ∀ m ∈ wrappedSiblings tables inside ns, P m := by
  induction ns generalizing inside with
  | nil => cases inside <;> simp [wrappedSiblings, closing]
  | cons n ns ih =>
    rw [List.forall_mem_cons] at each
    have shut (ends : Bool) : ∀ m ∈ (if ends then [closingDivision] else []), P m := by
      cases ends <;> simp [closing]
    rw [wrappedSiblings]
    cases trigger : isTrigger tables n with
    | true =>
      have here := each.1
      rw [wrapped_of_isTrigger trigger] at here
      rw [if_pos rfl, List.forall_mem_append, List.forall_mem_cons, List.forall_mem_cons]
      exact ⟨shut _, here, opening _, ih each.2 true⟩
    | false =>
      rw [if_neg Bool.false_ne_true, List.forall_mem_append, List.forall_mem_cons]
      exact ⟨shut _, each.1, ih each.2 _⟩

/-- Among nodes that are no blocks there is no trigger, and blocks stay blocks. -/
theorem fits_wrappedSiblings {b : Branch} {kids : List Node}
    (fits : b.Fits (kids.map Node.kind)) :
    b.Fits ((wrappedSiblings tables false kids).map Node.kind) := by
  apply Node.fits_of_instead fits
  · intro blocks
    apply forall_wrappedSiblings
    · exact fun valid => rfl
    · rfl
    · intro n mem
      rw [kind_wrapped]
      exact blocks n mem
  · intro others
    apply kinds_wrappedSiblings
    intro n mem
    cases trigger : isTrigger tables n with
    | false => rfl
    | true =>
      have other := others n mem
      rw [kind_of_isTrigger trigger] at other
      contradiction

end

mutual

theorem shape_wrapped (tables : Tables) : (n : Node) → Node.WellShaped n →
    Node.WellShaped (wrapped tables n)
  | .leaf l, h => by rwa [wrapped]
  | .branch b kids, h => by
    rw [wrapped]
    split
    · exact h
    · rw [Node.wellShaped_branch] at h ⊢
      exact ⟨fits_wrappedSiblings h.1, Node.wellShapedAll_iff.mpr
        (forall_wrappedSiblings (fun _ => Node.wellShaped_leaf _) (Node.wellShaped_leaf _)
          (shape_wrappedEach tables kids h.2) false)⟩

theorem shape_wrappedEach (tables : Tables) : (ns : List Node) → Node.WellShapedAll ns →
    ∀ n ∈ ns, Node.WellShaped (wrapped tables n)
  | [], _ => by simp
  | n :: ns, h => by
    rw [Node.wellShapedAll_cons] at h
    rw [List.forall_mem_cons]
    exact ⟨shape_wrapped tables n h.1, shape_wrappedEach tables ns h.2⟩

end

/-! ## admonitions -/

theorem kind_trimNode (n : Node) : Node.kind (trimNode n) = Node.kind n := by
  unfold trimNode
  split <;> rfl

theorem wellShaped_trimNode {n : Node} (h : Node.WellShaped n) : Node.WellShaped (trimNode n) := by
  unfold trimNode
  split <;> first
    | exact Node.wellShaped_leaf _
    | exact h

theorem wellShaped_trimFirst {ns : List Node} (h : Node.WellShaped (.paragraph ns)) :
    Node.WellShaped (.paragraph (trimFirst ns)) := by
  cases ns with
  | nil => exact h
  | cons n ns =>
    rw [Node.wellShaped_branch, Node.wellShapedAll_cons] at h
    rw [trimFirst, Node.wellShaped_branch, Node.wellShapedAll_cons, List.map_cons, kind_trimNode]
    exact ⟨h.1, wellShaped_trimNode h.2.1, h.2.2⟩

/-- A paragraph of one run of text. -/
theorem wellShaped_fence (content : String) : Node.WellShaped (.paragraph [.text content]) :=
  wellShaped_of_inlines (b := .paragraph) rfl (fun _ is => by cases is)
    ⟨allWell_cons ⟨rfl, Node.wellShaped_leaf _⟩ allWell_nil, .singleton _⟩

/-- A paragraph without its first node. -/
theorem wellShaped_rest {n : Node} {ns : List Node} (h : Node.WellShaped (.paragraph (n :: ns))) :
    Node.WellShaped (.paragraph ns) := by
  rw [Node.wellShaped_branch, Node.wellShapedAll_cons] at h
  obtain ⟨fits, -, rest⟩ := h
  refine Node.wellShaped_branch.mpr ⟨⟨(fun _ is => by cases is), ?_, ?_⟩, rest⟩
  · exact fun k mem => fits.admits k (List.mem_cons_of_mem _ mem)
  · have apart := fits.apart
    rw [List.map_cons, Kind.Apart, List.isChain_cons] at apart
    exact apart.2

/-- The blocks that stand for a quote are well shaped if those of the quote are. -/
theorem allWell_admonition (kind label : String) {n : Node} {rest blocks : List Node}
    (first : Node.WellShaped (.paragraph (n :: rest))) (others : AllWell Kind.isBlock blocks) :
    AllWell Kind.isBlock (admonition kind label rest blocks) := by
  have body := wellShaped_trimFirst (wellShaped_rest first)
  rw [admonition]
  refine allWell_append ?_ (allWell_cons ⟨rfl, wellShaped_fence _⟩ allWell_nil)
  exact allWell_cons ⟨rfl, wellShaped_fence _⟩ (allWell_cons ⟨rfl, body⟩ others)

section

variable {tables : Tables}

/-- Without a quote among them, nodes keep their kinds. -/
theorem kinds_convertedAll {ns : List Node} (h : ∀ n ∈ ns, Node.kind n ≠ .quote) :
    (convertedAll tables ns).map Node.kind = ns.map Node.kind := by
  induction ns with
  | nil => rfl
  | cons n ns ih =>
    rw [List.forall_mem_cons] at h
    rw [convertedAll, List.map_append, ih h.2, List.map_cons]
    cases n with
    | leaf l => rfl
    | branch b kids =>
      have other : labelledQuote? tables (.branch b kids) = none := by
        apply labelledQuote?_of_not_isQuote
        cases b <;> first
          | rfl
          | exact absurd rfl h.1
      rw [converted_of_not_labelled other]
      rfl

/-- Among nodes that are no blocks there is no quote, so blocks staying blocks is enough. -/
theorem fits_convertedAll {b : Branch} {kids : List Node} (fits : b.Fits (kids.map Node.kind))
    (blocks : (∀ n ∈ kids, (Node.kind n).isBlock = true) →
      ∀ m ∈ convertedAll tables kids, (Node.kind m).isBlock = true) :
    b.Fits ((convertedAll tables kids).map Node.kind) := by
  apply Node.fits_of_instead fits blocks
  intro others
  apply kinds_convertedAll
  intro n mem quote
  have other := others n mem
  rw [quote] at other
  contradiction

end

mutual

theorem shape_converted (tables : Tables) : (n : Node) → Node.WellShaped n →
    Node.WellShapedAll (converted tables n) ∧
      ((Node.kind n).isBlock = true → ∀ m ∈ converted tables n, (Node.kind m).isBlock = true)
  | .leaf l, h => by
    simp only [converted, Node.wellShapedAll_iff, List.forall_mem_singleton]
    exact ⟨h, id⟩
  | .branch b [], h => by
    simp only [converted, Node.wellShapedAll_iff, List.forall_mem_singleton]
    exact ⟨h, id⟩
  | .branch b (kid :: blocks), h => by
    have below := Node.wellShaped_branch.mp h
    cases labelled : labelledQuote? tables (.branch b (kid :: blocks)) with
    | some found =>
      obtain ⟨kind, label, rest, _⟩ := found
      obtain ⟨run, same, -⟩ := labelledQuote?_eq_some_iff.mp labelled
      cases same
      rw [Node.wellShapedAll_cons] at below
      obtain ⟨fits, first, others⟩ := below
      obtain ⟨shape, block⟩ := shape_convertedAll tables blocks others
      have inQuote : ∀ n ∈ blocks, (Node.kind n).isBlock = true := fun n mem =>
        fits.admits _ (List.mem_cons_of_mem _ (List.mem_map_of_mem mem))
      have all : AllWell Kind.isBlock (convertedAll tables blocks) := fun m mem =>
        ⟨block inQuote m mem, Node.wellShapedAll_iff.mp shape m mem⟩
      have admonition := allWell_admonition kind label first all
      rw [converted_of_labelled labelled]
      exact ⟨Node.wellShapedAll_iff.mpr fun m mem => (admonition m mem).2,
        fun _ m mem => (admonition m mem).1⟩
    | none =>
      obtain ⟨shape, block⟩ := shape_convertedAll tables (kid :: blocks) below.2
      rw [converted_of_not_labelled labelled]
      simp only [Node.wellShapedAll_iff, List.forall_mem_singleton]
      exact ⟨Node.wellShaped_branch.mpr ⟨fits_convertedAll below.1 block, shape⟩, id⟩

theorem shape_convertedAll (tables : Tables) : (ns : List Node) → Node.WellShapedAll ns →
    Node.WellShapedAll (convertedAll tables ns) ∧
      ((∀ n ∈ ns, (Node.kind n).isBlock = true) →
        ∀ m ∈ convertedAll tables ns, (Node.kind m).isBlock = true)
  | [], h => by
    rw [convertedAll]
    exact ⟨h, by simp⟩
  | n :: ns, h => by
    rw [Node.wellShapedAll_cons] at h
    obtain ⟨here, block⟩ := shape_converted tables n h.1
    obtain ⟨rest, blocks⟩ := shape_convertedAll tables ns h.2
    rw [convertedAll, Node.wellShapedAll_append]
    refine ⟨⟨here, rest⟩, fun all => ?_⟩
    rw [List.forall_mem_cons] at all
    rw [List.forall_mem_append]
    exact ⟨block all.1, blocks all.2⟩

end

/-! ## passes -/

/-- Does a pass leave a well-shaped document of every well-shaped document? -/
def KeepsShape (p : Pass) : Prop :=
  ∀ blocks, Node.WellShaped (.document blocks) →
    ∃ blocks', (p.run (.document blocks)).left = .document blocks' ∧
      Node.WellShaped (.document blocks')

theorem keepsShape_rewriteLinks (rewriter : Link.Rewriter) : KeepsShape (rewriteLinks rewriter) := by
  intro blocks h
  refine ⟨_, rewriteLinks_left rewriter blocks, ?_⟩
  rw [Node.wellShaped_branch] at h ⊢
  obtain ⟨shape, kinds⟩ := shape_relinkedAll rewriter blocks h.2
  exact ⟨by rw [kinds]; exact h.1, shape⟩

theorem keepsShape_wrapExamples (tables : Tables) : KeepsShape (wrapExamples tables) := by
  intro blocks h
  refine ⟨_, wrapExamples_left tables blocks, ?_⟩
  have shape := shape_wrapped tables (.document blocks) h
  rwa [wrapped, if_neg (by simp [isTrigger])] at shape

theorem keepsShape_convertAdmonitions (tables : Tables) :
    KeepsShape (convertAdmonitions tables) := by
  intro blocks h
  refine ⟨_, convertAdmonitions_left tables blocks, ?_⟩
  rw [Node.wellShaped_branch] at h ⊢
  obtain ⟨shape, block⟩ := shape_convertedAll tables blocks h.2
  exact ⟨fits_convertedAll h.1 block, shape⟩

theorem keepsShape_annotateSymbols (tables : Tables) : KeepsShape (annotateSymbols tables) := by
  intro blocks h
  exact ⟨_, annotateSymbols_left tables blocks, shape_annotated tables (.document blocks) h⟩

/-- Passes that keep the shape of documents keep it together, also when one of them ends the
run. -/
theorem shape_runAll {passes : List Pass} (keep : ∀ p ∈ passes, KeepsShape p)
    (blocks : List Node) (h : Node.WellShaped (.document blocks)) :
    ∃ blocks', (runAll passes (.document blocks)).left = .document blocks' ∧
      Node.WellShaped (.document blocks') := by
  induction passes generalizing blocks with
  | nil => exact ⟨blocks, rfl, h⟩
  | cons p passes ih =>
    rw [List.forall_mem_cons] at keep
    obtain ⟨blocks', left, shape⟩ := keep.1 blocks h
    cases answer : (p.run (.document blocks)).answer.result p.name with
    | error fault => exact ⟨blocks', (runAll_cons_of_fault answer passes).1.trans left, shape⟩
    | ok =>
      rw [(runAll_cons_of_document answer passes).1, left]
      exact ih keep.2 blocks' shape

theorem keepsShape_standard (rewriter : Link.Rewriter) (tables : Tables) :
    ∀ p ∈ standard rewriter tables, KeepsShape p := by
  simp only [standard, List.forall_mem_cons]
  exact ⟨keepsShape_rewriteLinks rewriter, keepsShape_wrapExamples tables,
    keepsShape_convertAdmonitions tables, keepsShape_annotateSymbols tables, by simp⟩

/-- **Every document of a conversion is well shaped**: the one that is read from the tokens,
and the one that any number of the passes of a conversion leave of it. -/
theorem standard_wellShaped (tokens : List Markdown.Token) (rewriter : Link.Rewriter)
    (tables : Tables) :
    Node.WellShaped (ofTokens tokens) ∧
    ∀ count, ∃ blocks,
      (runAll ((standard rewriter tables).take count) (ofTokens tokens)).left = .document blocks ∧
        Node.WellShaped (.document blocks) := by
  refine ⟨wellShaped_ofTokens tokens, fun count => ?_⟩
  apply shape_runAll _ (Document.blocks tokens) (wellShaped_ofTokens tokens)
  intro p mem
  have standard := List.mem_of_mem_take mem
  simp only [Pass.standard, List.mem_cons, List.not_mem_nil, or_false] at standard
  rcases standard with rfl | rfl | rfl | rfl
  · exact keepsShape_rewriteLinks rewriter
  · exact keepsShape_wrapExamples tables
  · exact keepsShape_convertAdmonitions tables
  · exact keepsShape_annotateSymbols tables

end Docsite.Pass
