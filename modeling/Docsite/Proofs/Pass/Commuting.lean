import Docsite.Proofs.Pass.Sequence

/-!
# Docsite.Proofs.Pass.Commuting

Rewriting the links before or after another pass.

A rewriter that refuses nothing changes URLs and nothing else (`Node.mapUrls`), and no other pass
looks at a URL: triggers, labels and symbols are told by texts and by the kinds of nodes.  So what
a pass makes of a document is made of it with other URLs just as well, be the links moved, put
into a division, or taken out with a label: `mapUrls_wrapped`, `mapUrlsAll_converted` and
`mapUrls_annotated` follow the recursions that say what the passes leave.
-/

namespace Docsite

open Document Docsite.Tree

/-! ## other URLs -/

/-- A label with another URL, if it has one. -/
def Document.Branch.mapUrl (f : String → String) : Branch → Branch
  | .link url title => .link (f url) title
  | b => b

namespace Node

mutual

/-- A node with other URLs for its links. -/
def mapUrls (f : String → String) : Node → Node
  | .leaf l => .leaf l
  | .branch b kids => .branch (b.mapUrl f) (mapUrlsAll f kids)

/-- Nodes with other URLs for their links. -/
def mapUrlsAll (f : String → String) : List Node → List Node
  | [] => []
  | n :: ns => mapUrls f n :: mapUrlsAll f ns

end

section

variable (f : String → String)

theorem mapUrlsAll_eq_map (ns : List Node) : mapUrlsAll f ns = ns.map (mapUrls f) := by
  induction ns with
  | nil => rfl
  | cons n ns ih => rw [mapUrlsAll, ih, List.map_cons]

theorem mapUrlsAll_append (ns ms : List Node) :
    mapUrlsAll f (ns ++ ms) = mapUrlsAll f ns ++ mapUrlsAll f ms := by
  simp only [mapUrlsAll_eq_map, List.map_append]

theorem children_mapUrls (n : Node) : (mapUrls f n).children = mapUrlsAll f n.children := by
  cases n <;> rfl

/-- A run of text has no URL, and nothing else becomes one. -/
theorem textAt_mapUrlsAll (ns : List Node) (position : Nat) :
    textAt (mapUrlsAll f ns) position = textAt ns position := by
  rw [textAt, textAt, mapUrlsAll_eq_map, List.getElem?_map]
  cases ns[position]? with
  | none => rfl
  | some n => cases n <;> rfl

end

end Node

namespace Pass

open Node (mapUrls mapUrlsAll mapUrlsAll_append mapUrlsAll_eq_map children_mapUrls
  textAt_mapUrlsAll)

section

variable (f : String → String) {tables : Tables}

/-! ## what the passes look at -/

theorem isTrigger_mapUrls (n : Node) : isTrigger tables (mapUrls f n) = isTrigger tables n := by
  cases n with
  | leaf l => rfl
  | branch b kids =>
    cases b with
    | paragraph =>
      have filled : (mapUrlsAll f kids).isEmpty = kids.isEmpty := by cases kids <;> rfl
      simp only [mapUrls, Branch.mapUrl, isTrigger, filled, textAt_mapUrlsAll]
    | _ => rfl

theorem endsExamples_mapUrls (n : Node) :
    endsExamples tables (mapUrls f n) = endsExamples tables n := by
  have trigger : isTrigger tables (mapUrls f n) = isTrigger tables n := isTrigger_mapUrls f n
  cases n with
  | leaf l => rfl
  | branch b kids =>
    cases b with
    | heading level => rfl
    | _ => exact trigger

theorem negates_mapUrlsAll (content : List Node) :
    negates (mapUrlsAll f content) = negates content := by
  rw [negates, negates, mapUrlsAll_eq_map, List.getElem?_map]
  cases content[1]? with
  | none => rfl
  | some marker => simp only [Option.map_some, children_mapUrls, textAt_mapUrlsAll]

/-- A quote keeps its label, and its contents have the other URLs. -/
theorem labelledQuote?_mapUrls (n : Node) :
    labelledQuote? tables (mapUrls f n) =
      (labelledQuote? tables n).map fun (kind, label, rest, blocks) =>
        (kind, label, mapUrlsAll f rest, mapUrlsAll f blocks) := by
  cases n with
  | leaf l => rfl
  | branch b kids =>
    cases b with
    | quote =>
      match kids with
      | [] | .leaf l :: blocks => rfl
      | .branch c content :: blocks =>
        cases c with
        | paragraph =>
          match content with
          | [] | .leaf l :: rest => rfl
          | .branch d run :: rest =>
            cases d with
            | strong =>
              simp only [mapUrls, mapUrlsAll, Branch.mapUrl, labelledQuote?, textAt_mapUrlsAll,
                Option.map_map, Function.comp_def]
            | _ => rfl
        | _ => rfl
    | _ => rfl

/-! ## what the passes leave -/

mutual

theorem mapUrls_wrapped (tables : Tables) : (n : Node) →
    mapUrls f (wrapped tables n) = wrapped tables (mapUrls f n)
  | .leaf l => by simp only [wrapped, mapUrls]
  | .branch b kids => by
    have trigger : isTrigger tables (.branch (b.mapUrl f) (mapUrlsAll f kids)) =
        isTrigger tables (.branch b kids) := isTrigger_mapUrls f (.branch b kids)
    rw [wrapped, mapUrls, wrapped, trigger]
    split
    · rw [mapUrls]
    · rw [mapUrls, mapUrlsAll_wrappedSiblings tables false kids]

theorem mapUrlsAll_wrappedSiblings (tables : Tables) (inside : Bool) : (ns : List Node) →
    mapUrlsAll f (wrappedSiblings tables inside ns) =
      wrappedSiblings tables inside (mapUrlsAll f ns)
  | [] => by cases inside <;> rfl
  | n :: ns => by
    have closing (ends : Bool) : mapUrlsAll f (if ends then [closingDivision] else []) =
        if ends then [closingDivision] else [] := by cases ends <;> rfl
    rw [mapUrlsAll, wrappedSiblings, wrappedSiblings]
    simp only [isTrigger_mapUrls, endsExamples_mapUrls, children_mapUrls, negates_mapUrlsAll]
    split
    · rw [mapUrlsAll_append, closing, mapUrlsAll, mapUrlsAll,
        mapUrlsAll_wrappedSiblings tables true ns, openingDivision, mapUrls]
    · rw [mapUrlsAll_append, closing, mapUrlsAll, mapUrls_wrapped tables n,
        mapUrlsAll_wrappedSiblings tables _ ns]

end

theorem mapUrlsAll_trimFirst (ns : List Node) :
    mapUrlsAll f (trimFirst ns) = trimFirst (mapUrlsAll f ns) := by
  have trim (n : Node) : mapUrls f (trimNode n) = trimNode (mapUrls f n) := by
    cases n with
    | leaf l => cases l <;> rfl
    | branch b kids => rfl
  cases ns with
  | nil => rfl
  | cons n ns => rw [trimFirst, mapUrlsAll, mapUrlsAll, trimFirst, trim]

/-- The fences of an admonition hold no link. -/
theorem mapUrlsAll_admonition (kind label : String) (rest blocks : List Node) :
    mapUrlsAll f (admonition kind label rest blocks) =
      admonition kind label (mapUrlsAll f rest) (mapUrlsAll f blocks) := by
  rw [admonition, admonition, mapUrlsAll_append, mapUrlsAll, mapUrlsAll, ← mapUrlsAll_trimFirst]
  rfl

mutual

theorem mapUrlsAll_converted (tables : Tables) : (n : Node) →
    mapUrlsAll f (converted tables n) = converted tables (mapUrls f n)
  | .leaf l => by simp only [converted, mapUrls, mapUrlsAll]
  | .branch b [] => by simp only [converted, mapUrls, mapUrlsAll]
  | .branch b (kid :: blocks) => by
    have same : labelledQuote? tables (mapUrls f (.branch b (kid :: blocks))) =
        (labelledQuote? tables (.branch b (kid :: blocks))).map fun (kind, label, rest, blocks) =>
          (kind, label, mapUrlsAll f rest, mapUrlsAll f blocks) := labelledQuote?_mapUrls f _
    cases labelled : labelledQuote? tables (.branch b (kid :: blocks)) with
    | some found =>
      obtain ⟨kind, label, rest, others⟩ := found
      obtain ⟨run, is, -⟩ := labelledQuote?_eq_some_iff.mp labelled
      cases is
      rw [labelled] at same
      rw [converted_of_labelled labelled, converted_of_labelled same, mapUrlsAll_admonition,
        mapUrlsAll_convertedAll tables blocks]
    | none =>
      rw [labelled] at same
      rw [mapUrls] at same ⊢
      rw [converted_of_not_labelled labelled, converted_of_not_labelled same]
      simp only [convertedAll, mapUrls, mapUrlsAll, mapUrlsAll_append,
        mapUrlsAll_converted tables kid, mapUrlsAll_convertedAll tables blocks]

theorem mapUrlsAll_convertedAll (tables : Tables) : (ns : List Node) →
    mapUrlsAll f (convertedAll tables ns) = convertedAll tables (mapUrlsAll f ns)
  | [] => rfl
  | n :: ns => by
    rw [convertedAll, mapUrlsAll_append, mapUrlsAll_converted tables n,
      mapUrlsAll_convertedAll tables ns, mapUrlsAll, convertedAll]

end

mutual

theorem mapUrls_annotated (tables : Tables) : (n : Node) →
    mapUrls f (annotated tables n) = annotated tables (mapUrls f n)
  | .leaf l => by
    rw [mapUrls, annotated, annotatedLeaf]
    split <;> rfl
  | .branch b kids => by
    rw [annotated, mapUrls, mapUrls, annotated, mapUrlsAll_annotatedAll tables kids]

theorem mapUrlsAll_annotatedAll (tables : Tables) : (ns : List Node) →
    mapUrlsAll f (annotatedAll tables ns) = annotatedAll tables (mapUrlsAll f ns)
  | [] => rfl
  | n :: ns => by
    rw [annotatedAll, mapUrlsAll, mapUrlsAll, annotatedAll, mapUrls_annotated tables n,
      mapUrlsAll_annotatedAll tables ns]

end

end

/-! ## the passes -/

mutual

/-- A rewriter that refuses nothing gives every link the URL that it has for it. -/
theorem relinked_eq_mapUrls (f : String → String) : (n : Node) →
    (relinked (.ofFunction f) n).1 = mapUrls f n
  | .leaf l => rfl
  | .branch b kids => by
    have label : relabelled (.ofFunction f) b = .ok (b.mapUrl f) := by cases b <;> rfl
    rw [relinked, label, mapUrls, ← relinkedAll_eq_mapUrls f kids]

theorem relinkedAll_eq_mapUrls (f : String → String) : (ns : List Node) →
    (relinkedAll (.ofFunction f) ns).1 = mapUrlsAll f ns
  | [] => rfl
  | n :: ns => by
    rw [relinkedAll, relinked_ofFunction f n, mapUrlsAll, ← relinked_eq_mapUrls f n,
      ← relinkedAll_eq_mapUrls f ns]

end

theorem leaves_rewriteLinks_ofFunction (f : String → String) (blocks : List Node) :
    (rewriteLinks (.ofFunction f)).Leaves blocks (mapUrlsAll f blocks) := by
  rw [← relinkedAll_eq_mapUrls]
  exact leaves_rewriteLinks (relinkedAll_ofFunction f blocks)

/-- Do two passes leave the same tree of every document, whichever of them runs first? -/
def Commutes (p q : Pass) : Prop :=
  ∀ blocks, ∃ blocks',
    ((runAll [p, q] (.document blocks)).left = .document blocks' ∧
      (runAll [p, q] (.document blocks)).fault? = none) ∧
    ((runAll [q, p] (.document blocks)).left = .document blocks' ∧
      (runAll [q, p] (.document blocks)).fault? = none)

/-- Passes that always answer with a document commute if what they make of the blocks does. -/
theorem commutes_of_leaves {p q : Pass} {g h : List Node → List Node}
    (left : ∀ blocks, p.Leaves blocks (g blocks)) (right : ∀ blocks, q.Leaves blocks (h blocks))
    (same : ∀ blocks, h (g blocks) = g (h blocks)) : p.Commutes q := fun blocks =>
  ⟨h (g blocks), (left blocks).run_pair (right _),
    same blocks ▸ (right blocks).run_pair (left _)⟩

/-- **Rewriting the links commutes with every other pass of a conversion**: whatever the document,
the tables and the URLs that the rewriter gives to the links, no pass fails, and the two leave the
same tree in either order. -/
theorem rewriteLinks_commutes (f : String → String) (tables : Tables) :
    (rewriteLinks (.ofFunction f)).Commutes (wrapExamples tables) ∧
      (rewriteLinks (.ofFunction f)).Commutes (convertAdmonitions tables) ∧
      (rewriteLinks (.ofFunction f)).Commutes (annotateSymbols tables) := by
  have links := leaves_rewriteLinks_ofFunction f
  refine ⟨commutes_of_leaves links (leaves_wrapExamples tables) fun blocks => ?_,
    commutes_of_leaves links (leaves_convertAdmonitions tables) fun blocks => ?_,
    commutes_of_leaves links (leaves_annotateSymbols tables) fun blocks => ?_⟩
  · exact (mapUrlsAll_wrappedSiblings f tables false blocks).symm
  · exact (mapUrlsAll_convertedAll f tables blocks).symm
  · exact (mapUrlsAll_annotatedAll f tables blocks).symm

end Pass

end Docsite
