import Docsite.Markdown.Tokenize
import Docsite.Proofs.Pass.Sequence
import Docsite.Proofs.Pass.Shape
import Mathlib.Data.List.TakeWhile

/-!
# Docsite.Proofs.Pass.Standard

What the passes of a conversion establish together.

Each pass leaves what it is there for, and the passes after it rewrite the same nodes.  Labels
and symbols are gone at the end as they were gone before: a span in the place of a symbol labels
no quote.  The divisions behind the triggers stay where they are, but what counts as a trigger
does not: a paragraph may become one when its label is taken from it, or when a symbol in it is
annotated, and then nobody puts a division behind it.
-/

namespace Docsite.Pass

open Document Docsite.Tree

/-! ## lines of text -/

section

variable {tables : Tables}

theorem eq_paragraph_of_isTrigger {n : Node} (h : isTrigger tables n = true) :
    ∃ kids, n = .paragraph kids := by
  unfold isTrigger at h
  split at h
  · exact ⟨_, rfl⟩
  · contradiction

/-- In a line of text there is no trigger. -/
theorem isTrigger_of_isInline {n : Node} (h : (Node.kind n).isInline = true) :
    isTrigger tables n = false := by
  cases trigger : isTrigger tables n with
  | false => rfl
  | true =>
    rw [kind_of_isTrigger trigger] at h
    contradiction

mutual

/-- Without triggers in it a node stays as it is. -/
theorem wrapped_of_triggerFree (tables : Tables) : (n : Node) →
    (∀ m ∈ subtrees n, isTrigger tables m = false) → wrapped tables n = n
  | .leaf l, _ => by rw [wrapped]
  | .branch b kids, free => by
    rw [subtrees, List.forall_mem_cons] at free
    rw [wrapped, wrappedSiblings_of_triggerFree tables kids free.2, ite_self]

theorem wrappedSiblings_of_triggerFree (tables : Tables) : (ns : List Node) →
    (∀ m ∈ subtreesAll ns, isTrigger tables m = false) → wrappedSiblings tables false ns = ns
  | [], _ => rfl
  | n :: ns, free => by
    rw [subtreesAll, List.forall_mem_append] at free
    rw [wrappedSiblings_of_other ns rfl (free.1 n (mem_subtrees_self n)),
      wrapped_of_triggerFree tables n free.1, wrappedSiblings_of_triggerFree tables ns free.2]

end

/-- The nodes of a well-shaped paragraph are inline, however deep. -/
theorem isInline_of_paragraph {kids : List Node} (h : Node.WellShaped (.paragraph kids)) :
    ∀ m ∈ subtreesAll kids, (Node.kind m).isInline = true := by
  obtain ⟨fits, below⟩ := Node.wellShaped_branch.mp h
  exact Node.isInline_of_mem_subtreesAll kids (Node.isInline_of_fits fits rfl) below

/-- In a well-shaped paragraph there is no trigger. -/
theorem isTrigger_of_paragraph {kids : List Node} (h : Node.WellShaped (.paragraph kids)) :
    ∀ m ∈ subtrees (Node.paragraph kids), ∀ k ∈ m.children, isTrigger tables k = false := by
  intro m mem k child
  apply isTrigger_of_isInline
  apply isInline_of_paragraph h
  rw [subtrees, List.mem_cons] at mem
  rcases mem with rfl | mem
  · exact mem_subtreesAll child
  · exact child_mem_subtreesAll mem child

theorem wrapped_paragraph {kids : List Node} (h : Node.WellShaped (.paragraph kids)) :
    wrapped tables (.paragraph kids) = .paragraph kids := by
  rw [wrapped, wrappedSiblings_of_triggerFree tables kids fun m mem =>
    isTrigger_of_isInline (isInline_of_paragraph h m mem), ite_self]

theorem converted_paragraph {kids : List Node} (h : Node.WellShaped (.paragraph kids)) :
    converted tables (.paragraph kids) = [.paragraph kids] := by
  have free : LabelFree tables kids := labelFree_of_no_quote fun m mem quote => by
    have inline := isInline_of_paragraph h m mem
    rw [quote] at inline
    contradiction
  rw [converted_of_not_labelled rfl, convertedAll_of_labelFree tables kids free]

/-- A wrapped node is a trigger, or ends examples, just if the node did. -/
theorem isTrigger_wrapped {n : Node} (h : Node.WellShaped n) :
    isTrigger tables (wrapped tables n) = isTrigger tables n ∧
      endsExamples tables (wrapped tables n) = endsExamples tables n := by
  cases n with
  | leaf l =>
    rw [wrapped]
    exact ⟨rfl, rfl⟩
  | branch b kids =>
    obtain ⟨kids', same⟩ := wrapped_branch tables b kids
    cases b with
    | paragraph =>
      rw [wrapped_paragraph h]
      exact ⟨rfl, rfl⟩
    | _ =>
      rw [same]
      exact ⟨rfl, rfl⟩

/-- A node that is no labelled quote stands for one node, which is a trigger, or ends examples, just
if the node did. -/
theorem converted_singleton {n : Node} (h : Node.WellShaped n)
    (other : labelledQuote? tables n = none) :
    ∃ m, converted tables n = [m] ∧ isTrigger tables m = isTrigger tables n ∧
      endsExamples tables m = endsExamples tables n := by
  cases n with
  | leaf l => exact ⟨.leaf l, by rw [converted], rfl, rfl⟩
  | branch b kids =>
    cases b with
    | paragraph => exact ⟨_, converted_paragraph h, rfl, rfl⟩
    | _ => exact ⟨_, converted_of_not_labelled other, rfl, rfl⟩

/-- What ends examples is no quote. -/
theorem labelledQuote?_of_endsExamples {n : Node} (ends : endsExamples tables n = true) :
    labelledQuote? tables n = none := by
  cases n with
  | leaf l => rfl
  | branch b kids =>
    cases b with
    | quote => contradiction
    | _ => rfl

end

/-! ## the divisions behind triggers -/

/-- Do the siblings behind a trigger begin with a division?  It stands around nodes that are no
triggers and no headings, and ends before the next one, or behind them all. -/
def Posts (tables : Tables) (after : List Node) : Prop :=
  ∃ valid examples rest,
    after = openingDivision valid :: examples ++ closingDivision :: rest ∧
    (∀ n ∈ examples, endsExamples tables n = false) ∧
    ∀ n ∈ rest.head?, endsExamples tables n = true

section

variable {tables : Tables}

/-- The first of the siblings that are wrapped stays where it is, if no division is open. -/
theorem head_wrappedSiblings {n : Node} (ns : List Node) :
    (wrappedSiblings tables false (n :: ns)).head? = some (wrapped tables n) := by
  cases trigger : isTrigger tables n with
  | true =>
    rw [wrappedSiblings_of_isTrigger ns rfl trigger, wrapped_of_isTrigger trigger, List.head?_cons]
  | false => rw [wrappedSiblings_of_other ns rfl trigger, List.head?_cons]

/-- The division behind a trigger among wrapped siblings. -/
theorem posts_wrappedSiblings {ns : List Node} (shape : Node.WellShapedAll ns) (valid : Bool) :
    Posts tables (openingDivision valid :: wrappedSiblings tables true ns) := by
  rw [Node.wellShapedAll_iff] at shape
  have stays : ∀ n ∈ ns.takeWhile (!endsExamples tables ·),
      endsExamples tables (wrapped tables n) = false := by
    intro n mem
    rw [(isTrigger_wrapped (shape n ((List.takeWhile_prefix _).subset mem))).2]
    simpa using List.mem_takeWhile_imp mem
  have next : ∀ n ∈ (wrappedSiblings tables false (ns.dropWhile (!endsExamples tables ·))).head?,
      endsExamples tables n = true := by
    have stops := List.head?_dropWhile_not (!endsExamples tables ·) ns
    have within := (List.dropWhile_suffix (l := ns) (!endsExamples tables ·)).subset
    cases left : ns.dropWhile (!endsExamples tables ·) with
    | nil => simp [wrappedSiblings]
    | cons n ns' =>
      rw [left] at stops within
      rw [head_wrappedSiblings]
      rintro _ ⟨⟩
      rw [(isTrigger_wrapped (shape n (within List.mem_cons_self))).2]
      simpa using stops
  rw [wrappedSiblings_true]
  exact ⟨valid, _, _, rfl, List.forall_mem_map.mpr stays, next⟩

/-- Behind every trigger among wrapped siblings there is a division. -/
theorem posts_of_suffix {ns : List Node} (shape : Node.WellShapedAll ns) {t : Node}
    {after : List Node} (trigger : isTrigger tables t = true) (inside : Bool)
    (suffix : t :: after <:+ wrappedSiblings tables inside ns) : Posts tables after := by
  -- The marks of divisions are no triggers.
  have behindMark {content : String} {ms : List Node} (h : t :: after <:+ .html content :: ms) :
      t :: after <:+ ms := by
    rcases List.suffix_cons_iff.mp h with same | later
    · cases same
      contradiction
    · exact later
  induction ns generalizing inside with
  | nil =>
    cases inside with
    | false => simp [wrappedSiblings] at suffix
    | true => simpa using behindMark suffix
  | cons n ns ih =>
    rw [Node.wellShapedAll_cons] at shape
    -- The node itself, once the division before it has ended or goes on.
    have node (inside : Bool) (stays : (inside && endsExamples tables n) = false)
        (suffix : t :: after <:+ wrappedSiblings tables inside (n :: ns)) :
        Posts tables after := by
      cases here : isTrigger tables n with
      | true =>
        rw [wrappedSiblings_of_isTrigger ns stays here, List.suffix_cons_iff] at suffix
        rcases suffix with same | later
        · cases same
          exact posts_wrappedSiblings shape.2 _
        · exact ih shape.2 true (behindMark later)
      | false =>
        rw [wrappedSiblings_of_other ns stays here, List.suffix_cons_iff] at suffix
        rcases suffix with same | later
        · cases same
          rw [(isTrigger_wrapped shape.1).1, here] at trigger
          contradiction
        · exact ih shape.2 inside later
    cases ends : inside && endsExamples tables n with
    | false => exact node inside ends suffix
    | true =>
      rw [Bool.and_eq_true] at ends
      obtain ⟨rfl, ends⟩ := ends
      rw [wrappedSiblings_of_ends ns ends] at suffix
      exact node false rfl (behindMark suffix)

/-- Is there a division behind every trigger among some siblings? -/
def Posted (tables : Tables) (ns : List Node) : Prop :=
  ∀ t after, t :: after <:+ ns → isTrigger tables t = true → Posts tables after

theorem posted_of_triggerFree {ns : List Node} (free : ∀ n ∈ ns, isTrigger tables n = false) :
    Posted tables ns := by
  intro t after suffix trigger
  rw [free t (suffix.subset List.mem_cons_self)] at trigger
  contradiction

end

mutual

/-- In a wrapped document there is a division behind every trigger. -/
theorem posted_wrapped (tables : Tables) : (n : Node) → Node.WellShaped n →
    ∀ m ∈ subtrees (wrapped tables n), Posted tables m.children
  | .leaf l, _ => by
    simp only [wrapped, subtrees, List.forall_mem_singleton, children_leaf]
    exact posted_of_triggerFree (by simp)
  | .branch b kids, h => by
    cases trigger : isTrigger tables (.branch b kids) with
    | true =>
      obtain ⟨kids, same⟩ := eq_paragraph_of_isTrigger trigger
      rw [wrapped_of_isTrigger trigger, same]
      rw [same] at h
      exact fun m mem => posted_of_triggerFree (isTrigger_of_paragraph h m mem)
    | false =>
      rw [Node.wellShaped_branch] at h
      rw [wrapped, trigger, if_neg Bool.false_ne_true, subtrees, List.forall_mem_cons,
        subtreesAll_eq_flatMap, List.forall_mem_flatMap]
      refine ⟨fun t after suffix trigger => posts_of_suffix h.2 trigger false suffix, ?_⟩
      have mark (content : String) :
          ∀ m ∈ subtrees (Node.html content), Posted tables m.children := by
        simp only [subtrees, List.forall_mem_singleton, children_leaf]
        exact posted_of_triggerFree (by simp)
      exact forall_wrappedSiblings (fun valid => mark _) (mark _) (posted_wrappedEach tables kids h.2)
        false

theorem posted_wrappedEach (tables : Tables) : (ns : List Node) → Node.WellShapedAll ns →
    ∀ n ∈ ns, ∀ m ∈ subtrees (wrapped tables n), Posted tables m.children
  | [], _ => by simp
  | n :: ns, h => by
    rw [Node.wellShapedAll_cons] at h
    rw [List.forall_mem_cons]
    exact ⟨posted_wrapped tables n h.1, posted_wrappedEach tables ns h.2⟩

end

/-! ## triggers among converted nodes -/

/-- Is a node, with its symbols annotated, a trigger that it was not before? -/
def BecomesTrigger (tables : Tables) (n : Node) : Prop :=
  isTrigger tables n = false ∧ isTrigger tables (annotated tables n) = true

/-- May siblings stand in one division when their symbols are annotated?  Then none of them is a
trigger or a heading, those aside that become triggers only then and those that came out of one of
some quotes. -/
inductive Enclosed (tables : Tables) (quotes : List Node) : List Node → Prop
  | nil : Enclosed tables quotes []
  | node {n : Node} {ns : List Node}
    (late : endsExamples tables (annotated tables n) = true → BecomesTrigger tables n)
    (others : Enclosed tables quotes ns) : Enclosed tables quotes (n :: ns)
  | quote {q : Node} {ns : List Node} (mem : q ∈ quotes) (labelled : labelledQuote? tables q ≠ none)
    (others : Enclosed tables quotes ns) : Enclosed tables quotes (converted tables q ++ ns)

/-- Do the siblings behind a trigger begin with a division that is in order when their symbols are
annotated?  Behind its end comes a trigger or a heading then, or the end of an admonition, or
nothing. -/
def Introduced (tables : Tables) (quotes after : List Node) : Prop :=
  ∃ valid inside rest,
    after = openingDivision valid :: inside ++ closingDivision :: rest ∧
    Enclosed tables quotes inside ∧
    ∀ n ∈ rest.head?, endsExamples tables (annotated tables n) = true ∨ n = closingFence

/-- Is a node what a label of one of some quotes left of its paragraph, and does it stand behind
the fence that the label became? -/
def BehindLabel (tables : Tables) (quotes before : List Node) (t : Node) : Prop :=
  ∃ q ∈ quotes, ∃ kind label rest blocks,
    labelledQuote? tables q = some (kind, label, rest, blocks) ∧
    before.getLast? = some (openingFence kind label) ∧ t = .paragraph (trimFirst rest)

/-- Is there a division behind every trigger among some siblings, unless it stands behind the
label of one of some quotes?  Behind the siblings there are those of `tail`. -/
def Accounted (tables : Tables) (quotes tail ns : List Node) : Prop :=
  ∀ before t after, ns = before ++ t :: after → isTrigger tables t = true →
    Introduced tables quotes (after ++ tail) ∨ BehindLabel tables quotes before t

section

variable {tables : Tables} {quotes tail : List Node}

theorem accounted_of_triggerFree {ns : List Node} (free : ∀ n ∈ ns, isTrigger tables n = false) :
    Accounted tables quotes tail ns := by
  rintro before t after rfl trigger
  rw [free t (by simp)] at trigger
  contradiction

theorem BehindLabel.append {before : List Node} {t : Node}
    (h : BehindLabel tables quotes before t) (first : List Node) :
    BehindLabel tables quotes (first ++ before) t := by
  obtain ⟨q, mem, kind, label, rest, blocks, labelled, fence, same⟩ := h
  exact ⟨q, mem, kind, label, rest, blocks, labelled, by simp [fence], same⟩

theorem Accounted.append {ns ms : List Node} (first : Accounted tables quotes (ms ++ tail) ns)
    (second : Accounted tables quotes tail ms) : Accounted tables quotes tail (ns ++ ms) := by
  intro before t after same trigger
  rcases List.append_eq_append_iff.mp same with ⟨more, rfl, rfl⟩ | ⟨more, rfl, later⟩
  · exact (second more t after rfl trigger).imp_right fun h => h.append ns
  · cases more with
    | nil =>
      have here := second [] t after later.symm trigger
      exact here.imp_right fun h => by simpa using h.append before
    | cons n more =>
      rw [List.cons_append, List.cons.injEq] at later
      obtain ⟨rfl, rfl⟩ := later
      rw [List.append_assoc]
      exact first before t more rfl trigger

/-- One node before others: if it is a trigger, there is a division behind it. -/
theorem accounted_singleton {n : Node}
    (h : isTrigger tables n = true → Introduced tables quotes tail) :
    Accounted tables quotes tail [n] := by
  intro before t after same trigger
  rw [eq_comm, List.append_eq_singleton_iff] at same
  rcases same with ⟨rfl, same⟩ | ⟨rfl, same⟩
  · cases same
    exact .inl (h trigger)
  · contradiction

/-- An admonition whose blocks are accounted for is so itself. -/
theorem accounted_admonition {q : Node} {kind label : String} {rest blocks blocks' : List Node}
    (opening : isTrigger tables (openingFence kind label) = false)
    (closing : isTrigger tables closingFence = false) (mem : q ∈ quotes)
    (labelled : labelledQuote? tables q = some (kind, label, rest, blocks'))
    (inside : Accounted tables quotes (closingFence :: tail) blocks) :
    Accounted tables quotes tail (admonition kind label rest blocks) := by
  have start (tail : List Node) : Accounted tables quotes tail
      [openingFence kind label, .paragraph (trimFirst rest)] := by
    intro before t after same trigger
    cases before with
    | nil =>
      cases same
      rw [opening] at trigger
      contradiction
    | cons fence before =>
      rw [List.cons_append, List.cons.injEq, eq_comm (a := [_]),
        List.append_eq_singleton_iff] at same
      obtain ⟨rfl, ⟨rfl, same⟩ | ⟨-, same⟩⟩ := same
      · cases same
        exact .inr ⟨q, mem, kind, label, rest, blocks', labelled, rfl, rfl⟩
      · contradiction
  have finish : Accounted tables quotes tail [closingFence] :=
    accounted_of_triggerFree (by simpa using closing)
  exact (start _).append (.append inside finish)

/-- What ends no examples ends some with its symbols annotated only as a trigger that it becomes. -/
theorem becomesTrigger_of_endsExamples {n : Node} (stays : endsExamples tables n = false)
    (ends : endsExamples tables (annotated tables n) = true) : BecomesTrigger tables n := by
  cases n with
  | leaf l =>
    rw [annotated, annotatedLeaf] at ends
    split at ends <;> contradiction
  | branch b kids =>
    rw [annotated] at ends
    cases b with
    | paragraph => exact ⟨stays, by rw [annotated]; exact ends⟩
    | _ => contradiction

/-- What ends no examples may stand in a division when it is converted. -/
theorem enclosed_convertedAll {ns : List Node} (shape : Node.WellShapedAll ns)
    (within : subtreesAll ns ⊆ quotes) (stay : ∀ n ∈ ns, endsExamples tables n = false) :
    Enclosed tables quotes (convertedAll tables ns) := by
  induction ns with
  | nil => exact .nil
  | cons n ns ih =>
    rw [Node.wellShapedAll_cons] at shape
    rw [subtreesAll, List.append_subset] at within
    rw [List.forall_mem_cons] at stay
    have others := ih shape.2 within.2 stay.2
    rw [convertedAll]
    by_cases labelled : labelledQuote? tables n = none
    · obtain ⟨m, same, -, old⟩ := converted_singleton shape.1 labelled
      rw [same]
      exact .node (becomesTrigger_of_endsExamples (old.trans stay.1)) others
    · exact .quote (within.1 (mem_subtrees_self n)) labelled others

end

/-- Do the words of the tables get along?  The fences of admonitions are no triggers, and what ends
examples still does when its symbols are annotated. -/
structure Compatible (tables : Tables) : Prop where
  opening : ∀ kind label, isTrigger tables (openingFence kind label) = false
  closing : isTrigger tables closingFence = false
  ends : ∀ n, endsExamples tables n = true → endsExamples tables (annotated tables n) = true

/-- What becomes of the division behind a trigger when it is converted. -/
theorem Posts.introduced {tables : Tables} {quotes tail ns : List Node} (h : Posts tables ns)
    (compatible : Compatible tables) (shape : Node.WellShapedAll ns)
    (within : subtreesAll ns ⊆ quotes) (shut : ∀ n ∈ tail.head?, n = closingFence) :
    Introduced tables quotes (convertedAll tables ns ++ tail) := by
  obtain ⟨valid, examples, rest, rfl, stay, next⟩ := h
  simp only [List.cons_append, Node.wellShapedAll_cons, Node.wellShapedAll_append] at shape
  simp only [List.cons_append, subtreesAll, subtreesAll_append, List.append_subset] at within
  refine ⟨valid, convertedAll tables examples, convertedAll tables rest ++ tail, ?_,
    enclosed_convertedAll shape.2.1 within.2.1 stay, ?_⟩
  · have mark (content : String) (ns : List Node) : convertedAll tables (.html content :: ns) =
        .html content :: convertedAll tables ns := by
      simp only [convertedAll, converted, List.singleton_append]
    simp only [List.cons_append, convertedAll_append, openingDivision, closingDivision, mark,
      List.append_assoc]
  · cases rest with
    | nil => exact fun n mem => .inr (shut n mem)
    | cons n ns =>
      have ends := next n rfl
      obtain ⟨m, same, -, old⟩ := converted_singleton (Node.wellShapedAll_cons.mp shape.2.2.2).1
        (labelledQuote?_of_endsExamples ends)
      rw [convertedAll, same]
      rintro _ ⟨⟩
      exact .inl (compatible.ends m (old.trans ends))

mutual

/-- Where a node is converted, every trigger is accounted for, also among the siblings that stand
for a labelled quote. -/
theorem accounted_converted {tables : Tables} (compatible : Compatible tables) (quotes : List Node) :
    (n : Node) → Node.WellShaped n → subtrees n ⊆ quotes →
    (∀ m ∈ subtrees n, Posted tables m.children) →
    (labelledQuote? tables n ≠ none → ∀ tail, Accounted tables quotes tail (converted tables n)) ∧
      ∀ m ∈ subtreesAll (converted tables n), Accounted tables quotes [] m.children
  | .leaf l, _, _, _ => by
    simp only [converted, subtreesAll, subtrees, List.append_nil, List.forall_mem_singleton,
      children_leaf]
    exact ⟨fun labelled => absurd rfl labelled, accounted_of_triggerFree (by simp)⟩
  | .branch b [], _, _, _ => by
    simp only [converted, subtreesAll, subtrees, List.append_nil, List.forall_mem_singleton,
      children_branch]
    exact ⟨fun labelled => absurd (by cases b <;> rfl) labelled, accounted_of_triggerFree (by simp)⟩
  | .branch b (kid :: blocks), shape, within, posted => by
    have inside := Node.wellShaped_branch.mp shape
    rw [subtrees, List.cons_subset] at within
    rw [subtrees, List.forall_mem_cons] at posted
    cases labelled : labelledQuote? tables (.branch b (kid :: blocks)) with
    | some found =>
      obtain ⟨kind, label, rest, blocks'⟩ := found
      obtain ⟨run, same, -⟩ := labelledQuote?_eq_some_iff.mp labelled
      cases same
      rw [Node.wellShapedAll_cons] at inside
      obtain ⟨fits, first, others⟩ := inside
      rw [subtreesAll, List.append_subset] at within
      rw [subtreesAll, List.forall_mem_append] at posted
      have behind : Posted tables blocks := fun t after suffix =>
        posted.1 t after (suffix.trans (List.suffix_cons _ _))
      obtain ⟨siblings, below⟩ :=
        accounted_convertedAll compatible quotes blocks others within.2.2 behind posted.2.2
      rw [converted_of_labelled labelled]
      refine ⟨fun _ tail => ?_, forall_admonition (fun content => ?_) ?_ below⟩
      · exact accounted_admonition (compatible.opening kind label) compatible.closing within.1 labelled
          (siblings (closingFence :: tail) (by simp))
      · exact ⟨accounted_of_triggerFree (by simp [isTrigger]), accounted_of_triggerFree (by simp)⟩
      · exact fun m mem => accounted_of_triggerFree
          (isTrigger_of_paragraph (wellShaped_trimFirst (wellShaped_rest first)) m mem)
    | none =>
      obtain ⟨siblings, below⟩ := accounted_convertedAll compatible quotes (kid :: blocks) inside.2
        within.2 posted.1 posted.2
      rw [converted_of_not_labelled labelled, subtreesAll, subtreesAll, List.append_nil, subtrees,
        List.forall_mem_cons]
      exact ⟨fun same => absurd rfl same, siblings [] (by simp), below⟩

/-- Where siblings are converted, every trigger is accounted for. -/
theorem accounted_convertedAll {tables : Tables} (compatible : Compatible tables)
    (quotes : List Node) : (ns : List Node) → Node.WellShapedAll ns → subtreesAll ns ⊆ quotes →
    Posted tables ns → (∀ m ∈ subtreesAll ns, Posted tables m.children) →
    (∀ tail, (∀ n ∈ tail.head?, n = closingFence) →
      Accounted tables quotes tail (convertedAll tables ns)) ∧
    ∀ m ∈ subtreesAll (convertedAll tables ns), Accounted tables quotes [] m.children
  | [], _, _, _, _ => by
    rw [convertedAll]
    exact ⟨fun tail _ => accounted_of_triggerFree (by simp), by simp [subtreesAll]⟩
  | n :: ns, shape, within, posted, postedBelow => by
    rw [Node.wellShapedAll_cons] at shape
    rw [subtreesAll, List.append_subset] at within
    rw [subtreesAll, List.forall_mem_append] at postedBelow
    have behind : Posted tables ns := fun t after suffix =>
      posted t after (suffix.trans (List.suffix_cons _ _))
    obtain ⟨here, below⟩ := accounted_converted compatible quotes n shape.1 within.1 postedBelow.1
    obtain ⟨later, belowLater⟩ :=
      accounted_convertedAll compatible quotes ns shape.2 within.2 behind postedBelow.2
    rw [convertedAll, subtreesAll_append, List.forall_mem_append]
    refine ⟨fun tail shut => .append ?_ (later tail shut), below, belowLater⟩
    cases labelled : labelledQuote? tables n with
    | some found => exact here (by simp [labelled]) _
    | none =>
      obtain ⟨m, same, old, -⟩ := converted_singleton shape.1 labelled
      rw [same]
      exact accounted_singleton fun trigger =>
        (posted n ns (List.suffix_refl _) (old.symm.trans trigger)).introduced compatible shape.2
          within.2 shut

end

/-! ## the words of the stylelint documents -/

/-- The sentences that introduce examples all begin and end alike. -/
theorem sentence_of_isTrigger {kids : List Node} (h : isTrigger {} (.paragraph kids) = true) :
    let sentence := Text.trimEnd (Node.textAt kids 0).toList ++ (Node.textAt kids 2).toList
    sentence.head? = some 'T' ∧ sentence.getLast? = some ':' := by
  simp only [isTrigger, Bool.and_eq_true, List.contains_iff_mem, List.mem_cons, List.not_mem_nil,
    or_false] at h
  have words := h.2.imp (congrArg String.toList) (congrArg String.toList)
  simp only [String.toList_append, String.toList_ofList] at words
  rcases words with words | words <;> rw [words] <;> decide

/-- A paragraph that begins with a colon introduces no examples. -/
theorem isTrigger_of_colon {content : String} (h : content.toList.head? = some ':') :
    isTrigger {} (Node.paragraph [.text content]) = false := by
  cases trigger : isTrigger {} (Node.paragraph [.text content]) with
  | false => rfl
  | true =>
    have sentence : (Text.trimEnd content.toList).head? = some 'T' := by
      simpa [Node.textAt] using (sentence_of_isTrigger trigger).1
    have start := Text.dropEndWhile_prefix Text.isBlank content.toList
    obtain ⟨cs, begins⟩ := List.head?_eq_some_iff.mp h
    obtain ⟨ds, words⟩ := List.head?_eq_some_iff.mp sentence
    rw [← Text.trimEnd, words, begins, List.cons_prefix_cons] at start
    exact absurd start.1 (by decide)

/-- A run of text in a line stays, or it is a symbol, and then there is no text in its place. -/
theorem textAt_annotatedAll (tables : Tables) (kids : List Node) (i : Nat) :
    Node.textAt (annotatedAll tables kids) i = Node.textAt kids i ∨
      Node.textAt (annotatedAll tables kids) i = "" ∧
        (tables.symbolLabels.lookup (Node.textAt kids i)).isSome := by
  rw [Node.textAt, Node.textAt, annotatedAll_eq_map, List.getElem?_map]
  cases kids[i]? with
  | none => exact .inl rfl
  | some kid =>
    cases kid with
    | branch b inner => exact .inl rfl
    | leaf l =>
      rw [Option.map_some, annotated, annotatedLeaf]
      cases labelled : symbolLabel? tables (.leaf l) with
      | none => exact .inl rfl
      | some label =>
        cases l with
        | text content => exact .inr ⟨rfl, Option.isSome_of_eq_some labelled⟩
        | _ => exact .inl rfl

/-- The symbols are characters that neither begin nor end a sentence that introduces examples. -/
theorem symbol_of_lookup {content : String}
    (h : (({} : Tables).symbolLabels.lookup content).isSome) :
    ∃ c, content.toList = [c] ∧ Text.trimEnd [c] = [c] ∧ c ≠ 'T' ∧ c ≠ ':' := by
  simp only [List.lookup_cons, List.lookup_nil] at h
  split at h
  · next same =>
    rw [beq_iff_eq.mp same]
    exact ⟨'✅', by decide⟩
  · split at h
    · next same =>
      rw [beq_iff_eq.mp same]
      exact ⟨'🔧', by decide⟩
    · contradiction

/-- No sentence that introduces examples begins or ends with a symbol, so what ends examples
still does when the symbols are annotated. -/
theorem endsExamples_annotated {n : Node} (h : endsExamples {} n = true) :
    endsExamples {} (annotated {} n) = true := by
  cases n with
  | leaf l => contradiction
  | branch b kids =>
    cases b with
    | heading level => rfl
    | paragraph =>
      have trigger : isTrigger {} (Node.paragraph kids) = true := h
      obtain ⟨begins, ends⟩ := sentence_of_isTrigger trigger
      have first : Node.textAt (annotatedAll {} kids) 0 = Node.textAt kids 0 := by
        rcases textAt_annotatedAll {} kids 0 with same | ⟨-, symbol⟩
        · exact same
        · obtain ⟨c, is, kept, other, -⟩ := symbol_of_lookup symbol
          rw [is, kept] at begins
          exact absurd (Option.some.inj begins) other
      have third : Node.textAt (annotatedAll {} kids) 2 = Node.textAt kids 2 := by
        rcases textAt_annotatedAll {} kids 2 with same | ⟨-, symbol⟩
        · exact same
        · obtain ⟨c, is, -, -, other⟩ := symbol_of_lookup symbol
          rw [is, List.getLast?_concat] at ends
          exact absurd (Option.some.inj ends) other
      change isTrigger {} (Node.paragraph (annotatedAll {} kids)) = true
      have filled : (annotatedAll {} kids).isEmpty = kids.isEmpty := by
        rw [annotatedAll_eq_map, List.isEmpty_map]
      rw [isTrigger, first, third, filled]
      exact trigger
    | _ => contradiction

theorem compatible_default : Compatible {} where
  opening kind label := isTrigger_of_colon (by simp [String.toList_append])
  closing := isTrigger_of_colon rfl
  ends _ := endsExamples_annotated

/-- A branch that is annotated was a branch with the same label before. -/
theorem eq_branch_of_annotated {tables : Tables} {n : Node} {b : Branch} {kids : List Node}
    (h : annotated tables n = .branch b kids) :
    ∃ kids', n = .branch b kids' ∧ kids = annotatedAll tables kids' := by
  cases n with
  | branch c inner =>
    cases h
    exact ⟨inner, rfl, rfl⟩
  | leaf l =>
    rw [annotated, annotatedLeaf] at h
    split at h <;> cases h

theorem eq_cons_of_annotatedAll {tables : Tables} {ns ms : List Node} {m : Node}
    (h : m :: ms = annotatedAll tables ns) :
    ∃ n ns', ns = n :: ns' ∧ m = annotated tables n ∧ ms = annotatedAll tables ns' := by
  cases ns with
  | nil => contradiction
  | cons n ns' =>
    cases h
    exact ⟨n, ns', rfl, rfl, rfl⟩

/-- Annotating symbols makes no quote a labelled one, if nothing is labelled by the empty text. -/
theorem labelledQuote?_annotated {tables : Tables}
    (nameless : tables.admonitionKinds.lookup "" = none) {n : Node}
    (h : labelledQuote? tables n = none) : labelledQuote? tables (annotated tables n) = none := by
  cases labelled : labelledQuote? tables (annotated tables n) with
  | none => rfl
  | some found =>
    obtain ⟨kind, label, rest, blocks⟩ := found
    obtain ⟨run, same, named, found⟩ := labelledQuote?_eq_some_iff.mp labelled
    obtain ⟨kids, rfl, quote⟩ := eq_branch_of_annotated same
    obtain ⟨first, blocks', rfl, first', -⟩ := eq_cons_of_annotatedAll quote
    obtain ⟨content, rfl, inline⟩ := eq_branch_of_annotated first'.symm
    obtain ⟨strong, rest', rfl, strong', -⟩ := eq_cons_of_annotatedAll inline
    obtain ⟨run', rfl, rfl⟩ := eq_branch_of_annotated strong'.symm
    rcases textAt_annotatedAll tables run' 0 with kept | ⟨gone, -⟩
    · rw [kept] at named
      rw [labelledQuote?_eq_some_iff.mpr ⟨run', rfl, named, found⟩] at h
      contradiction
    · rw [named, gone, nameless] at found
      contradiction

/-! ## the finished document -/

/-- The document that the examples are wrapped in is well shaped, and behind each trigger in it
there is a division. -/
theorem wrappedBlocks_posted (f : String → String) (tables : Tables) {blocks : List Node}
    (h : Node.WellShaped (.document blocks)) :
    Node.WellShaped (.document (wrappedBlocks f tables blocks)) ∧
      ∀ n ∈ (Node.document (wrappedBlocks f tables blocks)).subtrees,
        Posted tables n.children := by
  rw [Node.wellShaped_branch] at h
  obtain ⟨shape, kinds⟩ := shape_relinkedAll (.ofFunction f) blocks h.2
  have relinked : Node.WellShaped (.document (relinkedAll (.ofFunction f) blocks).1) :=
    Node.wellShaped_branch.mpr ⟨by rw [kinds]; exact h.1, shape⟩
  have same : wrapped tables (.document (relinkedAll (.ofFunction f) blocks).1) =
      .document (wrappedBlocks f tables blocks) := by
    rw [wrapped, if_neg (by simp [isTrigger]), wrappedBlocks]
  rw [← same]
  exact ⟨shape_wrapped tables _ relinked, posted_wrapped tables _ relinked⟩

/-- **What the passes establish together** on every document and with every rewriter that refuses
no link: in the finished document no labelled quote and no symbol is left, and behind a trigger
there is a division that ends before the next trigger or heading of the finished siblings, those
aside that came out of quotes and those that became triggers when the symbols were annotated.  Of
a trigger nothing is said that became one then, or that stands behind a label as what is left of
its paragraph. -/
theorem standard_postconditions (tokens : List Markdown.Token) (f : String → String) :
    let passes := standard (.ofFunction f) {}
    let wrappedTree := (runAll (passes.take 2) (ofTokens tokens)).left
    let convertedTree := (runAll (passes.take 3) (ofTokens tokens)).left
    let finished := runAll passes (ofTokens tokens)
    finished.fault? = none ∧
    (∀ n ∈ finished.left.subtrees, labelledQuote? {} n = none ∧ symbolLabel? {} n = none) ∧
    finished.left = annotated {} convertedTree ∧
    ∀ n ∈ convertedTree.subtrees, ∀ before t behind, n.children = before ++ t :: behind →
      isTrigger {} (annotated {} t) = true →
      BecomesTrigger {} t ∨ BehindLabel {} wrappedTree.subtrees before t ∨
        Introduced {} wrappedTree.subtrees behind := by
  obtain ⟨two, three, four, fault⟩ := run_standard f {} (Document.blocks tokens)
  obtain ⟨shape, posted⟩ := wrappedBlocks_posted f {} (wellShaped_ofTokens tokens)
  have inside := (Node.wellShaped_branch.mp shape).2
  have free := labelFree_convertedAll {} _ (Node.quoteFreeInlines_of_wellShapedAll inside)
  have accounted := (accounted_converted compatible_default _ _ shape (List.Subset.refl _) posted).2
  rw [converted_of_not_labelled rfl] at accounted
  intro passes wrappedTree convertedTree finished
  have annotatedTree : finished.left = annotated {} convertedTree := by
    rw [show convertedTree = _ from three, annotated]
    exact four
  refine ⟨fault, ?_, annotatedTree, ?_⟩
  · rw [annotatedTree, subtrees_annotated, List.forall_mem_map]
    intro n mem
    refine ⟨labelledQuote?_annotated rfl ?_, symbolLabel?_annotated {} n⟩
    rw [show convertedTree = _ from three, subtrees, List.mem_cons] at mem
    rcases mem with rfl | mem
    · rfl
    · exact free n mem
  · intro n mem before t behind children final
    rw [show convertedTree = _ from three] at mem
    cases trigger : isTrigger {} t with
    | false => exact .inl ⟨trigger, final⟩
    | true =>
      have here := accounted n (by rwa [subtreesAll, subtreesAll, List.append_nil]) before t behind
        children trigger
      rw [List.append_nil] at here
      rw [show wrappedTree = _ from two]
      exact .inr here.symm

/-- Do some siblings begin with a division that ends before the next trigger or heading? -/
def beginsDivision : List Node → Bool
  | [] => false
  | n :: ns =>
    (n == openingDivision true || n == openingDivision false)
      && (ns.takeWhile (!endsExamples {} ·)).contains closingDivision

/-- Is there such a division behind every trigger among some siblings? -/
def dividesTriggers : List Node → Bool
  | [] => true
  | n :: ns => (!isTrigger {} n || beginsDivision ns) && dividesTriggers ns

/-- Not every trigger of a finished document has a division behind it that ends before the next
trigger or heading, or behind all its siblings.  A label may be taken from a trigger, a heading may
come out of a quote, and a symbol may be annotated where a sentence that introduces examples begins,
also in a division.  In a quote, the fence of the admonition is the last sibling.  And a quote whose
label stands behind a heading stays. -/
theorem standard_undivided :
    let finished (text : String) :=
      (runAll (standard .unchanged {}) (ofTokens (Markdown.tokenize {} text))).left
    let sentence := "The following patterns are considered problems:"
    let trigger := Node.paragraph [Node.text sentence]
    let late := Node.paragraph [symbolSpan "Standard" "✅", .branch .strong [Node.text "x"],
      Node.text sentence]
    (finished ("> **Note** " ++ sentence)).subtrees.all (dividesTriggers ·.children) = false ∧
      (finished (sentence ++ "\n\n> **Note** x\n>\n> # H")).subtrees.all
        (dividesTriggers ·.children) = false ∧
      (finished ("✅**x**" ++ sentence)).subtrees.all (dividesTriggers ·.children) = false ∧
      (isTrigger {} late = true ∧
        (finished (sentence ++ "\n\n✅**x**" ++ sentence ++ "\n\n# H\n\nmore")).children =
          [trigger, openingDivision false, late, closingDivision,
            .branch (.heading 1) [Node.text "H"], Node.paragraph [Node.text "more"]]) ∧
      (finished ("> **Note** x\n>\n> " ++ sentence ++ "\n>\n> y")).children =
        [openingFence "note" "Note", Node.paragraph [Node.text "x"], trigger, openingDivision false,
          Node.paragraph [Node.text "y"], closingDivision, closingFence] ∧
      .branch .quote [.branch (.heading 1) [Node.text "H"],
          Node.paragraph [.branch .strong [Node.text "Note"], Node.text " x"]] ∈
        (finished "> # H\n>\n> **Note** x").subtrees := by
  decide +kernel

end Docsite.Pass
