import Docsite.Proofs.Pass.Sequence
import Docsite.Proofs.Pass.Shape

/-!
# Docsite.Proofs.Pass.Nesting

Divisions and admonitions do not cross.

The passes put marks among the siblings of a document: the start and the end of a division,
and the fences of an admonition.  Wrapping the examples leaves pairs of divisions side by side
in every list of siblings.  Converting the quotes dissolves lists into the lists that they stand
in, and what comes for a quote is a word of marks that is well nested in itself; put anywhere
into a well-nested word it leaves a well-nested word (`WellNested.insert`), so it does not
matter where the divisions around the quote start and end.
-/

namespace Docsite.Pass

open Document Docsite.Tree

/-! ## well-nested words -/

/-- What a pair of marks stands around. -/
inductive Enclosure where
  | division
  | admonition
  deriving DecidableEq, Repr

/-- A mark among siblings. -/
inductive Mark where
  | opens (what : Enclosure)
  | closes (what : Enclosure)
  deriving DecidableEq, Repr

/-- Words of marks in which every mark that opens is closed by one of its own kind, and in which
no pair crosses another. -/
inductive WellNested : List Mark → Prop
  | nil : WellNested []
  | pair (what : Enclosure) {inside after : List Mark} : WellNested inside → WellNested after →
    WellNested (.opens what :: inside ++ .closes what :: after)

namespace WellNested

theorem append {word word' : List Mark} (left : WellNested word) (right : WellNested word') :
    WellNested (word ++ word') := by
  induction left with
  | nil => exact right
  | pair what inside _ _ ih =>
    rw [List.append_assoc, List.cons_append]
    exact .pair what inside ih

/-- A well-nested word around a well-nested word. -/
theorem enclose (what : Enclosure) {word : List Mark} (h : WellNested word) :
    WellNested (.opens what :: word ++ [.closes what]) :=
  .pair what h .nil

/-- A well-nested word put anywhere into a well-nested word leaves one. -/
theorem insert {word : List Mark} (h : WellNested word) {before after : List Mark}
    (around : WellNested (before ++ after)) : WellNested (before ++ word ++ after) := by
  generalize is : before ++ after = whole at around
  induction around generalizing before after with
  | nil =>
    obtain ⟨rfl, rfl⟩ := List.append_eq_nil_iff.mp is
    simpa using h
  | @pair what inside rest nested rested insideIH restIH =>
    cases before with
    | nil =>
      rw [List.nil_append] at is
      subst is
      exact h.append (.pair what nested rested)
    | cons first before =>
      rw [List.cons_append, List.cons_append, List.cons.injEq] at is
      obtain ⟨rfl, is⟩ := is
      -- The place is inside the first pair, or behind it.
      rcases List.append_eq_append_iff.mp is with ⟨more, rfl, rfl⟩ | ⟨more, rfl, closed⟩
      · have split := WellNested.pair what (insideIH rfl) rested
        simpa only [List.cons_append, List.append_assoc] using split
      · cases more with
        | nil =>
          rw [List.nil_append] at closed
          subst closed
          have split := WellNested.pair what (nested.append h) rested
          simpa only [List.cons_append, List.append_assoc, List.append_nil] using split
        | cons mark more =>
          rw [List.cons_append, List.cons.injEq] at closed
          obtain ⟨rfl, rfl⟩ := closed
          have split := WellNested.pair what nested (restIH rfl)
          simpa only [List.cons_append, List.append_assoc] using split

end WellNested

/-! ## the marks among siblings -/

/-- Does a text begin like a fence? -/
def fenceLike (content : String) : Bool := ":::".toList.isPrefixOf content.toList

/-- The mark that a node looks like. -/
def mark? : Node → Option Mark
  | .leaf (.htmlBlock content) =>
    if Node.html content = closingDivision then some (.closes .division)
    else if Node.html content = openingDivision true ∨ Node.html content = openingDivision false
      then some (.opens .division)
    else none
  | .branch .paragraph [.leaf (.text content)] =>
    if content = ":::" then some (.closes .admonition)
    else if fenceLike content then some (.opens .admonition)
    else none
  | _ => none

/-- The marks among siblings, in their order.  Behind the fence that opens an admonition stands
what is left of the labelled paragraph, which is no mark, whatever it looks like. -/
def marks : List Node → List Mark
  | [] => []
  | [n] => (mark? n).toList
  | n :: m :: ns =>
    if mark? n = some (.opens .admonition) then .opens .admonition :: marks ns
    else (mark? n).toList ++ marks (m :: ns)

/-- A node that neither is raw HTML nor begins like a fence. -/
def isUnmarked : Node → Bool
  | .leaf (.htmlBlock _) => false
  | .branch .paragraph (.leaf (.text content) :: _) => !fenceLike content
  | _ => true

/-- A node of a document in which divisions are the only marks. -/
def isTidy (n : Node) : Bool :=
  isUnmarked n || n == closingDivision || n == openingDivision true || n == openingDivision false

theorem marks_cons {n : Node} (ns : List Node) (h : mark? n ≠ some (.opens .admonition)) :
    marks (n :: ns) = (mark? n).toList ++ marks ns := by
  cases ns with
  | nil => simp [marks]
  | cons m ns => rw [marks, if_neg h]

theorem marks_cons_of_none {n : Node} (ns : List Node) (h : mark? n = none) :
    marks (n :: ns) = marks ns := by
  rw [marks_cons ns (by simp [h]), h]
  rfl

theorem marks_openingDivision (valid : Bool) (ns : List Node) :
    marks (openingDivision valid :: ns) = .opens .division :: marks ns := by
  have mark : mark? (openingDivision valid) = some (.opens .division) := by
    cases valid <;> decide
  rw [marks_cons ns (by simp [mark]), mark]
  rfl

theorem marks_closingDivision (ns : List Node) :
    marks (closingDivision :: ns) = .closes .division :: marks ns := by
  have mark : mark? closingDivision = some (.closes .division) := by decide
  rw [marks_cons ns (by simp [mark]), mark]
  rfl

theorem marks_closingFence (ns : List Node) :
    marks (closingFence :: ns) = .closes .admonition :: marks ns := by
  have mark : mark? closingFence = some (.closes .admonition) := by decide
  rw [marks_cons ns (by simp [mark]), mark]
  rfl

/-- The fence that opens an admonition is longer than the one that closes it. -/
theorem mark?_openingFence (kind label : String) :
    mark? (openingFence kind label) = some (.opens .admonition) := by
  have longer : ":::" ++ kind ++ " " ++ label ≠ ":::" := by
    intro same
    have blank : " ".length = 1 := rfl
    have lengths := congrArg String.length same
    simp only [String.length_append, blank] at lengths
    omega
  have fence : fenceLike (":::" ++ kind ++ " " ++ label) = true := by
    simp [fenceLike, String.toList_append]
  simp [openingFence, mark?, longer, fence]

theorem marks_openingFence (kind label : String) (n : Node) (ns : List Node) :
    marks (openingFence kind label :: n :: ns) = .opens .admonition :: marks ns := by
  rw [marks, if_pos (mark?_openingFence kind label)]

theorem mark?_of_isUnmarked {n : Node} (h : isUnmarked n = true) : mark? n = none := by
  unfold mark?
  split
  · contradiction
  · next content =>
    have plain : fenceLike content = false := by simpa [isUnmarked] using h
    have other : content ≠ ":::" := by
      rintro rfl
      contradiction
    simp [plain, other]
  · rfl

theorem marks_of_isUnmarked {ns : List Node} (h : ∀ n ∈ ns, isUnmarked n = true) :
    marks ns = [] := by
  induction ns with
  | nil => rfl
  | cons n ns ih =>
    rw [List.forall_mem_cons] at h
    rw [marks_cons_of_none ns (mark?_of_isUnmarked h.1), ih h.2]

/-- In a tidy document no admonition is opened. -/
theorem mark?_of_isTidy {n : Node} (h : isTidy n = true) :
    mark? n ≠ some (.opens .admonition) := by
  simp only [isTidy, Bool.or_eq_true, beq_iff_eq] at h
  obtain ((unmarked | rfl) | rfl) | rfl := h
  · rw [mark?_of_isUnmarked unmarked]
    nofun
  all_goals decide

/-- The branches of a tidy document are no marks. -/
theorem isUnmarked_of_isTidy {b : Branch} {kids : List Node}
    (h : isTidy (.branch b kids) = true) : isUnmarked (.branch b kids) = true := by
  simpa [isTidy, openingDivision, closingDivision] using h

/-- Whether a node begins like a fence, its first child alone decides. -/
theorem isUnmarked_cons (b : Branch) (kid : Node) (kids kids' : List Node) :
    isUnmarked (.branch b (kid :: kids)) = isUnmarked (.branch b (kid :: kids')) := by
  cases kid with
  | leaf l => cases b <;> cases l <;> rfl
  | branch c inner => cases b <;> rfl

/-- A node that begins with a branch does not begin like a fence. -/
theorem isUnmarked_branch_cons (b c : Branch) (inner kids : List Node) :
    isUnmarked (.branch b (.branch c inner :: kids)) = true := by
  cases b <;> rfl

/-! ## wrapping -/

section

variable {tables : Tables}

theorem isUnmarked_wrapped {n : Node} (h : isUnmarked n = true) :
    isUnmarked (wrapped tables n) = true := by
  cases n with
  | leaf l => rwa [wrapped]
  | branch b kids =>
    rw [wrapped]
    split
    · exact h
    · cases kids with
      | nil => exact h
      | cons kid kids =>
        cases trigger : isTrigger tables kid with
        | true =>
          rw [wrappedSiblings_of_isTrigger kids rfl trigger, isUnmarked_cons b kid _ kids]
          exact h
        | false =>
          rw [wrappedSiblings_of_other kids rfl trigger]
          cases kid with
          | leaf l =>
            rw [wrapped, isUnmarked_cons b _ _ kids]
            exact h
          | branch c inner =>
            obtain ⟨inner', same⟩ := wrapped_branch tables c inner
            rw [same]
            exact isUnmarked_branch_cons b c inner' _

/-- Among wrapped siblings each division that starts ends before the next one starts. -/
theorem wellNested_wrappedSiblings {ns : List Node}
    (each : ∀ n ∈ ns, mark? (wrapped tables n) = none) :
    WellNested (marks (wrappedSiblings tables false ns)) ∧
      ∃ after, marks (wrappedSiblings tables true ns) = .closes .division :: after ∧
        WellNested after := by
  -- The second half is what the first one needs behind a trigger, where a division is open.
  induction ns with
  | nil => exact ⟨.nil, [], rfl, .nil⟩
  | cons n ns ih =>
    rw [List.forall_mem_cons] at each
    obtain ⟨shut, after, opened, behind⟩ := ih each.2
    have shut : WellNested (marks (wrappedSiblings tables false (n :: ns))) := by
      cases trigger : isTrigger tables n with
      | true =>
        have none := each.1
        rw [wrapped_of_isTrigger trigger] at none
        rw [wrappedSiblings_of_isTrigger ns rfl trigger, marks_cons_of_none _ none,
          marks_openingDivision, opened]
        exact .pair .division .nil behind
      | false =>
        rw [wrappedSiblings_of_other ns rfl trigger, marks_cons_of_none _ each.1]
        exact shut
    refine ⟨shut, ?_⟩
    cases ends : endsExamples tables n with
    | true => exact ⟨_, by rw [wrappedSiblings_of_ends ns ends, marks_closingDivision], shut⟩
    | false =>
      refine ⟨after, ?_, behind⟩
      rw [wrappedSiblings_of_other ns (by simp [ends]) (isTrigger_of_not_endsExamples ends),
        marks_cons_of_none _ each.1, opened]

end

/-- Is a document free of marks but for divisions, and are these well nested among siblings
everywhere? -/
def DivisionsNested (ns : List Node) : Prop :=
  ∀ m ∈ subtreesAll ns, isTidy m = true ∧ WellNested (marks m.children)

section

variable {tables : Tables}

theorem divisionsNested_append {ns ms : List Node} :
    DivisionsNested (ns ++ ms) ↔ DivisionsNested ns ∧ DivisionsNested ms := by
  simp only [DivisionsNested, subtreesAll_append, List.forall_mem_append]

theorem divisionsNested_iff {ns : List Node} :
    DivisionsNested ns ↔ ∀ n ∈ ns, DivisionsNested [n] := by
  simp only [DivisionsNested, subtreesAll_eq_flatMap, List.mem_flatMap, List.flatMap_singleton]
  exact ⟨fun h n mem m below => h m ⟨n, mem, below⟩, fun h m ⟨n, mem, below⟩ => h n mem m below⟩

theorem divisionsNested_branch {b : Branch} {kids : List Node} :
    DivisionsNested [.branch b kids] ↔
      (isTidy (.branch b kids) = true ∧ WellNested (marks kids)) ∧ DivisionsNested kids := by
  simp only [DivisionsNested, subtreesAll, subtrees, List.append_nil, List.forall_mem_cons,
    children_branch]

theorem divisionsNested_leaf {l : Leaf} (tidy : isTidy (.leaf l) = true) :
    DivisionsNested [.leaf l] := by
  intro m mem
  rw [subtreesAll, subtreesAll, subtrees, List.append_nil, List.mem_singleton] at mem
  subst mem
  exact ⟨tidy, .nil⟩

theorem isTidy_of_isUnmarked {n : Node} (h : isUnmarked n = true) : isTidy n = true := by
  simp [isTidy, h]

/-- Where there are no marks at all, none are badly nested. -/
theorem divisionsNested_of_isUnmarked {ns : List Node}
    (plain : ∀ m ∈ subtreesAll ns, isUnmarked m = true) : DivisionsNested ns := by
  intro m mem
  refine ⟨isTidy_of_isUnmarked (plain m mem), ?_⟩
  rw [marks_of_isUnmarked fun kid here => plain kid (child_mem_subtreesAll mem here)]
  exact .nil

end

mutual

/-- Wrapping a document without marks leaves divisions that are well nested. -/
theorem divisionsNested_wrapped (tables : Tables) : (n : Node) →
    (∀ m ∈ subtrees n, isUnmarked m = true) → DivisionsNested [wrapped tables n]
  | .leaf l, plain => by
    rw [wrapped]
    exact divisionsNested_leaf (isTidy_of_isUnmarked (plain _ (by simp [subtrees])))
  | .branch b kids, plain => by
    have here : isUnmarked (wrapped tables (.branch b kids)) = true :=
      isUnmarked_wrapped (plain _ (by simp [subtrees]))
    rw [wrapped] at here ⊢
    split
    · exact divisionsNested_of_isUnmarked (by simpa [subtreesAll] using plain)
    · next other =>
      rw [if_neg other] at here
      rw [subtrees, List.forall_mem_cons] at plain
      have each := divisionsNested_wrappedEach tables kids plain.2
      have unmarked : ∀ n ∈ kids, mark? (wrapped tables n) = none := by
        intro n mem
        apply mark?_of_isUnmarked
        apply isUnmarked_wrapped
        exact plain.2 n (mem_subtreesAll mem)
      refine divisionsNested_branch.mpr ⟨⟨isTidy_of_isUnmarked here,
        (wellNested_wrappedSiblings unmarked).1⟩, divisionsNested_iff.mpr ?_⟩
      apply forall_wrappedSiblings
      · exact fun valid => divisionsNested_leaf (by cases valid <;> decide)
      · exact divisionsNested_leaf (by decide)
      · exact each

theorem divisionsNested_wrappedEach (tables : Tables) : (ns : List Node) →
    (∀ m ∈ subtreesAll ns, isUnmarked m = true) →
    ∀ n ∈ ns, DivisionsNested [wrapped tables n]
  | [], _ => by simp
  | n :: ns, plain => by
    rw [subtreesAll, List.forall_mem_append] at plain
    rw [List.forall_mem_cons]
    exact ⟨divisionsNested_wrapped tables n plain.1,
      divisionsNested_wrappedEach tables ns plain.2⟩

end

/-! ## converting -/

/-- Are the marks among some siblings read the same, whatever siblings come behind? -/
def Complete (ns : List Node) : Prop := ∀ tail, marks (ns ++ tail) = marks ns ++ marks tail

/-- May some siblings take the place of others without spoiling any nesting around them, and
are their own marks well nested below? -/
structure FitsFor (ns ms : List Node) : Prop where
  complete : Complete ms
  word : ∀ before after, WellNested (before ++ marks ns ++ after) →
    WellNested (before ++ marks ms ++ after)
  below : ∀ m ∈ subtreesAll ms, WellNested (marks m.children)

theorem complete_nil : Complete [] := fun _ => rfl

theorem complete_singleton {n : Node} (h : mark? n ≠ some (.opens .admonition)) :
    Complete [n] := by
  intro tail
  rw [List.singleton_append, marks_cons tail h, marks_cons [] h, marks, List.append_nil]

theorem Complete.append {ns ms : List Node} (first : Complete ns) (second : Complete ms) :
    Complete (ns ++ ms) := by
  intro tail
  rw [List.append_assoc, first, second, first, List.append_assoc]

namespace FitsFor

/-- Siblings without the fences of admonitions fit for themselves. -/
theorem refl {ns : List Node} (complete : Complete ns) (nested : DivisionsNested ns) :
    FitsFor ns ns where
  complete := complete
  word _ _ h := h
  below m mem := (nested m mem).2

theorem append {ns ns' ms ms' : List Node} (complete : Complete ns) (first : FitsFor ns ms)
    (second : FitsFor ns' ms') : FitsFor (ns ++ ns') (ms ++ ms') where
  complete := first.complete.append second.complete
  word before after h := by
    rw [complete, ← List.append_assoc, List.append_assoc] at h
    have replaced := first.word before (marks ns' ++ after) h
    rw [← List.append_assoc] at replaced
    have both := second.word (before ++ marks ms) after replaced
    rwa [first.complete, ← List.append_assoc]
  below := by
    rw [subtreesAll_append, List.forall_mem_append]
    exact ⟨first.below, second.below⟩

end FitsFor

theorem marks_admonition_append (kind label : String) (rest : List Node) {blocks : List Node}
    (inside : Complete blocks) (tail : List Node) :
    marks (admonition kind label rest blocks ++ tail) =
      (.opens .admonition :: marks blocks ++ [.closes .admonition]) ++ marks tail := by
  simp only [admonition, List.cons_append, List.append_assoc, marks_openingFence, inside _,
    marks_closingFence, List.nil_append]

theorem marks_admonition (kind label : String) (rest : List Node) {blocks : List Node}
    (inside : Complete blocks) :
    marks (admonition kind label rest blocks) =
      .opens .admonition :: marks blocks ++ [.closes .admonition] := by
  have all := marks_admonition_append kind label rest inside []
  rwa [List.append_nil, marks, List.append_nil] at all

theorem complete_admonition (kind label : String) (rest : List Node) {blocks : List Node}
    (inside : Complete blocks) : Complete (admonition kind label rest blocks) := by
  intro tail
  rw [marks_admonition_append kind label rest inside, marks_admonition kind label rest inside]

/-- Trimming makes no mark and takes none away. -/
theorem mark?_trimNode {n : Node} (h : isTidy n = true) : mark? (trimNode n) = mark? n := by
  simp only [isTidy, Bool.or_eq_true, beq_iff_eq] at h
  obtain ((unmarked | rfl) | rfl) | rfl := h
  · unfold trimNode
    split <;> first
      | rfl
      | contradiction
  all_goals decide

/-- A trimmed node is a leaf or the node itself. -/
theorem trimNode_eq (n : Node) : (∃ l, trimNode n = .leaf l) ∨ trimNode n = n := by
  unfold trimNode
  split
  all_goals first
    | exact .inl ⟨_, rfl⟩
    | exact .inr rfl

theorem marks_trimFirst {ns : List Node} (h : ∀ n ∈ ns, isTidy n = true) :
    marks (trimFirst ns) = marks ns := by
  cases ns with
  | nil => rfl
  | cons n ns =>
    have same := mark?_trimNode (h n List.mem_cons_self)
    have other := mark?_of_isTidy (h n List.mem_cons_self)
    rw [trimFirst, marks_cons ns (by rwa [same]), marks_cons ns other, same]

/-- Whether a node begins like a fence does not change when its children are converted. -/
theorem isUnmarked_converted {b : Branch} {kids : List Node}
    (h : isUnmarked (.branch b kids) = true) (tables : Tables) :
    isUnmarked (.branch b (convertedAll tables kids)) = true := by
  cases kids with
  | nil => exact h
  | cons kid kids =>
    rw [convertedAll]
    cases kid with
    | leaf l =>
      rw [converted, List.singleton_append, isUnmarked_cons b _ _ kids]
      exact h
    | branch c inner =>
      -- The first child is now a branch again: the same one, or the fence of an admonition.
      obtain ⟨c', inner', behind, same⟩ : ∃ c' inner' behind,
          converted tables (.branch c inner) = .branch c' inner' :: behind := by
        cases labelled : labelledQuote? tables (.branch c inner) with
        | some found =>
          obtain ⟨kind, label, rest, blocks⟩ := found
          exact ⟨_, _, _, converted_of_labelled labelled⟩
        | none => exact ⟨_, _, _, converted_of_not_labelled labelled⟩
      rw [same, List.cons_append]
      exact isUnmarked_branch_cons b c' inner' _

/-- A branch whose children fit for those that it had fits for the branch. -/
theorem fitsFor_branch {b : Branch} {kids kids' : List Node}
    (before : DivisionsNested [.branch b kids]) (after : isUnmarked (.branch b kids') = true)
    (inside : FitsFor kids kids') : FitsFor [.branch b kids] [.branch b kids'] := by
  obtain ⟨⟨tidy, nested⟩, -⟩ := divisionsNested_branch.mp before
  have none := mark?_of_isUnmarked (isUnmarked_of_isTidy tidy)
  have none' := mark?_of_isUnmarked after
  refine ⟨complete_singleton (by simp [none']), fun left right h => ?_, ?_⟩
  · rw [marks_cons_of_none [] none] at h
    rwa [marks_cons_of_none [] none']
  · have word := inside.word [] [] (by simpa using nested)
    rw [List.nil_append, List.append_nil] at word
    rw [subtreesAll, subtrees, List.cons_append, List.forall_mem_cons, subtreesAll,
      List.append_nil]
    exact ⟨word, inside.below⟩

/-- The rest of a labelled paragraph is as well nested as it was behind the label. -/
theorem wellNested_labelled {run rest : List Node}
    (h : DivisionsNested [Node.paragraph (.branch .strong run :: rest)]) :
    ∀ m ∈ subtrees (Node.paragraph (trimFirst rest)), WellNested (marks m.children) := by
  obtain ⟨⟨-, nested⟩, below⟩ := divisionsNested_branch.mp h
  rw [← List.singleton_append, divisionsNested_append] at below
  have tidy : ∀ n ∈ rest, isTidy n = true := fun n mem =>
    (below.2 n (mem_subtreesAll mem)).1
  have behind : WellNested (marks rest) := by
    rwa [marks_cons_of_none rest (mark?_of_isUnmarked rfl)] at nested
  rw [subtrees, List.forall_mem_cons, children_branch, marks_trimFirst tidy]
  refine ⟨behind, fun m mem => ?_⟩
  cases rest with
  | nil => simp [trimFirst, subtreesAll] at mem
  | cons n ns =>
    rw [trimFirst, subtreesAll, List.mem_append] at mem
    rcases mem with here | later
    · rcases trimNode_eq n with ⟨l, leaf⟩ | same
      · rw [leaf, subtrees, List.mem_singleton] at here
        subst here
        exact .nil
      · rw [same] at here
        exact (below.2 m (List.mem_append_left _ here)).2
    · exact (below.2 m (List.mem_append_right _ later)).2

/-- An admonition fits for the quote whose blocks its own fit for. -/
theorem fitsFor_admonition {tables : Tables} {n : Node} {kind label : String}
    {rest blocks blocks' : List Node} (before : DivisionsNested [n])
    (labelled : labelledQuote? tables n = some (kind, label, rest, blocks))
    (inside : FitsFor blocks blocks') : FitsFor [n] (admonition kind label rest blocks') := by
  obtain ⟨run, rfl, -⟩ := labelledQuote?_eq_some_iff.mp labelled
  obtain ⟨⟨tidy, nested⟩, below⟩ := divisionsNested_branch.mp before
  rw [← List.singleton_append, divisionsNested_append] at below
  have quote := mark?_of_isUnmarked (isUnmarked_of_isTidy tidy)
  have first : mark? (Node.paragraph (.branch .strong run :: rest)) = none :=
    mark?_of_isUnmarked rfl
  rw [marks_cons_of_none blocks first] at nested
  refine ⟨complete_admonition kind label rest inside.complete, fun left right h => ?_, ?_⟩
  · have word := inside.word [] [] (by simpa using nested)
    rw [List.nil_append, List.append_nil] at word
    rw [marks_cons_of_none [] quote, marks, List.append_nil] at h
    rw [marks_admonition kind label rest inside.complete]
    exact (word.enclose .admonition).insert h
  · exact forall_admonition (fun content => ⟨.nil, .nil⟩) (wellNested_labelled below.1) inside.below

mutual

/-- What a node is converted to fits for the node. -/
theorem fitsFor_converted (tables : Tables) : (n : Node) → DivisionsNested [n] →
    FitsFor [n] (converted tables n)
  | .leaf l, h => by
    rw [converted]
    exact .refl (complete_singleton (mark?_of_isTidy (h _ (by simp [subtreesAll, subtrees])).1)) h
  | .branch b [], h => by
    rw [converted]
    exact .refl (complete_singleton (mark?_of_isTidy (divisionsNested_branch.mp h).1.1)) h
  | .branch b (kid :: blocks), h => by
    obtain ⟨⟨tidy, -⟩, below⟩ := divisionsNested_branch.mp h
    cases labelled : labelledQuote? tables (.branch b (kid :: blocks)) with
    | some found =>
      obtain ⟨kind, label, rest, blocks'⟩ := found
      obtain ⟨run, same, -⟩ := labelledQuote?_eq_some_iff.mp labelled
      cases same
      rw [← List.singleton_append, divisionsNested_append] at below
      rw [converted_of_labelled labelled]
      exact fitsFor_admonition h labelled (fitsFor_convertedAll tables blocks below.2)
    | none =>
      rw [converted_of_not_labelled labelled]
      exact fitsFor_branch h (isUnmarked_converted (isUnmarked_of_isTidy tidy) tables)
        (fitsFor_convertedAll tables (kid :: blocks) below)

/-- What several nodes are converted to fits for them. -/
theorem fitsFor_convertedAll (tables : Tables) : (ns : List Node) → DivisionsNested ns →
    FitsFor ns (convertedAll tables ns)
  | [], h => .refl complete_nil h
  | n :: ns, h => by
    rw [← List.singleton_append, divisionsNested_append] at h
    have complete : Complete [n] :=
      complete_singleton (mark?_of_isTidy (h.1 n (mem_subtreesAll (by simp))).1)
    rw [convertedAll, ← List.singleton_append]
    exact .append complete (fitsFor_converted tables n h.1) (fitsFor_convertedAll tables ns h.2)

end

/-! ## the passes -/

/-- Wrapping and then converting leaves the blocks as the two have them. -/
theorem run_wrapExamples_convertAdmonitions (tables : Tables) (blocks : List Node) :
    (runAll [wrapExamples tables, convertAdmonitions tables] (.document blocks)).left =
        .document (convertedAll tables (wrappedSiblings tables false blocks)) ∧
      (runAll [wrapExamples tables, convertAdmonitions tables] (.document blocks)).fault? =
        none :=
  (leaves_wrapExamples tables blocks).run_pair (leaves_convertAdmonitions tables _)

/-- **Divisions and admonitions are well nested** in every list of siblings, when the examples of
a document are wrapped and then its labelled quotes are converted: if nothing in the document
itself looks like a mark, every mark that opens is closed by one of its own kind in the same
list, and no pair of marks crosses another. -/
theorem wrapExamples_convertAdmonitions_wellNested (tables : Tables) (blocks : List Node)
    (plain : ∀ n ∈ (Node.document blocks).subtrees, isUnmarked n = true) :
    let run := runAll [wrapExamples tables, convertAdmonitions tables] (.document blocks)
    run.fault? = none ∧ ∀ n ∈ run.left.subtrees, WellNested (marks n.children) := by
  obtain ⟨left, fault⟩ := run_wrapExamples_convertAdmonitions tables blocks
  have document := divisionsNested_wrapped tables (.document blocks) plain
  rw [wrapped, if_neg (by simp [isTrigger])] at document
  have converted := fitsFor_converted tables _ document
  rw [converted_of_not_labelled rfl] at converted
  refine ⟨fault, fun n mem => converted.below n ?_⟩
  rw [left] at mem
  rwa [subtreesAll, subtreesAll, List.append_nil]

/-- A trigger before a labelled quote that holds triggers itself, the label among them, and
another labelled quote: the divisions end where they have to, though the lists that the inner
ones were put into are gone. -/
theorem wellNested_quote_behind_trigger :
    let tables : Tables := { triggerSentences := ["T"], admonitionKinds := [("Note", "note")] }
    let label : Node := .branch .strong [Node.text "Note"]
    let trigger : Node := Node.paragraph [Node.text "T"]
    let blocks : List Node :=
      [trigger,
        .branch .quote [Node.paragraph [label, .branch .emphasis [Node.text "not"], Node.text "T"],
          Node.paragraph [Node.text "example"], trigger,
          .branch .quote [Node.paragraph [label, Node.text " :::"]]],
        Node.paragraph [Node.text "example"]]
    let run := runAll [wrapExamples tables, convertAdmonitions tables] (.document blocks)
    (∀ n ∈ (Node.document blocks).subtrees, isUnmarked n = true) ∧
      (∀ n ∈ run.left.subtrees, WellNested (marks n.children)) ∧
      marks run.left.children =
        [.opens .division, .opens .admonition, .opens .division, .closes .division,
          .opens .division, .opens .admonition, .closes .admonition, .closes .division,
          .closes .admonition, .closes .division] := by
  intro tables label trigger blocks run
  have plain : ∀ n ∈ (Node.document blocks).subtrees, isUnmarked n = true := by decide +kernel
  refine ⟨plain, (wrapExamples_convertAdmonitions_wellNested tables blocks plain).2, ?_⟩
  rw [(run_wrapExamples_convertAdmonitions tables blocks).1]
  decide +kernel

end Docsite.Pass
