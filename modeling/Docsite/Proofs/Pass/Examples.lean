import Docsite.Pass.Examples
import Docsite.Proofs.Walk.Step

/-!
# Docsite.Proofs.Pass.Examples

What wrapping the examples leaves.

The pass edits the very list that it walks through: behind each trigger two nodes are put
into the siblings, so everything ahead moves.  `wrappedSiblings` says what comes out without
any of that, by recursion on the siblings as they were: it remembers only whether a division
is open.  While the walk goes on, the siblings ahead of it are the original ones with the end
of the open division among them (`withEnd`), and that is all the walk has to know.
-/

namespace Docsite.Pass

open Document Docsite.Tree

/-! ## the wrapped document -/

mutual

/-- A node with the examples below it wrapped.  Inside a trigger nothing is wrapped. -/
def wrapped (tables : Tables) : Node → Node
  | .leaf l => .leaf l
  | .branch b kids =>
    if isTrigger tables (.branch b kids) then .branch b kids
    else .branch b (wrappedSiblings tables false kids)

/-- Siblings with a division after each trigger among them, and with the nodes that are no
trigger wrapped.  A division that is open ends before the next trigger or heading, or after
the last sibling. -/
def wrappedSiblings (tables : Tables) (inside : Bool) : List Node → List Node
  | [] => if inside then [closingDivision] else []
  | n :: ns =>
    let ends := inside && endsExamples tables n
    let closing := if ends then [closingDivision] else []
    if isTrigger tables n then
      closing ++ n :: openingDivision (negates n.children) :: wrappedSiblings tables true ns
    else closing ++ wrapped tables n :: wrappedSiblings tables (inside && !ends) ns

end

mutual

/-- The second node is the first with divisions put among its descendants, and with nothing
else changed. -/
inductive Divided : Node → Node → Prop
  | leaf (l : Leaf) : Divided (.leaf l) (.leaf l)
  | branch (b : Branch) {ns ms : List Node} :
    DividedAll ns ms → Divided (.branch b ns) (.branch b ms)

/-- The second siblings are the first, all of them in their order, with divisions put in. -/
inductive DividedAll : List Node → List Node → Prop
  | nil : DividedAll [] []
  | keep {n m : Node} {ns ms : List Node} :
    Divided n m → DividedAll ns ms → DividedAll (n :: ns) (m :: ms)
  | opening (valid : Bool) {ns ms : List Node} :
    DividedAll ns ms → DividedAll ns (openingDivision valid :: ms)
  | closing {ns ms : List Node} : DividedAll ns ms → DividedAll ns (closingDivision :: ms)

end

/-- The siblings ahead of a walk, with the end of the division that is open. -/
def withEnd (tables : Tables) (inside : Bool) (ns : List Node) : List Node :=
  if inside then
    ns.takeWhile (!endsExamples tables ·) ++ closingDivision :: ns.dropWhile (!endsExamples tables ·)
  else ns

section

variable {tables : Tables}

theorem endsExamples_of_isTrigger {n : Node} (h : isTrigger tables n = true) :
    endsExamples tables n = true := by
  unfold endsExamples
  split
  · rfl
  · exact h

theorem isTrigger_of_not_endsExamples {n : Node} (h : endsExamples tables n = false) :
    isTrigger tables n = false := by
  cases trigger : isTrigger tables n with
  | false => rfl
  | true =>
    rw [endsExamples_of_isTrigger trigger] at h
    contradiction

theorem withEnd_false (ns : List Node) : withEnd tables false ns = ns := rfl

theorem withEnd_true_nil : withEnd tables true [] = [closingDivision] := rfl

theorem withEnd_true_of_ends {n : Node} (ns : List Node) (h : endsExamples tables n = true) :
    withEnd tables true (n :: ns) = closingDivision :: n :: ns := by
  simp [withEnd, h]

theorem withEnd_cons {inside : Bool} {n : Node} (ns : List Node)
    (h : (inside && endsExamples tables n) = false) :
    withEnd tables inside (n :: ns) = n :: withEnd tables inside ns := by
  cases inside with
  | false => rfl
  | true =>
    rw [Bool.true_and] at h
    simp [withEnd, h]

theorem wrappedSiblings_of_ends {n : Node} (ns : List Node)
    (h : endsExamples tables n = true) :
    wrappedSiblings tables true (n :: ns) =
      closingDivision :: wrappedSiblings tables false (n :: ns) := by
  cases trigger : isTrigger tables n <;> simp [wrappedSiblings, h, trigger]

theorem wrappedSiblings_of_isTrigger {inside : Bool} {n : Node} (ns : List Node)
    (stays : (inside && endsExamples tables n) = false) (h : isTrigger tables n = true) :
    wrappedSiblings tables inside (n :: ns) =
      n :: openingDivision (negates n.children) :: wrappedSiblings tables true ns := by
  simp [wrappedSiblings, stays, h]

theorem wrappedSiblings_of_other {inside : Bool} {n : Node} (ns : List Node)
    (stays : (inside && endsExamples tables n) = false) (h : isTrigger tables n = false) :
    wrappedSiblings tables inside (n :: ns) =
      wrapped tables n :: wrappedSiblings tables inside ns := by
  simp [wrappedSiblings, stays, h]

end

/-- A wrapped branch keeps its label. -/
theorem wrapped_branch (tables : Tables) (b : Branch) (kids : List Node) :
    ∃ kids', wrapped tables (.branch b kids) = .branch b kids' := by
  rw [wrapped]
  split <;> exact ⟨_, rfl⟩

/-- From a trigger on: the start of its division, the nodes up to the next trigger or heading
among the siblings, and the end. -/
theorem wrappedSiblings_true (tables : Tables) (ns : List Node) :
    wrappedSiblings tables true ns =
      (ns.takeWhile (!endsExamples tables ·)).map (wrapped tables)
        ++ closingDivision :: wrappedSiblings tables false (ns.dropWhile (!endsExamples tables ·)) := by
  induction ns with
  | nil => rfl
  | cons n ns ih =>
    cases ends : endsExamples tables n with
    | true =>
      rw [wrappedSiblings_of_ends ns ends]
      simp [ends]
    | false =>
      rw [wrappedSiblings_of_other ns (by simp [ends]) (isTrigger_of_not_endsExamples ends), ih]
      simp [ends]

/-! ## what was there before -/

mutual

theorem divided_refl : (n : Node) → Divided n n
  | .leaf l => .leaf l
  | .branch b kids => .branch b (dividedAll_refl kids)

theorem dividedAll_refl : (ns : List Node) → DividedAll ns ns
  | [] => .nil
  | n :: ns => .keep (divided_refl n) (dividedAll_refl ns)

end

mutual

/-- A wrapped node holds all that the node held. -/
theorem divided_wrapped (tables : Tables) : (n : Node) → Divided n (wrapped tables n)
  | .leaf l => by
    rw [wrapped]
    exact .leaf l
  | .branch b kids => by
    rw [wrapped]
    split
    · exact divided_refl _
    · exact .branch b (dividedAll_wrappedSiblings tables false kids)

/-- Wrapped siblings are the siblings with divisions among them. -/
theorem dividedAll_wrappedSiblings (tables : Tables) (inside : Bool) :
    (ns : List Node) → DividedAll ns (wrappedSiblings tables inside ns)
  | [] => by
    cases inside with
    | false => exact .nil
    | true => exact .closing .nil
  | n :: ns => by
    have open' := dividedAll_wrappedSiblings tables true ns
    have shut := dividedAll_wrappedSiblings tables false ns
    have kept := divided_wrapped tables n
    cases ends : inside && endsExamples tables n <;> cases trigger : isTrigger tables n <;>
      simp only [wrappedSiblings, ends, trigger, if_true, if_false, Bool.false_eq_true,
        List.nil_append, List.cons_append]
    · exact .keep kept (by cases inside <;> assumption)
    · exact .keep (divided_refl n) (.opening _ open')
    · exact .closing (.keep kept (by simpa using shut))
    · exact .closing (.keep (divided_refl n) (.opening _ open'))

end

/-! ## the walk -/

/-- The visitor of the pass. -/
abbrev exampleVisitor (tables : Tables) : Visitor Nat Empty :=
  Visitor.only (isTrigger tables) (visitTrigger tables)

/-- A trigger stays where it is, and a division starts behind it. -/
theorem exampleVisitor_trigger {tables : Tables} {n : Node} (h : isTrigger tables n = true)
    (count : Nat) (b : Branch) (before after : List Node) :
    exampleVisitor tables count n (some (.between b before after)) =
      ⟨count + 1, n, (Spot.between b before after).keeping
        (openingDivision (negates n.children) :: withEnd tables true after), .skip⟩ := by
  rw [exampleVisitor, Visitor.only_of_true h]
  simp [visitTrigger, Spot.keeping, withEnd]

section

variable {tables : Tables} {fuel count : Nat} {b : Branch} {n : Node}

/-- The marks of a division are stepped over. -/
theorem walkFrom_html (content : String) (before after : List Node) :
    walkFrom (exampleVisitor tables) (fuel + 1) count b (before ++ .html content :: after)
        before.length =
      walkFrom (exampleVisitor tables) fuel count b ((before ++ [Node.html content]) ++ after)
        (before ++ [Node.html content]).length :=
  walkFrom_unseen fuel rfl rfl

/-- Behind a trigger the walk stands after the start of its division. -/
theorem walkFrom_trigger (h : isTrigger tables n = true) (before after : List Node) :
    walkFrom (exampleVisitor tables) (fuel + 2) count b (before ++ n :: after) before.length =
      walkFrom (exampleVisitor tables) fuel (count + 1) b
        ((before ++ [n, openingDivision (negates n.children)]) ++ withEnd tables true after)
        (before ++ [n, openingDivision (negates n.children)]).length := by
  rw [walkFrom_skip (fuel + 1) (exampleVisitor_trigger h count b before after),
    openingDivision, walkFrom_html]
  simp only [List.append_assoc, List.cons_append, List.nil_append]

end

mutual

/-- Below a node that is no trigger the walk leaves what is wrapped. -/
theorem walkBelow_wrapped (tables : Tables) : (n : Node) → isTrigger tables n = false →
    (fuel count : Nat) → 3 * n.size ≤ fuel →
    ∃ total, walkBelow (exampleVisitor tables) fuel count n = ⟨total, wrapped tables n, .finished⟩
  | .leaf l, _, fuel, count, _ => ⟨count, by simp only [walkBelow, wrapped]⟩
  | .branch b kids, other, fuel, count, enough => by
    simp only [Tree.size] at enough
    obtain ⟨total, walked⟩ :=
      walkFrom_wrapped tables kids false [] b fuel count (by omega)
    simp only [List.nil_append, List.length_nil, withEnd_false] at walked
    exact ⟨total, by simp [walkBelow, walked, wrapped, other]⟩

/-- Through siblings, of which the walk has those before behind it, it leaves what is
wrapped. -/
theorem walkFrom_wrapped (tables : Tables) : (ns : List Node) → (inside : Bool) →
    (before : List Node) → (b : Branch) → (fuel count : Nat) → 3 * sizeAll ns + 2 ≤ fuel →
    ∃ total, walkFrom (exampleVisitor tables) fuel count b (before ++ withEnd tables inside ns)
        before.length =
      ⟨total, before ++ wrappedSiblings tables inside ns, .finished⟩
  | [], inside, before, b, fuel + 2, count, _ => by
    refine ⟨count, ?_⟩
    cases inside with
    | false => simpa [withEnd, wrappedSiblings] using walkFrom_end _ (fuel + 1) count b before
    | true =>
      rw [withEnd_true_nil, closingDivision, walkFrom_html, List.append_nil, walkFrom_end]
      simp [wrappedSiblings, closingDivision]
  | n :: ns, inside, before, b, fuel, count, enough => by
    simp only [sizeAll] at enough
    have positive := n.size_pos
    -- The node itself, once the division before it has ended or goes on.
    have node : ∀ (inside : Bool) (before : List Node) (fuel : Nat),
        (inside && endsExamples tables n) = false → 3 * (n.size + sizeAll ns) + 1 ≤ fuel →
        ∃ total, walkFrom (exampleVisitor tables) fuel count b
            (before ++ withEnd tables inside (n :: ns)) before.length =
          ⟨total, before ++ wrappedSiblings tables inside (n :: ns), .finished⟩ := by
      intro inside before fuel stays enough
      rw [withEnd_cons ns stays]
      cases trigger : isTrigger tables n with
      | true =>
        obtain ⟨fuel, rfl⟩ := Nat.exists_eq_add_of_le' (show 2 ≤ fuel by omega)
        have closed : inside = false := by
          simpa [endsExamples_of_isTrigger trigger] using stays
        subst closed
        obtain ⟨total, walked⟩ := walkFrom_wrapped tables ns true
          (before ++ [n, openingDivision (negates n.children)]) b fuel (count + 1) (by omega)
        refine ⟨total, ?_⟩
        rw [withEnd_false, walkFrom_trigger trigger, walked,
          wrappedSiblings_of_isTrigger ns stays trigger]
        simp only [List.append_assoc, List.cons_append, List.nil_append]
      | false =>
        obtain ⟨fuel, rfl⟩ := Nat.exists_eq_add_of_le' (show 1 ≤ fuel by omega)
        obtain ⟨here, below⟩ := walkBelow_wrapped tables n trigger fuel count (by omega)
        obtain ⟨total, walked⟩ := walkFrom_wrapped tables ns inside
          (before ++ [wrapped tables n]) b fuel here (by omega)
        refine ⟨total, ?_⟩
        rw [walkFrom_unseen fuel trigger below, walked, wrappedSiblings_of_other ns stays trigger]
        simp only [List.append_assoc, List.cons_append, List.nil_append]
    cases ends : inside && endsExamples tables n with
    | false => exact node inside before fuel ends (by omega)
    | true =>
      rw [Bool.and_eq_true] at ends
      obtain ⟨rfl, ends⟩ := ends
      obtain ⟨fuel, rfl⟩ := Nat.exists_eq_add_of_le' (show 1 ≤ fuel by omega)
      obtain ⟨total, walked⟩ :=
        node false (before ++ [closingDivision]) fuel rfl (by omega)
      refine ⟨total, ?_⟩
      rw [withEnd_true_of_ends ns ends, closingDivision, walkFrom_html]
      rw [withEnd_false, closingDivision] at walked
      rw [walked, wrappedSiblings_of_ends ns ends]
      simp only [closingDivision, List.append_assoc, List.cons_append, List.nil_append]

end

/-! ## the pass -/

/-- The walk of the pass comes to its end, and what it leaves are the wrapped siblings. -/
theorem walk_examples (tables : Tables) (blocks : List Node) (more : Nat) :
    ∃ total, (Node.document blocks).walk (exampleVisitor tables)
        (enoughSteps (.document blocks) + more) 0 =
      ⟨total, Node.document (wrappedSiblings tables false blocks), .finished⟩ := by
  have root : exampleVisitor tables 0 (Node.document blocks) none =
      ⟨0, Node.document blocks, [], .proceed⟩ := by
    simp [exampleVisitor, Visitor.only, isTrigger]
  have enough : 3 * sizeAll blocks + 2 ≤ enoughSteps (.document blocks) + more := by
    simp only [enoughSteps, Tree.size]
    omega
  obtain ⟨total, walked⟩ := walkFrom_wrapped tables blocks false [] .root _ 0 enough
  simp only [List.nil_append, List.length_nil, withEnd_false] at walked
  refine ⟨total, ?_⟩
  rw [walk_proceed _ root, walkBelow, walked]

theorem wrapExamples_left (tables : Tables) (blocks : List Node) :
    ((wrapExamples tables).run (.document blocks)).left =
      .document (wrappedSiblings tables false blocks) := by
  obtain ⟨total, walked⟩ := walk_examples tables blocks 0
  rw [Nat.add_zero] at walked
  rw [wrapExamples, ← exampleVisitor]
  simp only
  rw [walked]

/-- **The examples of every document are wrapped**: the pass comes to its end however many
steps it may spend beyond those it has, and leaves the siblings at every level as
`wrappedSiblings` has them.  There a trigger is followed by the start of its division, the
nodes up to the next trigger or heading among the original siblings, and the end of the
division; and nothing that was in the document is lost, doubled, moved or changed. -/
theorem wrapExamples_document (tables : Tables) (blocks : List Node) :
    (∀ more, ((Node.document blocks).walk (Visitor.only (isTrigger tables) (visitTrigger tables))
        (enoughSteps (.document blocks) + more) 0).ending = .finished) ∧
    ((wrapExamples tables).run (.document blocks)).answer = .document ∧
    ((wrapExamples tables).run (.document blocks)).left =
      .document (wrappedSiblings tables false blocks) ∧
    (∀ n ns, isTrigger tables n = true →
      wrappedSiblings tables false (n :: ns) =
        n :: openingDivision (negates n.children)
          :: (ns.takeWhile (!endsExamples tables ·)).map (wrapped tables)
          ++ closingDivision
          :: wrappedSiblings tables false (ns.dropWhile (!endsExamples tables ·))) ∧
    DividedAll blocks (wrappedSiblings tables false blocks) := by
  refine ⟨fun more => ?_, ?_, wrapExamples_left tables blocks, fun n ns trigger => ?_, ?_⟩
  · obtain ⟨total, walked⟩ := walk_examples tables blocks more
    rw [← exampleVisitor, walked]
  · change answerWith ((wrapExamples tables).run (.document blocks)).left = .document
    rw [wrapExamples_left]
    rfl
  · rw [wrappedSiblings_of_isTrigger ns rfl trigger, wrappedSiblings_true]
    rfl
  · exact dividedAll_wrappedSiblings tables false blocks

example : wrappedSiblings { triggerSentences := ["T"] } false
    [Node.paragraph [Node.text "T "],
      Node.paragraph [Node.text "T", .branch .emphasis [Node.text "not"]], Node.html "example",
      .branch (.heading 2) []] =
    [Node.paragraph [Node.text "T "], openingDivision false, closingDivision,
      Node.paragraph [Node.text "T", .branch .emphasis [Node.text "not"]], openingDivision true,
      Node.html "example", closingDivision, .branch (.heading 2) []] := by
  decide

end Docsite.Pass
