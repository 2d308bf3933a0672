import Docsite.Pass.Links
import Docsite.Proofs.Document.Urls
import Docsite.Proofs.Walk.Tour

/-!
# Docsite.Proofs.Pass.Links

What rewriting the links leaves.

A link keeps its place and its children and changes its URL, so what comes out is said node
by node, with the refusal that ended the pass, if one did (`relinked`).  What comes behind a
refused link stays as it was, also in the lists that hold the parents of the link.
-/

namespace Docsite.Pass

open Document Docsite.Tree

/-! ## the rewritten document -/

/-- The label of a branch whose URL, if it has one, is rewritten. -/
def relabelled (rewriter : Link.Rewriter) : Branch → Except Link.Refusal Branch
  | .link url title => (rewriter url).map (.link · title)
  | b => .ok b

section

variable {rewriter : Link.Rewriter} {b b' : Branch}

/-- A label that is not refused is that of a link whose URL has an image, or has no URL. -/
theorem relabelled_eq_ok (h : relabelled rewriter b = .ok b') : b.url? = none ∧ b' = b ∨
    ∃ url title image, b = .link url title ∧ rewriter url = .ok image ∧ b' = .link image title := by
  cases b with
  | link url title =>
    cases answer : rewriter url with
    | ok image =>
      simp only [relabelled, answer, Except.map, Except.ok.injEq] at h
      exact .inr ⟨url, title, image, rfl, answer, h.symm⟩
    | error refusal => simp [relabelled, answer, Except.map] at h
  | _ =>
    cases h
    exact .inl ⟨rfl, rfl⟩

/-- A label that is refused is that of a link. -/
theorem relabelled_eq_error {refusal : Link.Refusal} (h : relabelled rewriter b = .error refusal) :
    ∃ url title, b = .link url title ∧ rewriter url = .error refusal := by
  cases b with
  | link url title =>
    cases answer : rewriter url with
    | ok image => simp [relabelled, answer, Except.map] at h
    | error refusal' =>
      simp only [relabelled, answer, Except.map, Except.error.injEq] at h
      exact ⟨url, title, rfl, h ▸ answer⟩
  | _ => contradiction

end

mutual

/-- A node with the links in it rewritten, up to the first that is refused. -/
def relinked (rewriter : Link.Rewriter) : Node → Node × Option Link.Refusal
  | .leaf l => (.leaf l, none)
  | .branch b kids =>
    match relabelled rewriter b with
    | .ok b' => (.branch b' (relinkedAll rewriter kids).1, (relinkedAll rewriter kids).2)
    | .error refusal => (.branch b kids, some refusal)

/-- Nodes with the links in them rewritten, up to the first that is refused. -/
def relinkedAll (rewriter : Link.Rewriter) : List Node → List Node × Option Link.Refusal
  | [] => ([], none)
  | n :: ns =>
    match (relinked rewriter n).2 with
    | none => ((relinked rewriter n).1 :: (relinkedAll rewriter ns).1, (relinkedAll rewriter ns).2)
    | some refusal => ((relinked rewriter n).1 :: ns, some refusal)

end

mutual

/-- A rewriter that refuses nothing rewrites every link. -/
theorem relinked_ofFunction (f : String → String) : (n : Node) →
    (relinked (.ofFunction f) n).2 = none
  | .leaf l => rfl
  | .branch b kids => by
    obtain ⟨b', label⟩ : ∃ b', relabelled (.ofFunction f) b = .ok b' := by
      cases b <;> exact ⟨_, rfl⟩
    rw [relinked, label]
    exact relinkedAll_ofFunction f kids

theorem relinkedAll_ofFunction (f : String → String) : (ns : List Node) →
    (relinkedAll (.ofFunction f) ns).2 = none
  | [] => rfl
  | n :: ns => by
    rw [relinkedAll, relinked_ofFunction f n]
    exact relinkedAll_ofFunction f ns

end

/-- How a walk ends that a refusal may have stopped. -/
def endingOf : Option Link.Refusal → Ending Link.Refusal
  | none => .finished
  | some refusal => .failed refusal

/-! ## the URLs -/

/-- What comes of asking a rewriter about some URLs. -/
structure Answers where
  /-- The URLs that it is asked about, in order. -/
  heard : List String
  /-- The URLs as they are then. -/
  left : List String
  refusal? : Option Link.Refusal

/-- Ask a rewriter about URLs, one after another, up to the first that it refuses. -/
def answers (rewriter : Link.Rewriter) : List String → Answers
  | [] => ⟨[], [], none⟩
  | url :: urls =>
    match rewriter url with
    | .ok new =>
      let later := answers rewriter urls
      ⟨url :: later.heard, new :: later.left, later.refusal?⟩
    | .error refusal => ⟨[url], url :: urls, some refusal⟩

section

variable {rewriter : Link.Rewriter} {b b' : Branch}

/-- The URLs behind others are asked about if none of the others is refused. -/
theorem answers_append (us vs : List String) : answers rewriter (us ++ vs) =
    match (answers rewriter us).refusal? with
    | none => ⟨(answers rewriter us).heard ++ (answers rewriter vs).heard,
        (answers rewriter us).left ++ (answers rewriter vs).left, (answers rewriter vs).refusal?⟩
    | some refusal =>
      ⟨(answers rewriter us).heard, (answers rewriter us).left ++ vs, some refusal⟩ := by
  induction us with
  | nil => rfl
  | cons u us ih =>
    rw [List.cons_append, answers, answers]
    cases rewriter u with
    | ok new =>
      simp only [ih]
      cases (answers rewriter us).refusal? <;> rfl
    | error refusal => rfl

/-- A label that is not refused. -/
theorem answers_of_ok (h : relabelled rewriter b = .ok b') (urls : List String) :
    b'.unlinked = b.unlinked ∧ answers rewriter (b.url?.toList ++ urls) =
      ⟨b.url?.toList ++ (answers rewriter urls).heard,
        b'.url?.toList ++ (answers rewriter urls).left, (answers rewriter urls).refusal?⟩ := by
  rcases relabelled_eq_ok h with ⟨unlinked, rfl⟩ | ⟨url, title, image, rfl, answer, rfl⟩
  · rw [unlinked]
    exact ⟨rfl, rfl⟩
  · refine ⟨rfl, ?_⟩
    simp only [Branch.url?, Option.toList_some, List.singleton_append, answers, answer]

/-- A label that is refused. -/
theorem answers_of_error {refusal : Link.Refusal} (h : relabelled rewriter b = .error refusal)
    (urls : List String) : answers rewriter (b.url?.toList ++ urls) =
      ⟨b.url?.toList, b.url?.toList ++ urls, some refusal⟩ := by
  obtain ⟨url, title, rfl, answer⟩ := relabelled_eq_error h
  simp only [Branch.url?, Option.toList_some, List.singleton_append, answers, answer]

end

mutual

/-- A rewritten node has the URLs that the rewriter has answered with, and is as before in all
else. -/
theorem relinked_answers (rewriter : Link.Rewriter) : (n : Node) →
    (relinked rewriter n).1.unlinked = n.unlinked ∧
      (relinked rewriter n).1.linkUrls = (answers rewriter n.linkUrls).left ∧
      (relinked rewriter n).2 = (answers rewriter n.linkUrls).refusal?
  | .leaf l => ⟨rfl, rfl, rfl⟩
  | .branch b kids => by
    cases label : relabelled rewriter b with
    | ok b' =>
      obtain ⟨rest, urls, refusal⟩ := relinkedAll_answers rewriter kids
      obtain ⟨same, here⟩ := answers_of_ok label (Node.linkUrlsAll kids)
      simp only [relinked, label, Node.unlinked, Node.linkUrls_branch, here, rest, urls, same,
        refusal, and_self]
    | error refusal =>
      have here := answers_of_error label (Node.linkUrlsAll kids)
      simp only [relinked, label, Node.unlinked, Node.linkUrls_branch, here, and_self]

theorem relinkedAll_answers (rewriter : Link.Rewriter) : (ns : List Node) →
    Node.unlinkedAll (relinkedAll rewriter ns).1 = Node.unlinkedAll ns ∧
      Node.linkUrlsAll (relinkedAll rewriter ns).1 =
        (answers rewriter (Node.linkUrlsAll ns)).left ∧
      (relinkedAll rewriter ns).2 = (answers rewriter (Node.linkUrlsAll ns)).refusal?
  | [] => ⟨rfl, rfl, rfl⟩
  | n :: ns => by
    obtain ⟨rest, urls, refusal⟩ := relinked_answers rewriter n
    obtain ⟨rests, others, later⟩ := relinkedAll_answers rewriter ns
    rw [Node.linkUrlsAll_cons, answers_append, relinkedAll, refusal]
    cases (answers rewriter n.linkUrls).refusal? with
    | none =>
      simp only [Node.unlinkedAll, Node.linkUrlsAll_cons, rest, rests, urls, others, later, and_self]
    | some refusal => simp only [Node.unlinkedAll, Node.linkUrlsAll_cons, rest, urls, and_self]

end

/-! ## the walk -/

/-- The visitor of the pass. -/
abbrev linkVisitor (rewriter : Link.Rewriter) : Visitor Nat Link.Refusal :=
  Visitor.only isLink (visitLink rewriter)

/-- What the visitor of the pass keeps when it writes down its calls. -/
abbrev Noted := Nat × List (Call Leaf Branch)

/-- The visitor of the pass that writes down its calls. -/
abbrev notingVisitor (rewriter : Link.Rewriter) : Visitor Noted Link.Refusal :=
  Visitor.only isLink (visitLink rewriter).noting

/-- The URLs of the links that the visitor was called for. -/
def Noted.urls (s : Noted) : List String := s.2.filterMap (Node.url? ·.node)

section

variable {rewriter : Link.Rewriter} {b b' : Branch}

theorem isLink_branch (b : Branch) (kids : List Node) : isLink (.branch b kids) = b.url?.isSome := by
  cases b <;> rfl

/-- A branch that is no link, or a link that is not refused, stays with a new label. -/
theorem notingVisitor_ok (h : relabelled rewriter b = .ok b') (s : Noted) (kids : List Node)
    (c : Branch) (before after : List Node) :
    ∃ s' : Noted, s'.urls = s.urls ++ b.url?.toList ∧
      notingVisitor rewriter s (.branch b kids) (some (.between c before after)) =
        ⟨s', .branch b' kids, (Spot.between c before after).keeping after, .proceed⟩ := by
  rcases relabelled_eq_ok h with ⟨unlinked, rfl⟩ | ⟨url, title, image, rfl, answer, rfl⟩
  · have other : isLink (.branch b' kids) = false := by rw [isLink_branch, unlinked]; rfl
    rw [unlinked]
    exact ⟨s, (List.append_nil _).symm, Visitor.only_of_false other⟩
  · rw [notingVisitor, Visitor.only_of_true rfl]
    simp only [Visitor.noting, visitLink, answer]
    exact ⟨_, by rw [Noted.urls, List.filterMap_append]; rfl, rfl⟩

/-- A link that is refused stays as it is, and the walk is over. -/
theorem notingVisitor_error {refusal : Link.Refusal} (h : relabelled rewriter b = .error refusal)
    (s : Noted) (kids : List Node) (c : Branch) (before after : List Node) :
    ∃ s' : Noted, s'.urls = s.urls ++ b.url?.toList ∧
      notingVisitor rewriter s (.branch b kids) (some (.between c before after)) =
        ⟨s', .branch b kids, (Spot.between c before after).keeping after, .fail refusal⟩ := by
  obtain ⟨url, title, rfl, answer⟩ := relabelled_eq_error h
  rw [notingVisitor, Visitor.only_of_true rfl]
  simp only [Visitor.noting, visitLink, answer]
  exact ⟨_, by rw [Noted.urls, List.filterMap_append]; rfl, rfl⟩

end

mutual

/-- Past a node the walk leaves it rewritten, unless a link below it is refused; then the walk
is over.  The rewriter is asked about the links of the node. -/
theorem walkFrom_relinked (rewriter : Link.Rewriter) : (n : Node) → (before after : List Node) →
    (c : Branch) → (fuel : Nat) → (s : Noted) → n.size ≤ fuel →
    ∃ s' : Noted, s'.urls = s.urls ++ (answers rewriter n.linkUrls).heard ∧
      walkFrom (notingVisitor rewriter) (fuel + 1) s c (before ++ n :: after) before.length =
        match (relinked rewriter n).2 with
        | none => walkFrom (notingVisitor rewriter) fuel s' c
            ((before ++ [(relinked rewriter n).1]) ++ after)
            (before ++ [(relinked rewriter n).1]).length
        | some refusal => ⟨s', before ++ (relinked rewriter n).1 :: after, .failed refusal⟩
  | .leaf l, before, after, c, fuel, s, _ =>
    ⟨s, (List.append_nil _).symm, walkFrom_unseen fuel rfl rfl⟩
  | .branch b kids, before, after, c, fuel, s, enough => by
    simp only [Tree.size] at enough
    rw [Node.linkUrls_branch]
    cases label : relabelled rewriter b with
    | error refusal =>
      obtain ⟨s', noted, reply⟩ := notingVisitor_error label s kids c before after
      rw [answers_of_error label]
      simp only [relinked, label]
      exact ⟨s', noted, walkFrom_fail fuel reply⟩
    | ok b' =>
      obtain ⟨s', noted, reply⟩ := notingVisitor_ok label s kids c before after
      obtain ⟨total, heard, walked⟩ := walkFrom_relinkedAll rewriter kids [] b' fuel s' enough
      simp only [List.nil_append, List.length_nil] at walked
      have below : walkBelow (notingVisitor rewriter) fuel s' (.branch b' kids) =
          ⟨total, .branch b' (relinkedAll rewriter kids).1,
            endingOf (relinkedAll rewriter kids).2⟩ := by
        rw [walkBelow, walked]
      rw [(answers_of_ok label _).2, ← List.append_assoc, ← noted]
      simp only [relinked, label]
      refine ⟨total, heard, ?_⟩
      cases refused : (relinkedAll rewriter kids).2 with
      | none =>
        rw [refused, endingOf] at below
        exact walkFrom_proceed fuel reply below
      | some refusal =>
        rw [refused, endingOf] at below
        exact walkFrom_stop fuel nofun reply below

/-- Past siblings the walk leaves them rewritten, up to a link that is refused. -/
theorem walkFrom_relinkedAll (rewriter : Link.Rewriter) : (ns before : List Node) →
    (c : Branch) → (fuel : Nat) → (s : Noted) → sizeAll ns + 1 ≤ fuel →
    ∃ s' : Noted, s'.urls = s.urls ++ (answers rewriter (Node.linkUrlsAll ns)).heard ∧
      walkFrom (notingVisitor rewriter) fuel s c (before ++ ns) before.length =
        ⟨s', before ++ (relinkedAll rewriter ns).1, endingOf (relinkedAll rewriter ns).2⟩
  | [], before, c, fuel + 1, s, _ => by
    refine ⟨s, (List.append_nil _).symm, ?_⟩
    rw [relinkedAll, List.append_nil, walkFrom_end, endingOf]
  | n :: ns, before, c, fuel + 1, s, enough => by
    simp only [sizeAll] at enough
    have positive := n.size_pos
    obtain ⟨here, noted, passed⟩ := walkFrom_relinked rewriter n before ns c fuel s (by omega)
    obtain ⟨total, heard, walked⟩ :=
      walkFrom_relinkedAll rewriter ns (before ++ [(relinked rewriter n).1]) c fuel here (by omega)
    rw [passed, relinkedAll, Node.linkUrlsAll_cons, answers_append,
      ← (relinked_answers rewriter n).2.2]
    cases (relinked rewriter n).2 with
    | none =>
      refine ⟨total, ?_, by rw [walked, List.append_assoc, List.singleton_append]⟩
      rw [heard, noted, List.append_assoc]
    | some refusal => exact ⟨here, noted, rfl⟩

end

/-- The walk of the pass that writes down its calls leaves the rewritten blocks, ends early only
for a refusal, and asks the rewriter about the links in document order. -/
theorem walk_noted (rewriter : Link.Rewriter) (blocks : List Node) :
    ∃ s : Noted, s.urls = (answers rewriter (Node.linkUrlsAll blocks)).heard ∧
      (Node.document blocks).walk (notingVisitor rewriter) (enoughSteps (.document blocks)) (0, []) =
        ⟨s, Node.document (relinkedAll rewriter blocks).1,
          endingOf (relinkedAll rewriter blocks).2⟩ := by
  have root : notingVisitor rewriter (0, []) (Node.document blocks) none =
      ⟨(0, []), Node.document blocks, [], .proceed⟩ := rfl
  have enough : sizeAll blocks + 1 ≤ enoughSteps (.document blocks) := by
    simp only [enoughSteps, Tree.size]
    omega
  obtain ⟨s, heard, walked⟩ := walkFrom_relinkedAll rewriter blocks [] .root _ (0, []) enough
  simp only [List.nil_append, List.length_nil] at walked
  exact ⟨s, heard, by rw [walk_proceed _ root, walkBelow, walked]⟩

/-! ## the pass -/

/-- The walk of the pass leaves the rewritten blocks, and ends early only for a refusal. -/
theorem walk_links (rewriter : Link.Rewriter) (blocks : List Node) :
    ∃ total, (Node.document blocks).walk (linkVisitor rewriter)
        (enoughSteps (.document blocks)) 0 =
      ⟨total, Node.document (relinkedAll rewriter blocks).1,
        endingOf (relinkedAll rewriter blocks).2⟩ := by
  obtain ⟨s, -, walked⟩ := walk_noted rewriter blocks
  exact ⟨s.1, by rw [linkVisitor, walk_eq_noting, walked]; rfl⟩

/-- Whether the pass fails or not, the tree it leaves is the rewritten one. -/
theorem rewriteLinks_left (rewriter : Link.Rewriter) (blocks : List Node) :
    ((rewriteLinks rewriter).run (.document blocks)).left =
      .document (relinkedAll rewriter blocks).1 := by
  obtain ⟨total, walked⟩ := walk_links rewriter blocks
  rw [rewriteLinks, ← linkVisitor]
  simp only
  rw [walked]
  cases (relinkedAll rewriter blocks).2 with
  | none => rfl
  | some refusal => cases refusal <;> rfl

end Docsite.Pass
