import Docsite.Proofs.Tree.Subtrees
import Docsite.Proofs.Walk.Step

/-!
# Docsite.Proofs.Walk.Tour

The calls of a visitor that leaves the tree alone.

Such a visitor sees a tree that never changes, so its calls are those of a *tour*, which is a
recursion on the tree: at a node that passes the test the visitor is called, and its signal says
whether the tour goes below the node, which of the siblings behind the node are left out, or
that the tour is over.  A tour knows no place by index alone, has no steps to run out of, and
carries no list of siblings that could change; a walk takes just the calls of it (`walk_tour`).
-/

namespace Docsite

variable {L B σ ε : Type}

/-- One call of a visitor: the node that it is shown, and where the node stands. -/
structure Call (L B : Type) where
  node : Tree L B
  spot : Option (Spot L B)

/-- Does a signal lead onward?  An index has to lie behind the node; at the root, which stands
among no siblings, no index but a negative one matters. -/
def Signal.Onward (spot : Option (Spot L B)) : Signal ε → Prop
  | .proceed | .skip | .exit => True
  | .resumeAt index => (spot.map fun s => (s.index : Int) + 1).getD 0 ≤ index
  | .fail _ => False

namespace Visitor

/-- The visitor leaves the tree as it is and only ever leads the walk onward. -/
structure LeavesAlone (v : Visitor L B σ ε) : Prop where
  node : ∀ s t spot, (v s t spot).node = t
  family : ∀ s t spot, (v s t (some spot)).family = spot.family
  onward : ∀ s t spot, (v s t spot).signal.Onward spot

/-- The visitor that also writes down its calls. -/
def noting (v : Visitor L B σ ε) : Visitor L B (σ × List (Call L B)) ε := fun s t spot =>
  let r := v s.1 t spot
  ⟨(r.state, s.2 ++ [⟨t, spot⟩]), r.node, r.family, r.signal⟩

end Visitor

/-! ## tours -/

/-- The outcome of a tour through some nodes: the calls in their order, the state that they
lead to, and whether the last of them ended the whole tour. -/
structure Tour (L B σ : Type) where
  state : σ
  calls : List (Call L B)
  exited : Bool

namespace Tour

/-- A tour that goes on, unless it is over. -/
def andThen (tour : Tour L B σ) (rest : σ → Tour L B σ) : Tour L B σ :=
  if tour.exited then tour
  else ⟨(rest tour.state).state, tour.calls ++ (rest tour.state).calls, (rest tour.state).exited⟩

/-- How a walk ends that makes the calls of a tour. -/
def ending (tour : Tour L B σ) : Ending ε := if tour.exited then .exited else .finished

end Tour

namespace Visitor

/-- The tour at a node, given that below the node, with the index before which the siblings
behind the node are left out. -/
def tourAt (test : Tree L B → Bool) (v : Visitor L B σ ε) (s : σ) (spot : Option (Spot L B))
    (t : Tree L B) (below : σ → Tour L B σ) : Tour L B σ × Nat :=
  if test t then
    let called (exited : Bool) : Tour L B σ := ⟨(v s t spot).state, [⟨t, spot⟩], exited⟩
    match (v s t spot).signal with
    | .proceed => ((called false).andThen below, 0)
    | .skip => (called false, 0)
    | .resumeAt index => ((called false).andThen below, index.toNat)
    | .exit | .fail _ => (called true, 0)
  else (below s, 0)

mutual

/-- The tour below a node. -/
def tourBelow (test : Tree L B → Bool) (v : Visitor L B σ ε) : σ → Tree L B → Tour L B σ
  | s, .leaf _ => ⟨s, [], false⟩
  | s, .branch b kids => tourFrom test v b s [] 0 kids

/-- The tour through siblings that stand behind others; those before the index `start` are
left out. -/
def tourFrom (test : Tree L B → Bool) (v : Visitor L B σ ε) (b : B) :
    σ → List (Tree L B) → Nat → List (Tree L B) → Tour L B σ
  | s, _, _, [] => ⟨s, [], false⟩
  | s, before, start, t :: ts =>
    if before.length < start then tourFrom test v b s (before ++ [t]) start ts
    else
      let here := tourAt test v s (some (.between b before ts)) t fun s => tourBelow test v s t
      here.1.andThen fun s => tourFrom test v b s (before ++ [t]) here.2 ts

end

/-- The tour through a whole tree. -/
def tour (test : Tree L B → Bool) (v : Visitor L B σ ε) (s : σ) (t : Tree L B) : Tour L B σ :=
  (tourAt test v s none t fun s => tourBelow test v s t).1

end Visitor

/-! ## the walk -/

namespace Tree

section

variable {test : Tree L B → Bool} {v : Visitor L B σ ε}

/-- The reply of a visitor that leaves the tree alone keeps the node and its siblings. -/
theorem noting_between (alone : v.LeavesAlone) (s : σ) (log : List (Call L B)) (t : Tree L B)
    (b : B) (before after : List (Tree L B)) :
    let spot := Spot.between b before after
    v.noting (s, log) t (some spot) =
      ⟨((v s t (some spot)).state, log ++ [⟨t, some spot⟩]), t, spot.keeping after,
        (v s t (some spot)).signal⟩ := by
  simp only [Visitor.noting, alone.node, alone.family, Spot.family_eq_keeping,
    Spot.after_between]

/-- Behind the last sibling the walk is ended, wherever an index has led it. -/
theorem walkFrom_beyond (fuel : Nat) (s : σ) (b : B) (kids : List (Tree L B)) (i : Nat)
    (beyond : kids.length ≤ i) : walkFrom v (fuel + 1) s b kids i = ⟨s, kids, .finished⟩ := by
  rw [walkFrom_succ, List.getElem?_eq_none beyond]

/-- After a reply that leads below the node, the walk makes the calls of the tour there.  Then
it is ended, or goes on behind the node at the index `next` that the signal stands for. -/
theorem walkFrom_tourBelow (fuel : Nat) {s s' : σ} {log log' : List (Call L B)} {b : B}
    {before after : List (Tree L B)} {t : Tree L B} {signal : Signal ε} {next : Nat}
    (reply : Visitor.only test v.noting (s, log) t (some (.between b before after)) =
      ⟨(s', log'), t, (Spot.between b before after).keeping after, signal⟩)
    (leads : signal = .proceed ∧ next = 0 ∨
      ∃ index, signal = .resumeAt index ∧ (before.length : Int) < index ∧ next = index.toNat)
    (below : walkBelow (Visitor.only test v.noting) fuel (s', log') t =
      ⟨((v.tourBelow test s' t).state, log' ++ (v.tourBelow test s' t).calls), t,
        (v.tourBelow test s' t).ending⟩) :
    walkFrom (Visitor.only test v.noting) (fuel + 1) (s, log) b (before ++ t :: after)
        before.length =
      let below := v.tourBelow test s' t
      if below.exited then ⟨(below.state, log' ++ below.calls), before ++ t :: after, .exited⟩
      else walkFrom (Visitor.only test v.noting) fuel (below.state, log' ++ below.calls) b
        ((before ++ [t]) ++ after) (max (before ++ [t]).length next) := by
  have behind : (before ++ [t]).length = before.length + 1 := by simp
  -- An exit below the node is an exit here, whatever the visitor said at the node.
  cases ended : (v.tourBelow test s' t).exited with
  | true =>
    have descends : signal.Descends := by
      rcases leads with ⟨rfl, -⟩ | ⟨index, rfl, -, -⟩ <;> trivial
    rw [Tour.ending, ended, if_pos rfl] at below
    have stops : (Ending.exited : Ending ε) ≠ .finished := nofun
    simp only [walkFrom_stop_of_descends fuel stops reply descends below, ended, if_true]
  | false =>
    rw [Tour.ending, ended, if_neg Bool.false_ne_true] at below
    rcases leads with ⟨rfl, rfl⟩ | ⟨index, rfl, onward, rfl⟩
    · simp only [walkFrom_proceed fuel reply below, ended, Bool.false_eq_true, if_false,
        Nat.max_eq_left (Nat.zero_le _)]
    · have later : (before ++ [t]).length ≤ index.toNat := by omega
      simp only [walkFrom_jump fuel (by omega) reply below, ended, Bool.false_eq_true, if_false,
        Nat.max_eq_right later, List.append_assoc, List.singleton_append]

/-- At a node that is not left out, the walk makes the calls of the tour there.  Then it is
ended, or goes on behind the node at the index that the tour has come to. -/
theorem walkFrom_tourAt (alone : v.LeavesAlone) (fuel : Nat) (s : σ) (log : List (Call L B))
    (b : B) (before after : List (Tree L B)) (t : Tree L B)
    (below : ∀ s log, walkBelow (Visitor.only test v.noting) fuel (s, log) t =
      ⟨((v.tourBelow test s t).state, log ++ (v.tourBelow test s t).calls), t,
        (v.tourBelow test s t).ending⟩) :
    walkFrom (Visitor.only test v.noting) (fuel + 1) (s, log) b (before ++ t :: after)
        before.length =
      let here := v.tourAt test s (some (.between b before after)) t (v.tourBelow test · t)
      if here.1.exited then
        ⟨(here.1.state, log ++ here.1.calls), before ++ t :: after, .exited⟩
      else
        walkFrom (Visitor.only test v.noting) fuel (here.1.state, log ++ here.1.calls) b
          ((before ++ [t]) ++ after) (max (before ++ [t]).length here.2) := by
  cases passes : test t with
  | false =>
    have reply : Visitor.only test v.noting (s, log) t (some (.between b before after)) =
        ⟨(s, log), t, (Spot.between b before after).keeping after, .proceed⟩ :=
      Visitor.only_of_false passes
    rw [walkFrom_tourBelow fuel reply (.inl ⟨rfl, rfl⟩) (below s log)]
    simp only [Visitor.tourAt, passes, Bool.false_eq_true, if_false]
  | true =>
    have reply := (Visitor.only_of_true passes).trans
      (noting_between alone s log t b before after)
    have onward := alone.onward s t (some (.between b before after))
    cases signal : (v s t (some (.between b before after))).signal with
    | fail e =>
      rw [signal] at onward
      exact onward.elim
    | exit =>
      rw [signal] at reply
      rw [walkFrom_exit fuel reply]
      simp only [Visitor.tourAt, passes, signal, if_true]
    | skip =>
      rw [signal] at reply
      rw [walkFrom_skip fuel reply]
      simp only [Visitor.tourAt, passes, signal, if_true, Bool.false_eq_true, if_false,
        Nat.max_eq_left (Nat.zero_le _)]
    | proceed =>
      rw [signal] at reply
      rw [walkFrom_tourBelow fuel reply (.inl ⟨rfl, rfl⟩) (below _ _)]
      simp only [Visitor.tourAt, passes, signal, if_true, Tour.andThen, Bool.false_eq_true,
        if_false, List.append_assoc]
    | resumeAt index =>
      rw [signal] at reply onward
      have later : (before.length : Int) < index := onward
      rw [walkFrom_tourBelow fuel reply (.inr ⟨index, rfl, later, rfl⟩) (below _ _)]
      simp only [Visitor.tourAt, passes, signal, if_true, Tour.andThen, Bool.false_eq_true,
        if_false, List.append_assoc]

end

mutual

/-- Below a node the walk makes the calls of the tour there and leaves the node as it is. -/
theorem walkBelow_noting (test : Tree L B → Bool) {v : Visitor L B σ ε} (alone : v.LeavesAlone) :
    (t : Tree L B) → (fuel : Nat) → (s : σ) → (log : List (Call L B)) → t.size ≤ fuel →
    walkBelow (Visitor.only test v.noting) fuel (s, log) t =
      ⟨((v.tourBelow test s t).state, log ++ (v.tourBelow test s t).calls), t,
        (v.tourBelow test s t).ending⟩
  | .leaf l, fuel, s, log, _ => by
    simp only [walkBelow, Visitor.tourBelow, Tour.ending, Bool.false_eq_true, if_false,
      List.append_nil]
  | .branch b kids, fuel, s, log, enough => by
    rw [Tree.size] at enough
    have walked := walkFrom_noting test alone kids [] 0 b fuel s log enough
    simp only [List.nil_append, List.length_nil, Nat.max_self] at walked
    rw [walkBelow, walked, Visitor.tourBelow]

/-- Through siblings the walk makes the calls of the tour, and leaves them as they are. -/
theorem walkFrom_noting (test : Tree L B → Bool) {v : Visitor L B σ ε} (alone : v.LeavesAlone) :
    (ns before : List (Tree L B)) → (start : Nat) → (b : B) → (fuel : Nat) → (s : σ) →
    (log : List (Call L B)) → sizeAll ns + 1 ≤ fuel →
    walkFrom (Visitor.only test v.noting) fuel (s, log) b (before ++ ns)
        (max before.length start) =
      ⟨((v.tourFrom test b s before start ns).state,
          log ++ (v.tourFrom test b s before start ns).calls),
        before ++ ns, (v.tourFrom test b s before start ns).ending⟩
  | [], before, start, b, fuel + 1, s, log, _ => by
    rw [List.append_nil, walkFrom_beyond _ _ _ _ _ (Nat.le_max_left _ _), Visitor.tourFrom,
      List.append_nil]
    rfl
  | t :: ts, before, start, b, fuel + 1, s, log, enough => by
    rw [sizeAll] at enough
    have positive := t.size_pos
    have rest (start : Nat) (s : σ) (log : List (Call L B)) :=
      walkFrom_noting test alone ts (before ++ [t]) start b fuel s log (by omega)
    have all : before ++ t :: ts = (before ++ [t]) ++ ts := by simp
    rw [Visitor.tourFrom]
    by_cases early : before.length < start
    · -- The node is left out: the walk stands behind it already.
      have same : max before.length start = max (before ++ [t]).length start := by
        simp only [List.length_append, List.length_singleton]
        omega
      have more := walkFrom_noting test alone ts (before ++ [t]) start b (fuel + 1) s log (by omega)
      rw [if_pos early, same, all, more]
    · rw [if_neg early, Nat.max_eq_left (Nat.le_of_not_lt early),
        walkFrom_tourAt alone fuel s log b before ts t
          (fun s log => walkBelow_noting test alone t fuel s log (by omega))]
      generalize v.tourAt test s (some (.between b before ts)) t (v.tourBelow test · t) = here
      cases ended : here.1.exited with
      | true => simp only [Tour.andThen, Tour.ending, ended, if_true]
      | false =>
        simp only [ended, Bool.false_eq_true, if_false, rest]
        simp only [Tour.andThen, Tour.ending, ended, Bool.false_eq_true, if_false, all,
          List.append_assoc]

end

/-! ## the places of a tree -/

mutual

/-- The places below a node in pre-order: each node with its index, its parent and its
siblings. -/
def placesBelow : Tree L B → List (Call L B)
  | .leaf _ => []
  | .branch b kids => placesFrom b [] kids

/-- The places of siblings that stand behind others, and those below them. -/
def placesFrom (b : B) : List (Tree L B) → List (Tree L B) → List (Call L B)
  | _, [] => []
  | before, t :: ts =>
    ⟨t, some (.between b before ts)⟩ :: placesBelow t ++ placesFrom b (before ++ [t]) ts

end

/-- The places of a tree in pre-order, the root first. -/
def places (t : Tree L B) : List (Call L B) := ⟨t, none⟩ :: placesBelow t

mutual

theorem node_placesBelow : (t : Tree L B) →
    (placesBelow t).map Call.node = subtreesAll t.children
  | .leaf l => rfl
  | .branch b kids => by rw [placesBelow, node_placesFrom b kids [], children_branch]

theorem node_placesFrom (b : B) : (ns before : List (Tree L B)) →
    (placesFrom b before ns).map Call.node = subtreesAll ns
  | [], _ => rfl
  | t :: ts, before => by
    rw [placesFrom, List.cons_append, List.map_cons, List.map_append, node_placesBelow t,
      node_placesFrom b ts, subtreesAll, subtrees_eq, List.cons_append]

end

/-- The places of a tree are those of its subtrees. -/
theorem node_places (t : Tree L B) : t.places.map Call.node = t.subtrees := by
  rw [places, List.map_cons, node_placesBelow, ← subtrees_eq]

/-- Does the node of a call stand in a tree where the call says? -/
def Stands (t : Tree L B) (call : Call L B) : Prop :=
  ∃ spot, call.spot = some spot ∧ spot.index = spot.before.length ∧
    .branch spot.parent (spot.before ++ call.node :: spot.after) ∈ t.subtrees

theorem Stands.mono {t u : Tree L B} {call : Call L B} (stands : Stands t call)
    (within : t.subtrees ⊆ u.subtrees) : Stands u call := by
  obtain ⟨spot, is, index, parent⟩ := stands
  exact ⟨spot, is, index, within parent⟩

mutual

theorem stands_of_mem_placesBelow : (t : Tree L B) → ∀ call ∈ placesBelow t, Stands t call
  | .leaf l => by simp [placesBelow]
  | .branch b kids => stands_of_mem_placesFrom b kids []

theorem stands_of_mem_placesFrom (b : B) : (ns before : List (Tree L B)) →
    ∀ call ∈ placesFrom b before ns, Stands (.branch b (before ++ ns)) call
  | [], _ => by simp [placesFrom]
  | t :: ts, before => by
    have here : Stands (.branch b (before ++ t :: ts)) ⟨t, some (.between b before ts)⟩ :=
      ⟨_, rfl, rfl, List.mem_cons_self⟩
    have inside : t.subtrees ⊆ (branch b (before ++ t :: ts)).subtrees := by
      intro u mem
      simp [subtrees, subtreesAll_append, subtreesAll, mem]
    have behind := stands_of_mem_placesFrom b ts (before ++ [t])
    rw [List.append_assoc, List.singleton_append] at behind
    rw [placesFrom, List.cons_append, List.forall_mem_cons, List.forall_mem_append]
    exact ⟨here, fun call mem => (stands_of_mem_placesBelow t call mem).mono inside, behind⟩

end

/-- Every place below the root is one where a node stands: the node is the child with that
index of a parent in the tree. -/
theorem stands_of_mem_places {t : Tree L B} {call : Call L B} (mem : call ∈ t.places) :
    call = ⟨t, none⟩ ∨ Stands t call := by
  rw [places, List.mem_cons] at mem
  exact mem.imp_right (stands_of_mem_placesBelow t call)

end Tree

/-! ## where a tour calls -/

namespace Tour

theorem calls_andThen_sublist {tour : Tour L B σ} {rest : σ → Tour L B σ}
    {calls calls' : List (Call L B)} (first : tour.calls.Sublist calls)
    (second : ∀ s, (rest s).calls.Sublist calls') :
    (tour.andThen rest).calls.Sublist (calls ++ calls') := by
  rw [andThen]
  split
  · exact first.trans (List.sublist_append_left calls calls')
  · exact first.append (second _)

end Tour

namespace Visitor

section

variable (test : Tree L B → Bool) (v : Visitor L B σ ε)

theorem calls_tourAt_sublist (s : σ) (spot : Option (Spot L B)) (t : Tree L B)
    {below : σ → Tour L B σ} {calls : List (Call L B)}
    (inside : ∀ s, (below s).calls.Sublist (calls.filter (test ·.node))) :
    (v.tourAt test s spot t below).1.calls.Sublist
      ((⟨t, spot⟩ :: calls).filter (test ·.node)) := by
  cases passes : test t with
  | false =>
    simp only [tourAt, passes, Bool.false_eq_true, if_false, List.filter_cons]
    exact inside s
  | true =>
    have called (exited : Bool) :
        (⟨(v s t spot).state, [⟨t, spot⟩], exited⟩ : Tour L B σ).calls.Sublist [⟨t, spot⟩] :=
      List.Sublist.refl _
    have alone : [⟨t, spot⟩].Sublist (⟨t, spot⟩ :: calls.filter (test ·.node)) :=
      (List.nil_sublist _).cons_cons _
    simp only [tourAt, passes, if_true, List.filter_cons]
    cases (v s t spot).signal with
    | skip | exit | fail _ => exact alone
    | proceed | resumeAt _ => exact Tour.calls_andThen_sublist (called false) inside

mutual

theorem calls_tourBelow_sublist : (t : Tree L B) → (s : σ) →
    (v.tourBelow test s t).calls.Sublist (t.placesBelow.filter (test ·.node))
  | .leaf l, s => by
    rw [tourBelow]
    exact List.nil_sublist _
  | .branch b kids, s => by
    rw [tourBelow, Tree.placesBelow]
    exact calls_tourFrom_sublist b kids s [] 0

theorem calls_tourFrom_sublist (b : B) : (ns : List (Tree L B)) → (s : σ) →
    (before : List (Tree L B)) → (start : Nat) →
    (v.tourFrom test b s before start ns).calls.Sublist
      ((Tree.placesFrom b before ns).filter (test ·.node))
  | [], s, before, start => by
    rw [tourFrom]
    exact List.nil_sublist _
  | t :: ts, s, before, start => by
    have here := calls_tourAt_sublist test v s (some (.between b before ts)) t
      (calls_tourBelow_sublist t)
    rw [tourFrom, Tree.placesFrom, List.filter_append]
    split
    · exact (calls_tourFrom_sublist b ts s (before ++ [t]) start).trans
        (List.sublist_append_right _ _)
    · exact Tour.calls_andThen_sublist here fun s =>
        calls_tourFrom_sublist b ts s (before ++ [t]) _

end

/-- A tour calls at matching places of the tree, each at most once and in pre-order. -/
theorem calls_tour_sublist (s : σ) (t : Tree L B) :
    (v.tour test s t).calls.Sublist (t.places.filter (test ·.node)) :=
  calls_tourAt_sublist test v s none t (calls_tourBelow_sublist test v t)

end

section

variable (test : Tree L B → Bool) {v : Visitor L B σ ε}

theorem tourAt_of_proceed (proceeds : ∀ s t spot, (v s t spot).signal = .proceed) (s : σ)
    (spot : Option (Spot L B)) (t : Tree L B) {below : σ → Tour L B σ} {calls : List (Call L B)}
    (inside : ∀ s, (below s).calls = calls.filter (test ·.node) ∧ (below s).exited = false) :
    ∃ s', v.tourAt test s spot t below =
      (⟨s', (⟨t, spot⟩ :: calls).filter (test ·.node), false⟩, 0) := by
  cases passes : test t with
  | false =>
    have same : below s = ⟨(below s).state, calls.filter (test ·.node), false⟩ := by
      rw [← (inside s).1, ← (inside s).2]
    refine ⟨(below s).state, ?_⟩
    simp only [tourAt, passes, Bool.false_eq_true, if_false, List.filter_cons]
    rw [← same]
  | true =>
    refine ⟨(below (v s t spot).state).state, ?_⟩
    simp only [tourAt, passes, proceeds, if_true, Tour.andThen, Bool.false_eq_true, if_false,
      List.filter_cons, inside, List.singleton_append]

mutual

theorem calls_tourBelow_of_proceed (proceeds : ∀ s t spot, (v s t spot).signal = .proceed) :
    (t : Tree L B) → (s : σ) →
    (v.tourBelow test s t).calls = t.placesBelow.filter (test ·.node) ∧
      (v.tourBelow test s t).exited = false
  | .leaf l, s => by
    rw [tourBelow]
    exact ⟨rfl, rfl⟩
  | .branch b kids, s => by
    rw [tourBelow, Tree.placesBelow]
    exact calls_tourFrom_of_proceed proceeds b kids s []

theorem calls_tourFrom_of_proceed (proceeds : ∀ s t spot, (v s t spot).signal = .proceed)
    (b : B) : (ns : List (Tree L B)) → (s : σ) → (before : List (Tree L B)) →
    (v.tourFrom test b s before 0 ns).calls =
        (Tree.placesFrom b before ns).filter (test ·.node) ∧
      (v.tourFrom test b s before 0 ns).exited = false
  | [], s, before => by
    rw [tourFrom]
    exact ⟨rfl, rfl⟩
  | t :: ts, s, before => by
    obtain ⟨s', here⟩ := tourAt_of_proceed test proceeds s (some (.between b before ts)) t
      (calls_tourBelow_of_proceed proceeds t)
    obtain ⟨calls, goesOn⟩ := calls_tourFrom_of_proceed proceeds b ts s' (before ++ [t])
    rw [tourFrom, if_neg (Nat.not_lt_zero _), here, Tree.placesFrom, List.filter_append]
    simp only [Tour.andThen, Bool.false_eq_true, if_false, calls, goesOn, and_self]

end

/-- A visitor that always proceeds is called at every matching place. -/
theorem calls_tour_of_proceed (proceeds : ∀ s t spot, (v s t spot).signal = .proceed) (s : σ)
    (t : Tree L B) : (v.tour test s t).calls = t.places.filter (test ·.node) := by
  obtain ⟨s', here⟩ := tourAt_of_proceed test proceeds s none t
    (calls_tourBelow_of_proceed test proceeds t)
  rw [tour, here, Tree.places]

end

end Visitor

/-! ## the whole walk -/

namespace Tree

section

variable (test : Tree L B → Bool) {v : Visitor L B σ ε}

/-- From the root the walk makes the calls of the tour and leaves the tree as it is. -/
theorem walk_noting (alone : v.LeavesAlone) (s : σ) (t : Tree L B) (fuel : Nat)
    (enough : t.size ≤ fuel) :
    walk (Visitor.only test v.noting) fuel (s, []) t =
      ⟨((v.tour test s t).state, (v.tour test s t).calls), t, (v.tour test s t).ending⟩ := by
  have below (s : σ) (log : List (Call L B)) := walkBelow_noting test alone t fuel s log enough
  cases passes : test t with
  | false =>
    have reply : Visitor.only test v.noting (s, []) t none = ⟨(s, []), t, [], .proceed⟩ := by
      simp [Visitor.only, passes]
    rw [walk_proceed fuel reply, below]
    simp only [Visitor.tour, Visitor.tourAt, passes, Bool.false_eq_true, if_false,
      List.nil_append]
  | true =>
    have reply : Visitor.only test v.noting (s, []) t none =
        ⟨((v s t none).state, [⟨t, none⟩]), t, (v s t none).family, (v s t none).signal⟩ := by
      simp only [Visitor.only, passes, if_true, Visitor.noting, alone.node, List.nil_append]
    have onward := alone.onward s t none
    cases signal : (v s t none).signal with
    | fail e =>
      rw [signal] at onward
      exact onward.elim
    | exit =>
      rw [signal] at reply
      rw [walk_exit fuel reply]
      simp only [Visitor.tour, Visitor.tourAt, passes, signal, if_true, Tour.ending]
    | skip =>
      rw [signal] at reply
      rw [walk_skip fuel reply]
      simp only [Visitor.tour, Visitor.tourAt, passes, signal, if_true, Tour.ending,
        Bool.false_eq_true, if_false]
    | proceed =>
      rw [signal] at reply
      rw [walk_proceed fuel reply, below]
      simp only [Visitor.tour, Visitor.tourAt, passes, signal, if_true, Tour.andThen, Tour.ending,
        Bool.false_eq_true, if_false]
    | resumeAt index =>
      rw [signal] at reply onward
      rw [walk_jump fuel onward reply, below]
      simp only [Visitor.tour, Visitor.tourAt, passes, signal, if_true, Tour.andThen, Tour.ending,
        Bool.false_eq_true, if_false]

/-- Writing down the calls changes nothing else. -/
theorem walk_eq_noting (v : Visitor L B σ ε) (s : σ) (t : Tree L B) (fuel : Nat) :
    walk (Visitor.only test v) fuel s t =
      (walk (Visitor.only test v.noting) fuel (s, []) t).mapState Prod.fst := by
  refine walk_mapState (f := Prod.fst) (fun s t spot => ?_) fuel (s, []) t
  cases passes : test t <;> simp only [Visitor.only, passes] <;> rfl

/-- **A walk makes just the calls of the tour** if its visitor leaves the tree alone: it ends
within as many nested steps as the tree has nodes, leaves the tree as it is, and ends early just
where the tour does.  The calls are made at matching places of the tree in pre-order, each at
most once, each with the index and the siblings that the node has in the tree; and they are made
at all of these places if the visitor always proceeds. -/
theorem walk_tour (alone : v.LeavesAlone) (s : σ) (t : Tree L B) (fuel : Nat)
    (enough : t.size ≤ fuel) :
    walk (Visitor.only test v.noting) fuel (s, []) t =
        ⟨((v.tour test s t).state, (v.tour test s t).calls), t, (v.tour test s t).ending⟩ ∧
      walk (Visitor.only test v) fuel s t =
        ⟨(v.tour test s t).state, t, (v.tour test s t).ending⟩ ∧
      (v.tour test s t).calls.Sublist (t.places.filter (test ·.node)) ∧
      (∀ call ∈ (v.tour test s t).calls, call = ⟨t, none⟩ ∨ Stands t call) ∧
      ((∀ s t spot, (v s t spot).signal = .proceed) →
        (v.tour test s t).calls = t.places.filter (test ·.node)) := by
  have noting := walk_noting test alone s t fuel enough
  have inOrder := v.calls_tour_sublist test s t
  refine ⟨noting, ?_, inOrder, fun call mem => ?_, fun proceeds => ?_⟩
  · rw [walk_eq_noting, noting]
    rfl
  · exact stands_of_mem_places (List.mem_filter.mp (inOrder.subset mem)).1
  · exact Visitor.calls_tour_of_proceed test proceeds s t

end

/-- A visitor that leaves out as many siblings behind a leaf as the leaf says, skips what is
below a one, and ends the walk at a zero. -/
def hopper : Visitor Nat Nat Nat Empty := fun count t spot =>
  ⟨count + 1, t, (spot.map Spot.family).getD [],
    match t with
    | .leaf 0 => .exit
    | .leaf n => .resumeAt ((spot.map fun s => (s.index : Int) + 1).getD 0 + n)
    | .branch 1 _ => .skip
    | .branch _ _ => .proceed⟩

theorem hopper_leavesAlone : hopper.LeavesAlone where
  node _ _ _ := rfl
  family _ _ _ := rfl
  onward _ t spot := by
    unfold hopper
    split
    · trivial
    · simp only [Signal.Onward]
      omega
    · trivial
    · trivial

theorem walk_tour_hopper :
    hopper.LeavesAlone ∧
      (.branch 2 [.leaf 1, .leaf 7, .branch 1 [.leaf 0], .branch 3 [.leaf 5, .leaf 0], .leaf 0,
        .leaf 4] : Tree Nat Nat).size ≤ 10 ∧
      ((walk (Visitor.only (fun _ => true) hopper.noting) 10 (0, [])
        (.branch 2 [.leaf 1, .leaf 7, .branch 1 [.leaf 0], .branch 3 [.leaf 5, .leaf 0], .leaf 0,
          .leaf 4])).state.2.drop 1).map Call.node =
        [.leaf 1, .branch 1 [.leaf 0], .branch 3 [.leaf 5, .leaf 0], .leaf 5, .leaf 0] := by
  refine ⟨hopper_leavesAlone, by decide, ?_⟩
  rw [(walk_tour (fun _ => true) hopper_leavesAlone 0 _ 10 (by decide)).1]
  rfl

end Tree

end Docsite
