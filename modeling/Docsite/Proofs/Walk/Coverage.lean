import Docsite.Proofs.Tree.Subtrees
import Docsite.Proofs.Walk.Editor

/-!
# Docsite.Proofs.Walk.Coverage

Which nodes a walk steps on while an editor changes the lists it goes through.

A walk knows its place in a list by an index only.  That the index never loses the node it
stands for is said here without indices: a `Course` goes through a list of nodes that are
still ahead, and an edit changes nothing but that list and what the walk leaves behind.  A
walk with an editor takes the steps of a course (`Editor.walkFrom_course`), and the steps of
a course are accounted for (`Course.covers`, `Course.balance`): every node that was there or
was put in behind an earlier one is stepped on once, in the order of the list, and no other.
-/

namespace Docsite

variable {L B σ : Type} {α β : Type}

/-! ## edits of what is ahead -/

theorem putIn_map (f : α → β) (xs : List α) (puts : List (Nat × α)) :
    (putIn xs puts).map f = putIn (xs.map f) (puts.map (Prod.map id f)) := by
  induction puts generalizing xs with
  | nil => rfl
  | cons put puts ih =>
    rw [putIn, ih]
    simp only [List.map_append, List.map_take, List.map_cons, List.map_drop, putIn, Prod.map, id]

theorem putIn_perm (xs : List α) (puts : List (Nat × α)) :
    (putIn xs puts).Perm (xs ++ puts.map Prod.snd) := by
  induction puts generalizing xs with
  | nil => simp [putIn]
  | cons put puts ih =>
    have moved : (xs.take put.1 ++ put.2 :: xs.drop put.1).Perm (put.2 :: xs) := by
      have front : (xs.take put.1 ++ put.2 :: xs.drop put.1).Perm
          (put.2 :: (xs.take put.1 ++ xs.drop put.1)) := List.perm_middle
      rwa [List.take_append_drop] at front
    rw [putIn, List.map_cons]
    refine (ih _).trans ((moved.append_right _).trans ?_)
    exact List.perm_middle.symm

/-- Elements that fail a test do not show in what passes it. -/
theorem filter_putIn {p : α → Bool} (xs : List α) {puts : List (Nat × α)}
    (fails : ∀ put ∈ puts, p put.2 = false) : (putIn xs puts).filter p = xs.filter p := by
  induction puts generalizing xs with
  | nil => rfl
  | cons put puts ih =>
    rw [putIn, ih _ (fun q mem => fails q (List.mem_cons_of_mem _ mem)), List.filter_append,
      List.filter_cons, fails put List.mem_cons_self, if_neg Bool.false_ne_true,
      ← List.filter_append, List.take_append_drop]

theorem sublist_putIn (xs : List α) (puts : List (Nat × α)) : xs.Sublist (putIn xs puts) := by
  induction puts generalizing xs with
  | nil => exact List.Sublist.refl xs
  | cons put puts ih =>
    have kept : xs.Sublist (xs.take put.1 ++ put.2 :: xs.drop put.1) := by
      have kept := (List.sublist_cons_self put.2 (xs.drop put.1)).append_left (xs.take put.1)
      rwa [List.take_append_drop] at kept
    exact kept.trans (ih _)

/-- Elements under a mark, without it. -/
theorem unmarked (mark : Bool) (xs : List α) : (xs.map (mark, ·)).map Prod.snd = xs := by
  simp [Function.comp_def]

/-- A test that sees only the mark lets all elements under it pass, or none. -/
theorem filter_marked {p : Bool × α → Bool} {mark passes : Bool} (sees : ∀ x, p (mark, x) = passes)
    (xs : List α) : ((xs.map (mark, ·)).filter p).map Prod.snd = if passes then xs else [] := by
  rw [List.filter_map, unmarked]
  cases passes <;> simp [Function.comp_def, sees]

namespace Edit

/-- What is ahead after an edit, each new node under a mark. -/
def ahead (mark : Tree L B → α) (after : List α) : Edit L B → List α
  | insert puts => putIn after (puts.map (Prod.map id mark))
  | replace _ => after

theorem ahead_map (f : α → β) (mark : Tree L B → α) (after : List α) (edit : Edit L B) :
    (edit.ahead mark after).map f = edit.ahead (f ∘ mark) (after.map f) := by
  cases edit with
  | insert puts => rw [ahead, putIn_map, List.map_map, Prod.map_comp_map]; rfl
  | replace new => rfl

theorem ahead_marked (pending : List (Bool × Tree L B)) (edit : Edit L B) :
    (edit.ahead (true, ·) pending).map Prod.snd = edit.ahead id (pending.map Prod.snd) :=
  ahead_map Prod.snd (true, ·) pending edit

theorem ahead_insert (after : List (Tree L B)) (puts : List (Nat × Tree L B)) :
    (insert puts).ahead id after = putIn after puts := by
  simp [ahead]

theorem ahead_perm (mark : Tree L B → α) (after : List α) (edit : Edit L B) :
    (edit.ahead mark after).Perm (after ++ edit.inserted.map mark) := by
  cases edit with
  | insert puts =>
    have perm := putIn_perm after (puts.map (Prod.map id mark))
    have same : (puts.map (Prod.map id mark)).map Prod.snd = (puts.map Prod.snd).map mark := by
      simp only [List.map_map]
      rfl
    rwa [same] at perm
  | replace new => simp [ahead, inserted]

theorem sublist_ahead (mark : Tree L B → α) (after : List α) (edit : Edit L B) :
    after.Sublist (edit.ahead mark after) := by
  cases edit with
  | insert puts => exact sublist_putIn _ _
  | replace new => exact List.Sublist.refl after

end Edit

/-! ## steps -/

/-- The children of a node with their parent, unless the way to them is shut. -/
def Tree.opens (shut : Bool) (t : Tree L B) : Option (B × List (Tree L B)) :=
  match shut, t with
  | true, _ => none
  | false, .leaf _ => none
  | false, .branch c kids => some (c, kids)

theorem Tree.opens_eq_some {t : Tree L B} {shut : Bool} {c : B} {kids : List (Tree L B)} :
    t.opens shut = some (c, kids) ↔ shut = false ∧ t = .branch c kids := by
  cases t <;> cases shut <;> simp [opens]

/-- Where the way is not shut, only a leaf opens no list. -/
theorem Tree.isLeaf_of_opens {t : Tree L B} (shut : t.opens false = none) : ∃ l, t = .leaf l := by
  cases t with
  | leaf l => exact ⟨l, rfl⟩
  | branch c kids => simp [opens] at shut

namespace Visit

/-- The siblings ahead of the node after the visit. -/
def ahead (v : Visit L B) : List (Tree L B) := v.edit.ahead id v.spot.after

/-- The list of siblings that the walk goes through below the node, with its parent. -/
def opens (v : Visit L B) : Option (B × List (Tree L B)) := v.node.opens v.stops

/-- The nodes below the visited one that the visit keeps the walk away from. -/
def unseen (v : Visit L B) : List (Tree L B) :=
  if v.stops then Tree.subtreesAll v.node.children else []

end Visit

/-- One step of a walk: a visit, whether the node had been put in behind an earlier one, and
the steps below the node. -/
inductive Step (L B : Type) where
  | mk (visit : Visit L B) (fresh : Bool) (inside : List (Step L B))

namespace Step

def visit : Step L B → Visit L B
  | mk v _ _ => v

def fresh : Step L B → Bool
  | mk _ fresh _ => fresh

/-- The steps below the node. -/
def inside : Step L B → List (Step L B)
  | mk _ _ inside => inside

/-- The node stepped on. -/
def node (s : Step L B) : Tree L B := s.visit.node

variable (v : Visit L B) (fresh : Bool) (inside : List (Step L B))

@[simp] theorem visit_mk : (mk v fresh inside).visit = v := rfl

@[simp] theorem fresh_mk : (mk v fresh inside).fresh = fresh := rfl

@[simp] theorem inside_mk : (mk v fresh inside).inside = inside := rfl

@[simp] theorem node_mk : (mk v fresh inside).node = v.node := rfl

mutual

/-- The visits of a step and of those below it, in their order. -/
def visits : Step L B → List (Visit L B)
  | mk v _ inside => v :: visitsAll inside

/-- The visits of several steps. -/
def visitsAll : List (Step L B) → List (Visit L B)
  | [] => []
  | s :: ss => visits s ++ visitsAll ss

end

mutual

/-- What stands in the list for the node after the step. -/
def remains : Step L B → List (Tree L B)
  | mk v _ inside =>
    match v.edit with
    | .insert _ => [if v.skips then v.node else v.node.withChildren (remainsAll inside)]
    | .replace new => new

/-- What stands in the list after several steps. -/
def remainsAll : List (Step L B) → List (Tree L B)
  | [] => []
  | s :: ss => remains s ++ remainsAll ss

end

end Step

/-! ## courses -/

/-- The steps of a walk through a list of which the walk has left `before` behind and has the
nodes `pending` ahead, those put in by the walk marked.  After a step the walk stands behind
what the step leaves, and what the edit left ahead is ahead. -/
inductive Course : B → List (Tree L B) → List (Bool × Tree L B) → List (Step L B) → Prop
  | done (b : B) (before : List (Tree L B)) : Course b before [] []
  | step {b : B} {before : List (Tree L B)} {pending : List (Bool × Tree L B)} {v : Visit L B}
      {fresh : Bool} {inside steps : List (Step L B)}
      (stands : v.spot = .between b before (pending.map Prod.snd))
      (closed : v.opens = none → inside = [])
      (opened : ∀ c kids, v.opens = some (c, kids) → Course c [] (kids.map (false, ·)) inside)
      (goes : Course b (before ++ (Step.mk v fresh inside).remains)
        (v.edit.ahead (true, ·) pending) steps) :
      Course b before ((fresh, v.node) :: pending) (.mk v fresh inside :: steps)

namespace Editor

/-- The visit holds an answer that the editor gave. -/
def Answers (e : Editor L B σ) (v : Visit L B) : Prop :=
  ∃ s, (e.atSpot s v.node v.spot).2 = (v.edit, v.skips)

/-- The walk comes to the end of its list, in the steps of a course.  Its log was `log` at the
place where the course begins. -/
def TakesCourse (e : Editor L B σ) (log : List (Visit L B)) (b : B) (before : List (Tree L B))
    (pending : List (Bool × Tree L B))
    (walked : Walked (σ × List (Visit L B)) (List (Tree L B)) Empty) : Prop :=
  ∃ s' steps,
    walked = ⟨(s', log ++ Step.visitsAll steps), before ++ Step.remainsAll steps, .finished⟩ ∧
    Course b before pending steps ∧ ∀ v ∈ Step.visitsAll steps, e.Answers v

variable {e : Editor L B σ} {log : List (Visit L B)} {b : B} {before : List (Tree L B)}
  {pending : List (Bool × Tree L B)}
  {walked : Walked (σ × List (Visit L B)) (List (Tree L B)) Empty}

/-- A course begins with any step that leads to a place where a course begins. -/
theorem TakesCourse.step {v : Visit L B} {fresh : Bool} (inside : List (Step L B))
    (stands : v.spot = .between b before (pending.map Prod.snd))
    (closed : v.opens = none → inside = [])
    (opened : ∀ c kids, v.opens = some (c, kids) → Course c [] (kids.map (false, ·)) inside)
    (answers : ∀ u ∈ v :: Step.visitsAll inside, e.Answers u)
    (rest : e.TakesCourse (log ++ v :: Step.visitsAll inside) b
      (before ++ (Step.mk v fresh inside).remains) (v.edit.ahead (true, ·) pending) walked) :
    e.TakesCourse log b before ((fresh, v.node) :: pending) walked := by
  obtain ⟨s', steps, rfl, course, rest⟩ := rest
  refine ⟨s', .mk v fresh inside :: steps, ?_, .step stands closed opened course, ?_⟩
  · simp only [Step.visitsAll, Step.visits, Step.remainsAll, List.append_assoc]
  · intro u mem
    rw [Step.visitsAll, Step.visits, List.mem_append] at mem
    exact mem.elim (answers u) (rest u)

/-- A course may begin with a step that leads to none below the node. -/
theorem TakesCourse.shut {v : Visit L B} {fresh : Bool}
    (stands : v.spot = .between b before (pending.map Prod.snd)) (opens : v.opens = none)
    (answers : e.Answers v)
    (rest : e.TakesCourse (log ++ [v]) b (before ++ (Step.mk v fresh []).remains)
      (v.edit.ahead (true, ·) pending) walked) :
    e.TakesCourse log b before ((fresh, v.node) :: pending) walked := by
  refine TakesCourse.step [] stands (fun _ => rfl) ?_ ?_ rest
  · intro c kids open'
    rw [opens] at open'
    contradiction
  · simpa [Step.visitsAll] using answers

/-- The walk below a node takes the steps of a course through its children, if walks through
lists of siblings do. -/
theorem walkBelow_course {fuel : Nat}
    (lists : ∀ (s : σ × List (Visit L B)) c kids,
      (Tree.walkFrom e.recording.visitor fuel s c kids 0).ending ≠ .unfinished →
      e.TakesCourse s.2 c [] (kids.map (false, ·))
        (Tree.walkFrom e.recording.visitor fuel s c kids 0))
    (s : σ × List (Visit L B)) (t : Tree L B)
    (ends : (Tree.walkBelow e.recording.visitor fuel s t).ending ≠ .unfinished) :
    ∃ s' inside, Tree.walkBelow e.recording.visitor fuel s t =
        ⟨(s', s.2 ++ Step.visitsAll inside), t.withChildren (Step.remainsAll inside), .finished⟩ ∧
      (∀ l, t = .leaf l → inside = []) ∧
      (∀ c kids, t = .branch c kids → Course c [] (kids.map (false, ·)) inside) ∧
      ∀ v ∈ Step.visitsAll inside, e.Answers v := by
  cases t with
  | leaf l =>
    have nothing : Step.visitsAll ([] : List (Step L B)) = [] := rfl
    refine ⟨s.1, [], ?_, fun _ _ => rfl, nofun, by simp [nothing]⟩
    rw [nothing, List.append_nil, Tree.withChildren_leaf]
    rfl
  | branch c kids =>
    obtain ⟨s', inside, walked, course, given⟩ := lists s c kids ends
    refine ⟨s', inside, ?_, nofun, ?_, given⟩
    · rw [Tree.walkBelow, walked, List.nil_append, Tree.withChildren_branch]
    · rintro _ _ ⟨⟩
      exact course

/-- A walk with an editor takes the steps of a course, unless it runs out of fuel. -/
theorem walkFrom_course (e : Editor L B σ) (fuel : Nat) (s : σ × List (Visit L B)) (b : B)
    (before : List (Tree L B)) (pending : List (Bool × Tree L B))
    (ends : (Tree.walkFrom e.recording.visitor fuel s b (before ++ pending.map Prod.snd)
      before.length).ending ≠ .unfinished) :
    e.TakesCourse s.2 b before pending (Tree.walkFrom e.recording.visitor fuel s b
      (before ++ pending.map Prod.snd) before.length) := by
  induction fuel generalizing s b before pending with
  | zero => exact absurd rfl ends
  | succ fuel ih =>
    cases pending with
    | nil =>
      refine ⟨s.1, [], ?_, .done b before, by simp [Step.visitsAll]⟩
      simpa [Step.visitsAll, Step.remainsAll] using
        Tree.walkFrom_end e.recording.visitor fuel s b before
    | cons entry rest =>
      obtain ⟨fresh, t⟩ := entry
      let spot : Spot L B := .between b before (rest.map Prod.snd)
      rcases answer : e.atSpot s.1 t spot with ⟨s', edit, skips⟩
      let v : Visit L B := ⟨t, spot, edit, skips⟩
      have answers : e.Answers v := ⟨s.1, by rw [answer]⟩
      have reply : e.recording.visitor s t (some spot) =
          ⟨(s', s.2 ++ [v]), t, edit.family spot, signal skips⟩ := by
        simp only [visitor, recording, answer]
        rfl
      cases edit with
      | replace new =>
        have goes : signal skips = .proceed ∨ signal skips = .skip := by
          cases skips
          · exact .inl rfl
          · exact .inr rfl
        have step := Tree.walkFrom_replace fuel goes reply
        rw [List.map_cons, step] at ends ⊢
        exact TakesCourse.shut (v := v) rfl rfl answers (ih _ _ _ rest ends)
      | insert puts =>
        have ahead : putIn spot.after puts =
            ((Edit.insert puts).ahead (true, ·) rest).map Prod.snd := by
          rw [Edit.ahead_marked, Edit.ahead_insert]
          rfl
        cases skips with
        | true =>
          have step := Tree.walkFrom_skip fuel reply
          rw [ahead] at step
          rw [List.map_cons, step] at ends ⊢
          exact TakesCourse.shut (v := v) rfl rfl answers (ih _ _ _ _ ends)
        | false =>
          have lists (s : σ × List (Visit L B)) (c : B) (kids : List (Tree L B)) :=
            ih s c [] (kids.map (false, ·))
          simp only [unmarked, List.length_nil, List.nil_append] at lists
          by_cases stuck :
              (Tree.walkBelow e.recording.visitor fuel (s', s.2 ++ [v]) t).ending = .unfinished
          · have stops : (Tree.walkBelow e.recording.visitor fuel (s', s.2 ++ [v]) t).ending ≠
                .finished := by
              rw [stuck]
              exact fun is => by cases is
            rw [List.map_cons, Tree.walkFrom_stop fuel stops reply rfl] at ends
            exact absurd stuck ends
          · obtain ⟨s'', inside, walked, leaf, branch, given⟩ := walkBelow_course lists _ _ stuck
            have step := Tree.walkFrom_proceed fuel reply walked
            have written : s.2 ++ [v] ++ Step.visitsAll inside =
                s.2 ++ v :: Step.visitsAll inside := by simp
            rw [ahead, written] at step
            rw [List.map_cons, step] at ends ⊢
            refine TakesCourse.step inside (v := v) rfl ?_ ?_
              (List.forall_mem_cons.mpr ⟨answers, given⟩) (ih _ _ _ _ ends)
            · intro shut
              obtain ⟨l, is⟩ := Tree.isLeaf_of_opens shut
              exact leaf l is
            · intro c kids opened
              exact branch c kids (Tree.opens_eq_some.mp opened).2

end Editor

/-! ## accounts -/

/-- The steps account for a list of siblings: the nodes stepped on are those of the list, in
their order, and those that a step put in, and no others.  A step stands behind what the
earlier ones leave, and what it has ahead of it is stepped on later in the same order.  Below
a node the steps account for its children or, where the walk is kept away, are none. -/
inductive Covers : B → List (Tree L B) → List (Step L B) → Prop
  | mk {b : B} {kids : List (Tree L B)} {steps : List (Step L B)}
      (kept : (steps.filter (!·.fresh)).map Step.node = kids)
      (fresh : ((steps.filter Step.fresh).map Step.node).Perm
        (steps.flatMap (·.visit.edit.inserted)))
      (place : ∀ earlier step later, steps = earlier ++ step :: later →
        step.visit.spot = .between b (Step.remainsAll earlier) step.visit.spot.after ∧
          step.visit.ahead.Sublist (later.map Step.node))
      (closed : ∀ step ∈ steps, step.visit.opens = none → step.inside = [])
      (opened : ∀ step ∈ steps, ∀ c kids, step.visit.opens = some (c, kids) →
        Covers c kids step.inside) :
      Covers b kids steps

namespace Course

variable {b : B} {before : List (Tree L B)} {pending : List (Bool × Tree L B)}
  {steps : List (Step L B)}

/-- The nodes that were there are stepped on in their order. -/
theorem kept (course : Course b before pending steps) :
    (steps.filter (!·.fresh)).map Step.node = (pending.filter (!·.1)).map Prod.snd := by
  induction course with
  | done b before => rfl
  | @step b before pending v fresh inside steps stands closed opened goes _ ih =>
    have same : (v.edit.ahead (true, ·) pending).filter (!·.1) = pending.filter (!·.1) := by
      cases v.edit with
      | insert puts => exact filter_putIn _ (by simp)
      | replace new => rfl
    rw [same] at ih
    cases fresh <;> simp [ih]

/-- The nodes that were put in are stepped on. -/
theorem fresh (course : Course b before pending steps) :
    ((steps.filter Step.fresh).map Step.node).Perm
      ((pending.filter Prod.fst).map Prod.snd ++ steps.flatMap (·.visit.edit.inserted)) := by
  induction course with
  | done b before => exact List.Perm.refl _
  | @step b before pending v fresh inside steps stands closed opened goes _ ih =>
    have both := ((v.edit.ahead_perm ((true, ·) : Tree L B → Bool × Tree L B) pending).filter
      Prod.fst).map Prod.snd
    rw [List.filter_append, List.map_append, filter_marked (fun _ => rfl), if_pos rfl] at both
    have rest := ih.trans (both.append_right _)
    rw [List.append_assoc] at rest
    cases fresh with
    | false => simpa using rest
    | true => simpa [List.filter_cons] using rest

/-- What is ahead is stepped on in its order. -/
theorem ahead (course : Course b before pending steps) :
    (pending.map Prod.snd).Sublist (steps.map Step.node) := by
  induction course with
  | done b before => exact List.Sublist.refl _
  | @step b before pending v fresh inside steps stands closed opened goes _ ih =>
    have rest := (v.edit.sublist_ahead (true, ·) pending).map Prod.snd
    exact (rest.trans ih).cons_cons v.node

theorem place (course : Course b before pending steps) (earlier : List (Step L B)) (s : Step L B)
    (later : List (Step L B)) (split : steps = earlier ++ s :: later) :
    s.visit.spot = .between b (before ++ Step.remainsAll earlier) s.visit.spot.after ∧
      s.visit.ahead.Sublist (later.map Step.node) := by
  induction course generalizing earlier with
  | done b before => simp at split
  | @step b before pending v fresh inside steps stands closed opened goes _ ih =>
    cases earlier with
    | nil =>
      obtain ⟨rfl, rfl⟩ := List.cons.inj split
      refine ⟨?_, ?_⟩
      · simp [Step.visit, stands, Step.remainsAll]
      · have rest := goes.ahead
        rw [Edit.ahead_marked] at rest
        rwa [Visit.ahead, Step.visit, stands]
    | cons first earlier =>
      obtain ⟨rfl, tail⟩ := List.cons.inj split
      have rest := ih earlier tail
      rwa [List.append_assoc, ← Step.remainsAll] at rest

theorem closed (course : Course b before pending steps) (s : Step L B) (mem : s ∈ steps)
    (shut : s.visit.opens = none) : s.inside = [] := by
  induction course with
  | done b before => simp at mem
  | step stands closed opened goes _ ih =>
    cases mem with
    | head => exact closed shut
    | tail _ mem => exact ih mem

/-- The steps of a course account for the list that is ahead, if the steps below each of its
nodes do so for the children. -/
theorem covers_of_inside {b : B} {kids : List (Tree L B)} {steps : List (Step L B)}
    (course : Course b [] (kids.map (false, ·)) steps)
    (inside : ∀ s ∈ steps, ∀ c kids, s.visit.opens = some (c, kids) → Covers c kids s.inside) :
    Covers b kids steps := by
  refine .mk ?_ ?_ course.place course.closed inside
  · rw [course.kept, filter_marked (fun _ => rfl)]
    rfl
  · have perm := course.fresh
    rwa [filter_marked (fun _ => rfl)] at perm

theorem covers_inside (course : Course b before pending steps) (s : Step L B) (mem : s ∈ steps)
    (c : B) (kids : List (Tree L B)) (opens : s.visit.opens = some (c, kids)) :
    Covers c kids s.inside := by
  induction course generalizing s c kids with
  | done b before => simp at mem
  | step stands closed opened goes within ih =>
    cases mem with
    | head => exact (opened c kids opens).covers_of_inside (within c kids opens)
    | tail _ mem => exact ih s mem c kids opens

/-- The steps of a course account for the list that is ahead. -/
theorem covers {b : B} {kids : List (Tree L B)} {steps : List (Step L B)}
    (course : Course b [] (kids.map (false, ·)) steps) : Covers b kids steps :=
  course.covers_of_inside course.covers_inside

/-- The balance of one step, if the steps below its node balance the children. -/
theorem within_balance {v : Visit L B} {inside : List (Step L B)}
    (closed : v.opens = none → inside = [])
    (within : ∀ c kids, v.opens = some (c, kids) →
      (Tree.subtreesAll ((kids.map ((false, ·) : Tree L B → Bool × Tree L B)).map Prod.snd) ++
          (Step.visitsAll inside).flatMap fun v => Tree.subtreesAll v.edit.inserted).Perm
        ((Step.visitsAll inside).map Visit.node ++
          (Step.visitsAll inside).flatMap Visit.unseen)) :
    (Tree.subtreesAll v.node.children ++
        (Step.visitsAll inside).flatMap fun v => Tree.subtreesAll v.edit.inserted).Perm
      ((Step.visitsAll inside).map Visit.node ++ (Step.visitsAll inside).flatMap Visit.unseen ++
        v.unseen) := by
  cases opens : v.opens with
  | none =>
    rw [closed opens]
    have unseen : v.unseen = Tree.subtreesAll v.node.children := by
      cases stops : v.stops with
      | true => simp [Visit.unseen, stops]
      | false =>
        rw [Visit.opens, stops] at opens
        obtain ⟨l, is⟩ := Tree.isLeaf_of_opens opens
        simp [Visit.unseen, stops, is, Tree.subtreesAll]
    simp [Step.visitsAll, unseen]
  | some opened =>
    obtain ⟨c, kids⟩ := opened
    obtain ⟨goes, is⟩ := Tree.opens_eq_some.mp opens
    have unseen : v.unseen = [] := by simp [Visit.unseen, goes]
    have perm := within c kids opens
    rw [unmarked] at perm
    rwa [unseen, List.append_nil, is]

/-- The nodes that are there or are put in are the nodes stepped on and those that the walk
was kept away from. -/
theorem balance (course : Course b before pending steps) :
    (Tree.subtreesAll (pending.map Prod.snd) ++
        (Step.visitsAll steps).flatMap fun v => Tree.subtreesAll v.edit.inserted).Perm
      ((Step.visitsAll steps).map Visit.node ++ (Step.visitsAll steps).flatMap Visit.unseen) := by
  induction course with
  | done b before => exact List.Perm.refl _
  | @step b before pending v fresh inside steps stands closed opened goes within ih =>
    classical
    have ahead := Tree.subtreesAll_perm (v.edit.ahead_perm id (pending.map Prod.snd))
    rw [List.map_id, Tree.subtreesAll_append] at ahead
    rw [Edit.ahead_marked] at ih
    have below := within_balance closed within
    rw [List.perm_iff_count] at *
    intro t
    have ahead := ahead t
    have below := below t
    have ih := ih t
    simp only [List.map_cons, Tree.subtreesAll, Tree.subtrees_eq v.node, Step.visitsAll,
      Step.visits, List.cons_append, List.count_cons, List.count_append, List.flatMap_cons,
      List.map_append, List.flatMap_append] at *
    omega

end Course

/-- The steps give a full account of a walk with an editor that sees the nodes that pass a test
and that left `root` at the root.  They are the answers of the editor, make up a course below
the root and cover the lists there; and all the nodes below the root, with those put in behind
others, are the nodes stepped on and those below a node that was replaced or skipped. -/
structure Accounts (e : Editor L B σ) (test : Tree L B → Bool) (root : Tree L B) (skips : Bool)
    (walked : Walked (σ × List (Visit L B)) (Tree L B) Empty) (steps : List (Step L B)) : Prop where
  ending : walked.ending = .finished
  left : walked.left = if skips then root else root.withChildren (Step.remainsAll steps)
  /-- Of the nodes stepped on, the editor is asked about those that pass the test. -/
  asked : walked.state.2 = (Step.visitsAll steps).filter (test ·.node)
  answers : ∀ v ∈ Step.visitsAll steps, (e.only test).Answers v
  closed : root.opens skips = none → steps = []
  course : ∀ b kids, root.opens skips = some (b, kids) → Course b [] (kids.map (false, ·)) steps
  covers : ∀ b kids, root.opens skips = some (b, kids) → Covers b kids steps
  balance : ∀ b kids, root.opens skips = some (b, kids) →
    (Tree.subtreesAll kids ++
        (Step.visitsAll steps).flatMap fun v => Tree.subtreesAll v.edit.inserted).Perm
      ((Step.visitsAll steps).map Visit.node ++ (Step.visitsAll steps).flatMap Visit.unseen)

namespace Editor

/-- What a walk with an editor does below the root is a course. -/
theorem walk_course (e : Editor L B σ) (fuel : Nat) (s : σ) (t : Tree L B)
    (ends : (Tree.walk e.recording.visitor fuel (s, []) t).ending ≠ .unfinished) :
    ∃ s' steps, Tree.walk e.recording.visitor fuel (s, []) t =
        ⟨(s', Step.visitsAll steps), if (e.atRoot s t).2.2 then (e.atRoot s t).2.1
          else (e.atRoot s t).2.1.withChildren (Step.remainsAll steps), .finished⟩ ∧
      ((e.atRoot s t).2.1.opens (e.atRoot s t).2.2 = none → steps = []) ∧
      (∀ b kids, (e.atRoot s t).2.1.opens (e.atRoot s t).2.2 = some (b, kids) →
        Course b [] (kids.map (false, ·)) steps) ∧
      ∀ v ∈ Step.visitsAll steps, e.Answers v := by
  rcases answer : e.atRoot s t with ⟨s', root, skips⟩
  have reply : e.recording.visitor (s, []) t none = ⟨(s', []), root, [], signal skips⟩ := by
    simp only [visitor, recording, answer]
  cases skips with
  | true =>
    refine ⟨s', [], Tree.walk_skip fuel reply, fun _ => rfl, ?_, by simp [Step.visitsAll]⟩
    intro b kids opens
    exact absurd (Tree.opens_eq_some.mp opens).1 Bool.noConfusion
  | false =>
    rw [Tree.walk_proceed fuel reply] at ends ⊢
    have lists (s : σ × List (Visit L B)) (c : B) (kids : List (Tree L B)) :=
      e.walkFrom_course fuel s c [] (kids.map (false, ·))
    simp only [unmarked, List.length_nil, List.nil_append] at lists
    obtain ⟨s'', steps, walked, leaf, branch, given⟩ := walkBelow_course lists _ _ ends
    refine ⟨s'', steps, walked, ?_, ?_, given⟩
    · intro shut
      obtain ⟨l, is⟩ := Tree.isLeaf_of_opens shut
      exact leaf l is
    · intro b kids opens
      exact branch b kids (Tree.opens_eq_some.mp opens).2

/-- **A walk with an editor steps on every node once, in the order of its list**: if the walk
ends at all, it comes to the end of every list that it enters, and its steps account for it. -/
theorem walk_accounts (e : Editor L B σ) (test : Tree L B → Bool) (fuel : Nat) (s : σ)
    (t : Tree L B) (ends : (Tree.walk (Visitor.only test e.visitor) fuel s t).ending ≠ .unfinished) :
    Tree.walk (Visitor.only test e.visitor) fuel s t =
        (Tree.walk (Visitor.only test e.recording.visitor) fuel (s, []) t).mapState Prod.fst ∧
      ∃ steps, Accounts e test ((e.only test).atRoot s t).2.1 ((e.only test).atRoot s t).2.2
        (Tree.walk (Visitor.only test e.recording.visitor) fuel (s, []) t) steps := by
  have plain : Tree.walk (Visitor.only test e.visitor) fuel s t =
      (Tree.walk (Visitor.only test e.recording.visitor) fuel (s, []) t).mapState Prod.fst :=
    Tree.walk_mapState (e.visitor_recording test) fuel (s, []) t
  -- Asking only about some nodes and writing that down is writing down all visits and looking
  -- at those of these nodes.
  have full : Tree.walk (Visitor.only test e.recording.visitor) fuel (s, []) t =
      (Tree.walk (e.only test).recording.visitor fuel (s, []) t).mapState
        (Prod.map id (·.filter (test ·.node))) :=
    Tree.walk_mapState (e.visitor_only_recording test) fuel (s, []) t
  rw [plain, full] at ends
  obtain ⟨s', steps, walked, closed, course, answers⟩ := (e.only test).walk_course fuel s t ends
  refine ⟨plain, steps, ?_⟩
  rw [full, walked]
  exact {
    ending := rfl
    left := rfl
    asked := rfl
    answers := answers
    closed := closed
    course := course
    covers := fun b kids opens => (course b kids opens).covers
    balance := fun b kids opens => by
      have balance := (course b kids opens).balance
      rwa [unmarked] at balance }

/-- An editor that puts a zero in behind every other number and two numbers in place of a zero. -/
def zeros : Editor Nat Nat Nat where
  atRoot s t := (s, t, false)
  atSpot s t _ :=
    match t with
    | .leaf 0 => (s + 1, .replace [.leaf 5, .leaf s], false)
    | .leaf _ => (s, .insert [(0, .leaf 0)], false)
    | .branch b _ => (s, .insert [], b == 1)

theorem walk_accounts_zeros :
    (Tree.walk (Visitor.only (fun _ => true) zeros.visitor) 9 0
        (.branch 0 [.leaf 2, .branch 1 [.leaf 3], .branch 2 [.leaf 0]])).ending ≠ .unfinished ∧
      ∃ steps, Accounts zeros (fun _ => true)
        (.branch 0 [.leaf 2, .branch 1 [.leaf 3], .branch 2 [.leaf 0]]) false
        (Tree.walk (Visitor.only (fun _ => true) zeros.recording.visitor) 9 (0, [])
          (.branch 0 [.leaf 2, .branch 1 [.leaf 3], .branch 2 [.leaf 0]])) steps :=
  ⟨by decide, (walk_accounts zeros (fun _ => true) 9 0 _ (by decide)).2⟩

example : (Tree.walk (Visitor.only (fun _ => true) zeros.visitor) 9 0
    (.branch 0 [.leaf 2, .branch 1 [.leaf 3], .branch 2 [.leaf 0]])).left =
      .branch 0 [.leaf 2, .leaf 5, .leaf 0, .branch 1 [.leaf 3], .branch 2 [.leaf 5, .leaf 1]] :=
  rfl

end Editor

end Docsite
