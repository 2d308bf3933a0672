import Docsite.Tree.Walk

/-!
# Docsite.Proofs.Walk.Step

What one step of a walk does.

A walk stands at a node `t` with the nodes `before` behind it and the nodes `after` ahead,
so its list of siblings is `before ++ t :: after` and its index is `before.length`.  A visitor
that answers without an index of its own can leave the node in place, with other nodes ahead
of it, or put other nodes in its place.  Each answer has one equation here, which says where
the walk stands next; after that nobody has to open `walkFrom` or compute with indices again.
-/

namespace Docsite

variable {L B σ ε : Type}

namespace Spot

/-- The spot of a node between the siblings before it and those after it. -/
def between (parent : B) (before after : List (Tree L B)) : Spot L B :=
  ⟨before.length, parent, before, after⟩

@[simp] theorem before_between (b : B) (before after : List (Tree L B)) :
    (between b before after).before = before := rfl

@[simp] theorem after_between (b : B) (before after : List (Tree L B)) :
    (between b before after).after = after := rfl

/-- The list of siblings with the visited node in place and other nodes after it. -/
def keeping (s : Spot L B) (after : List (Tree L B)) : List (Slot L B) :=
  s.before.map .sibling ++ .here :: after.map .sibling

/-- The list of siblings with other nodes in place of the visited one. -/
def replacing (s : Spot L B) (new : List (Tree L B)) : List (Slot L B) :=
  (s.before ++ new ++ s.after).map .sibling

theorem family_eq_keeping (s : Spot L B) : s.family = s.keeping s.after := rfl

end Spot

namespace Visitor

theorem only_of_true {test : Tree L B → Bool} {v : Visitor L B σ ε} {s : σ} {t : Tree L B}
    {spot : Option (Spot L B)} (h : test t = true) : Visitor.only test v s t spot = v s t spot := by
  simp [Visitor.only, h]

theorem only_of_false {test : Tree L B → Bool} {v : Visitor L B σ ε} {s : σ} {t : Tree L B}
    {spot : Spot L B} (h : test t = false) :
    Visitor.only test v s t (some spot) = ⟨s, t, spot.keeping spot.after, .proceed⟩ := by
  simp [Visitor.only, h, Spot.family_eq_keeping]

end Visitor

/-- Does the walk go through what is below a node after the signal? -/
def Signal.Descends : Signal ε → Prop
  | .proceed | .resumeAt _ => True
  | .skip | .exit | .fail _ => False

namespace Tree

/-- The walk through what is below a node. -/
def walkBelow (v : Visitor L B σ ε) (fuel : Nat) (s : σ) : Tree L B → Walked σ (Tree L B) ε
  | .leaf l => ⟨s, .leaf l, .finished⟩
  | .branch b kids =>
    let w := walkFrom v fuel s b kids 0
    ⟨w.state, .branch b w.left, w.ending⟩

/-- How a walk goes on after a reply at index `i` of `n` siblings. -/
def walkOn (v : Visitor L B σ ε) (fuel : Nat) (b : B) (i n : Nat) (r : Reply L B σ ε) :
    Walked σ (List (Tree L B)) ε :=
  let now (node : Tree L B) := r.family.map (Slot.fill node)
  let attached := r.family[i]?.any Slot.isHere
  let next := nextIndex attached i n r.family.length
  match r.signal with
  | .exit => ⟨r.state, now r.node, .exited⟩
  | .fail e => ⟨r.state, now r.node, .failed e⟩
  | .skip => walkFrom v fuel r.state b (now r.node) next
  | signal =>
    let below : Walked σ (Tree L B) ε :=
      if attached then walkBelow v fuel r.state r.node else ⟨r.state, r.node, .finished⟩
    match below.ending, signal with
    | .finished, .resumeAt index =>
      if index < 0 then ⟨below.state, now below.left, .negative index⟩
      else walkFrom v fuel below.state b (now below.left) index.toNat
    | .finished, _ => walkFrom v fuel below.state b (now below.left) next
    | ending, _ => ⟨below.state, now below.left, ending⟩

/-! ## lists of siblings around a node -/

theorem fill_sibling (t : Tree L B) (ts : List (Tree L B)) :
    (ts.map Slot.sibling).map (Slot.fill t) = ts := by
  rw [List.map_map]
  exact List.map_id' ts

theorem fill_keeping (s : Spot L B) (t : Tree L B) (after : List (Tree L B)) :
    (s.keeping after).map (Slot.fill t) = s.before ++ t :: after := by
  simp only [Spot.keeping, List.map_append, List.map_cons, fill_sibling, Slot.fill]

theorem fill_replacing (s : Spot L B) (t : Tree L B) (new : List (Tree L B)) :
    (s.replacing new).map (Slot.fill t) = s.before ++ new ++ s.after := by
  simp only [Spot.replacing, fill_sibling]

/-- A node that is kept is found where it was. -/
theorem attached_keeping (b : B) (before after new : List (Tree L B)) :
    (((Spot.between b before after).keeping new)[before.length]?).any Slot.isHere = true := by
  simp [Spot.keeping, Spot.between, Slot.isHere]

/-- A node that is replaced is not found again. -/
theorem attached_replacing (b : B) (before after new : List (Tree L B)) :
    (((Spot.between b before after).replacing new)[before.length]?).any Slot.isHere = false := by
  simp only [Spot.replacing, List.getElem?_map]
  cases (Spot.between b before after).before ++ new ++ (Spot.between b before after).after with
  | nil => rfl
  | cons t ts => cases (t :: ts)[before.length]? <;> rfl

/-- Behind new nodes the walk stands after the last of them, however many they are. -/
theorem nextIndex_replacing (b : B) (before after new : List (Tree L B)) (t : Tree L B) :
    nextIndex false before.length (before ++ t :: after).length
      ((Spot.between b before after).replacing new).length = (before ++ new).length := by
  simp only [nextIndex, Spot.replacing, Spot.between, List.length_map, List.length_append,
    List.length_cons, Bool.false_eq_true, if_false]
  omega

/-! ## steps -/

/-- At the end of the list the walk is over. -/
theorem walkFrom_end (v : Visitor L B σ ε) (fuel : Nat) (s : σ) (b : B)
    (kids : List (Tree L B)) :
    walkFrom v (fuel + 1) s b kids kids.length = ⟨s, kids, .finished⟩ := by
  simp [walkFrom]

/-- Before the end the walk asks the visitor and goes on from its reply. -/
theorem walkFrom_succ (v : Visitor L B σ ε) (fuel : Nat) (s : σ) (b : B)
    (kids : List (Tree L B)) (i : Nat) :
    walkFrom v (fuel + 1) s b kids i =
      match kids[i]? with
      | none => ⟨s, kids, .finished⟩
      | some t => walkOn v fuel b i kids.length
          (v s t (some ⟨i, b, kids.take i, kids.drop (i + 1)⟩)) := by
  rw [walkFrom]
  cases kids[i]? with
  | none => rfl
  | some t =>
    dsimp only
    generalize v s t (some ⟨i, b, kids.take i, kids.drop (i + 1)⟩) = r
    obtain ⟨state, node, family, signal⟩ := r
    rw [walkOn]
    generalize family[i]?.any Slot.isHere = attached
    cases signal <;> cases attached <;> cases node <;> rfl

/-- At a node between its siblings. -/
theorem walkFrom_between (v : Visitor L B σ ε) (fuel : Nat) (s : σ) (b : B)
    (before after : List (Tree L B)) (t : Tree L B) :
    walkFrom v (fuel + 1) s b (before ++ t :: after) before.length =
      walkOn v fuel b before.length (before ++ t :: after).length
        (v s t (some (.between b before after))) := by
  have here : (before ++ t :: after)[before.length]? = some t := by simp
  have ahead : (before ++ t :: after).drop (before.length + 1) = after := by simp
  have behind : (before ++ t :: after).take before.length = before := by simp
  rw [walkFrom_succ, here]
  simp only [ahead, behind, Spot.between]

section

variable {v : Visitor L B σ ε} {s s' s'' : σ} {b : B} {before after after' : List (Tree L B)}
  {t t' t'' : Tree L B}

/-- A node that stays in place and is skipped. -/
theorem walkFrom_skip (fuel : Nat)
    (reply : v s t (some (.between b before after)) =
      ⟨s', t', (Spot.between b before after).keeping after', .skip⟩) :
    walkFrom v (fuel + 1) s b (before ++ t :: after) before.length =
      walkFrom v fuel s' b ((before ++ [t']) ++ after') (before ++ [t']).length := by
  rw [walkFrom_between, reply]
  simp only [walkOn, fill_keeping, attached_keeping, nextIndex, if_true, List.length_append,
    List.length_singleton, List.append_assoc, List.singleton_append]
  rfl

/-- A node that stays in place and below which the walk comes to its end. -/
theorem walkFrom_proceed (fuel : Nat)
    (reply : v s t (some (.between b before after)) =
      ⟨s', t', (Spot.between b before after).keeping after', .proceed⟩)
    (below : walkBelow v fuel s' t' = ⟨s'', t'', .finished⟩) :
    walkFrom v (fuel + 1) s b (before ++ t :: after) before.length =
      walkFrom v fuel s'' b ((before ++ [t'']) ++ after') (before ++ [t'']).length := by
  rw [walkFrom_between, reply]
  simp only [walkOn, fill_keeping, attached_keeping, below, nextIndex, if_true,
    List.length_append, List.length_singleton, List.append_assoc, List.singleton_append]
  rfl

/-- A node that a visitor does not see stays in place. -/
theorem walkFrom_unseen {test : Tree L B → Bool} (fuel : Nat) (fails : test t = false)
    (below : walkBelow (Visitor.only test v) fuel s t = ⟨s'', t'', .finished⟩) :
    walkFrom (Visitor.only test v) (fuel + 1) s b (before ++ t :: after) before.length =
      walkFrom (Visitor.only test v) fuel s'' b ((before ++ [t'']) ++ after)
        (before ++ [t'']).length :=
  walkFrom_proceed fuel (Visitor.only_of_false fails) below

/-- A node that stays in place and below which the walk stops: it stops as a whole, whether the
signal named an index or not. -/
theorem walkFrom_stop_of_descends (fuel : Nat) {e : Ending ε} {signal : Signal ε}
    (stops : e ≠ .finished)
    (reply : v s t (some (.between b before after)) =
      ⟨s', t', (Spot.between b before after).keeping after', signal⟩)
    (descends : signal.Descends) (below : walkBelow v fuel s' t' = ⟨s'', t'', e⟩) :
    walkFrom v (fuel + 1) s b (before ++ t :: after) before.length =
      ⟨s'', before ++ t'' :: after', e⟩ := by
  rw [walkFrom_between, reply]
  cases signal with
  | skip | exit | fail _ => exact descends.elim
  | proceed | resumeAt _ =>
    simp only [walkOn, fill_keeping, attached_keeping, below, if_true]
    cases e with
    | finished => exact absurd rfl stops
    | exited | negative _ | failed _ | unfinished => rfl

/-- A node that stays in place and below which the walk stops: it stops as a whole. -/
theorem walkFrom_stop (fuel : Nat) {e : Ending ε} (stops : e ≠ .finished)
    (reply : v s t (some (.between b before after)) =
      ⟨s', t', (Spot.between b before after).keeping after', .proceed⟩)
    (below : walkBelow v fuel s' t' = ⟨s'', t'', e⟩) :
    walkFrom v (fuel + 1) s b (before ++ t :: after) before.length =
      ⟨s'', before ++ t'' :: after', e⟩ :=
  walkFrom_stop_of_descends fuel stops reply trivial below

/-- A node that stays in place and below which the walk comes to its end, with an index at
which it goes on then. -/
theorem walkFrom_jump (fuel : Nat) {index : Int} (named : 0 ≤ index)
    (reply : v s t (some (.between b before after)) =
      ⟨s', t', (Spot.between b before after).keeping after', .resumeAt index⟩)
    (below : walkBelow v fuel s' t' = ⟨s'', t'', .finished⟩) :
    walkFrom v (fuel + 1) s b (before ++ t :: after) before.length =
      walkFrom v fuel s'' b (before ++ t'' :: after') index.toNat := by
  rw [walkFrom_between, reply]
  simp only [walkOn, fill_keeping, attached_keeping, below, if_true, Spot.before_between]
  rw [if_neg (by omega)]

/-- A node at which the visitor ends the walk. -/
theorem walkFrom_exit (fuel : Nat)
    (reply : v s t (some (.between b before after)) =
      ⟨s', t', (Spot.between b before after).keeping after', .exit⟩) :
    walkFrom v (fuel + 1) s b (before ++ t :: after) before.length =
      ⟨s', before ++ t' :: after', .exited⟩ := by
  rw [walkFrom_between, reply]
  simp only [walkOn, fill_keeping, Spot.before_between]

/-- A node at which the visitor fails: the walk stops as a whole. -/
theorem walkFrom_fail (fuel : Nat) {error : ε}
    (reply : v s t (some (.between b before after)) =
      ⟨s', t', (Spot.between b before after).keeping after', .fail error⟩) :
    walkFrom v (fuel + 1) s b (before ++ t :: after) before.length =
      ⟨s', before ++ t' :: after', .failed error⟩ := by
  rw [walkFrom_between, reply]
  simp only [walkOn, fill_keeping, Spot.before_between]

/-- A node that other nodes replace: the walk stands behind the last of them. -/
theorem walkFrom_replace (fuel : Nat) {new : List (Tree L B)} {signal : Signal ε}
    (goes : signal = .proceed ∨ signal = .skip)
    (reply : v s t (some (.between b before after)) =
      ⟨s', t', (Spot.between b before after).replacing new, signal⟩) :
    walkFrom v (fuel + 1) s b (before ++ t :: after) before.length =
      walkFrom v fuel s' b ((before ++ new) ++ after) (before ++ new).length := by
  rw [walkFrom_between, reply]
  rcases goes with rfl | rfl <;>
    simp only [walkOn, fill_replacing, attached_replacing, nextIndex_replacing, Spot.before_between,
      Spot.after_between, Bool.false_eq_true, if_false]

/-- A node that other nodes replace, with an index among them at which the walk goes on. -/
theorem walkFrom_resume (fuel : Nat) {passed ahead : List (Tree L B)}
    (reply : v s t (some (.between b before after)) =
      ⟨s', t', (Spot.between b before after).replacing (passed ++ ahead),
        .resumeAt (before ++ passed).length⟩) :
    walkFrom v (fuel + 1) s b (before ++ t :: after) before.length =
      walkFrom v fuel s' b ((before ++ passed) ++ (ahead ++ after))
        (before ++ passed).length := by
  rw [walkFrom_between, reply]
  simp only [walkOn, fill_replacing, attached_replacing, Spot.before_between,
    Spot.after_between, Bool.false_eq_true, if_false, Int.toNat_natCast, List.append_assoc]
  rw [if_neg (by omega)]

end

/-! ## the root -/

/-- A walk that proceeds from the root goes through what is below it. -/
theorem walk_proceed {v : Visitor L B σ ε} (fuel : Nat) {s s' : σ} {t t' : Tree L B}
    {family : List (Slot L B)} (reply : v s t none = ⟨s', t', family, .proceed⟩) :
    walk v fuel s t = walkBelow v fuel s' t' := by
  rw [walk, reply]
  cases t' with
  | leaf l => rfl
  | branch b kids =>
    simp only [walkBelow]
    cases (walkFrom v fuel s' b kids 0).ending <;> rfl

/-- An index that is none below zero says nothing at the root. -/
theorem walk_jump {v : Visitor L B σ ε} (fuel : Nat) {s s' : σ} {t t' : Tree L B}
    {family : List (Slot L B)} {index : Int} (named : 0 ≤ index)
    (reply : v s t none = ⟨s', t', family, .resumeAt index⟩) :
    walk v fuel s t = walkBelow v fuel s' t' := by
  have above : ¬ index < 0 := by omega
  rw [walk, reply]
  cases t' with
  | leaf l => simp only [walkBelow, above, if_false]
  | branch b kids =>
    simp only [walkBelow]
    cases (walkFrom v fuel s' b kids 0).ending with
    | finished => exact if_neg above
    | exited | negative _ | failed _ | unfinished => rfl

/-- A walk that the visitor ends at the root visits the root only. -/
theorem walk_exit {v : Visitor L B σ ε} (fuel : Nat) {s s' : σ} {t t' : Tree L B}
    {family : List (Slot L B)} (reply : v s t none = ⟨s', t', family, .exit⟩) :
    walk v fuel s t = ⟨s', t', .exited⟩ := by
  rw [walk, reply]

/-- A walk that skips what is below the root visits the root only. -/
theorem walk_skip {v : Visitor L B σ ε} (fuel : Nat) {s s' : σ} {t t' : Tree L B}
    {family : List (Slot L B)} (reply : v s t none = ⟨s', t', family, .skip⟩) :
    walk v fuel s t = ⟨s', t', .finished⟩ := by
  rw [walk, reply]

/-! ## states -/

end Tree

/-- The outcome of a walk seen through a function of its state. -/
def Walked.mapState {τ α : Type} (f : τ → σ) (w : Walked τ α ε) : Walked σ α ε :=
  ⟨f w.state, w.left, w.ending⟩

namespace Tree

section

variable {τ : Type} {f : τ → σ} {u : Visitor L B τ ε} {v : Visitor L B σ ε}

/-- A visitor that keeps more in its state walks as the one whose state is a part of it. -/
theorem walkFrom_mapState
    (same : ∀ s t spot, v (f s) t spot =
      ⟨f (u s t spot).state, (u s t spot).node, (u s t spot).family, (u s t spot).signal⟩)
    (fuel : Nat) (s : τ) (b : B) (kids : List (Tree L B)) (i : Nat) :
    walkFrom v fuel (f s) b kids i = (walkFrom u fuel s b kids i).mapState f := by
  induction fuel generalizing s b kids i with
  | zero => rfl
  | succ fuel ih =>
    have below (s : τ) (t : Tree L B) :
        walkBelow v fuel (f s) t = (walkBelow u fuel s t).mapState f := by
      cases t with
      | leaf l => rfl
      | branch b kids =>
        rw [walkBelow, ih]
        rfl
    rw [walkFrom_succ, walkFrom_succ]
    cases kids[i]? with
    | none => rfl
    | some t =>
      dsimp only
      rw [same]
      generalize u s t (some ⟨i, b, kids.take i, kids.drop (i + 1)⟩) = r
      obtain ⟨state, node, family, signal⟩ := r
      have inside : (if family[i]?.any Slot.isHere then walkBelow v fuel (f state) node
            else ⟨f state, node, .finished⟩) =
          (if family[i]?.any Slot.isHere then walkBelow u fuel state node
            else ⟨state, node, .finished⟩).mapState f := by
        split
        · exact below state node
        · rfl
      cases signal with
      | exit | fail _ => rfl
      | skip => exact ih _ _ _ _
      | proceed | resumeAt _ =>
        simp only [walkOn, inside]
        cases (if family[i]?.any Slot.isHere then walkBelow u fuel state node
            else ⟨state, node, .finished⟩ : Walked τ (Tree L B) ε) with
        | mk state' left ending =>
          cases ending with
          | exited | negative _ | failed _ | unfinished => rfl
          | finished =>
            dsimp only [Walked.mapState]
            first
              | exact ih _ _ _ _
              | (split
                 · rfl
                 · exact ih _ _ _ _)

theorem walk_mapState
    (same : ∀ s t spot, v (f s) t spot =
      ⟨f (u s t spot).state, (u s t spot).node, (u s t spot).family, (u s t spot).signal⟩)
    (fuel : Nat) (s : τ) (t : Tree L B) :
    walk v fuel (f s) t = (walk u fuel s t).mapState f := by
  rw [walk, walk, same]
  obtain ⟨state, node, family, signal⟩ := u s t none
  cases node with
  | leaf l =>
    cases signal with
    | exit | fail _ | skip | proceed => rfl
    | resumeAt index =>
      dsimp only
      split <;> rfl
  | branch b kids =>
    simp only [walkFrom_mapState same]
    obtain ⟨state', left, ending⟩ := walkFrom u fuel state b kids 0
    cases signal with
    | exit | fail _ | skip => rfl
    | proceed => cases ending <;> rfl
    | resumeAt index =>
      cases ending with
      | finished =>
        dsimp only [Walked.mapState]
        split <;> rfl
      | exited | negative _ | failed _ | unfinished => rfl
end

end Tree

end Docsite
