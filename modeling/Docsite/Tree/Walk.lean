import Docsite.Tree.Basic

/-!
# Docsite.Tree.Walk

A walk over a tree that the visitor may edit on the way.

The walk goes through a tree in pre-order and shows each node to a visitor.  The visitor
answers with the node and the list of siblings as it leaves them, and with a signal that
says how to go on.  In the list of siblings the visited node stands as the mark `here`,
so the walk can tell the node itself from an equal one: the node is *still in place* if
the mark stands at the index where the node was found.

After the visitor has answered, the walk

* goes through the children of the node, if it is still in place and the signal does not
  say otherwise;
* then goes on at the index that the signal names, or else after the node if it is still
  in place, or else after whatever took its place: the walk moves on by as many places as
  the list of siblings grew, and never back before the node's index.

A visitor can keep a walk busy for ever, so a walk has a number of steps to spend on each
chain of nested steps and ends as `unfinished` when they run out.
-/

namespace Docsite

/-- One entry of a list of siblings while one of them is visited. -/
inductive Slot (L B : Type) where
  /-- The visited node itself. -/
  | here
  | sibling (node : Tree L B)

namespace Slot

variable {L B : Type}

/-- The tree in a slot, given the visited node. -/
def fill (node : Tree L B) : Slot L B → Tree L B
  | .here => node
  | .sibling t => t

/-- Is the slot the mark of the visited node? -/
def isHere : Slot L B → Bool
  | .here => true
  | .sibling _ => false

end Slot

/-- Where a node below the root stands when it is visited. -/
structure Spot (L B : Type) where
  index : Nat
  /-- The label of the parent. -/
  parent : B
  before : List (Tree L B)
  after : List (Tree L B)

namespace Spot

variable {L B : Type}

/-- The list of siblings, the visited node marked. -/
def family (s : Spot L B) : List (Slot L B) :=
  s.before.map .sibling ++ .here :: s.after.map .sibling

end Spot

/-- How a walk goes on after a visit. -/
inductive Signal (ε : Type) where
  /-- Through the children, then to the next sibling. -/
  | proceed
  /-- Not through the children. -/
  | skip
  /-- The walk is over. -/
  | exit
  /-- Through the children, then at the given index of the siblings. -/
  | resumeAt (index : Int)
  /-- The walk is over, and the visitor has failed. -/
  | fail (error : ε)
  deriving DecidableEq, Repr

/-- What a visitor leaves behind. -/
structure Reply (L B σ ε : Type) where
  state : σ
  /-- The visited node. -/
  node : Tree L B
  /-- The list of siblings; without meaning at the root. -/
  family : List (Slot L B)
  signal : Signal ε

/-- A visitor with a state, for trees with leaf labels `L` and branch labels `B`.  The root
stands in no spot. -/
abbrev Visitor (L B σ ε : Type) := σ → Tree L B → Option (Spot L B) → Reply L B σ ε

/-- How a walk ended. -/
inductive Ending (ε : Type) where
  | finished
  | exited
  /-- The visitor named an index below zero. -/
  | negative (index : Int)
  | failed (error : ε)
  /-- The steps ran out. -/
  | unfinished
  deriving DecidableEq, Repr

/-- The wording for an index below zero. -/
def Tree.negativeMessage (index : Int) : String :=
  "Visitor returned a negative index: " ++ toString index

/-- The outcome of a walk over a tree or a list of trees. -/
structure Walked (σ α ε : Type) where
  state : σ
  left : α
  ending : Ending ε

namespace Visitor

variable {L B σ ε : Type}

/-- A visitor that sees only the nodes that pass a test. -/
def only (test : Tree L B → Bool) (v : Visitor L B σ ε) : Visitor L B σ ε := fun s node spot =>
  if test node then v s node spot
  else ⟨s, node, (spot.map Spot.family).getD [], .proceed⟩

end Visitor

namespace Tree

variable {L B σ ε : Type}

/-- The index at which a walk goes on after a visit at index `i`, when the signal names
none: `before` and `now` are the numbers of siblings before and after the visit. -/
def nextIndex (attached : Bool) (i before now : Nat) : Nat :=
  if attached then i + 1 else max i (i + 1 + now - before)

/-- Walk through a list of siblings from an index on, with `fuel` steps for each chain of
nested steps. -/
def walkFrom (v : Visitor L B σ ε) :
    Nat → σ → B → List (Tree L B) → Nat → Walked σ (List (Tree L B)) ε
  | 0, s, _, kids, _ => ⟨s, kids, .unfinished⟩
  | fuel + 1, s, parent, kids, i =>
    match kids[i]? with
    | none => ⟨s, kids, .finished⟩
    | some child =>
      let r := v s child (some ⟨i, parent, kids.take i, kids.drop (i + 1)⟩)
      let now (node : Tree L B) := r.family.map (Slot.fill node)
      let attached := r.family[i]?.any Slot.isHere
      let next := nextIndex attached i kids.length r.family.length
      match r.signal with
      | .exit => ⟨r.state, now r.node, .exited⟩
      | .fail e => ⟨r.state, now r.node, .failed e⟩
      | .skip => walkFrom v fuel r.state parent (now r.node) next
      | signal =>
        let below : Walked σ (Tree L B) ε :=
          match attached, r.node with
          | true, .branch b grandkids =>
            let w := walkFrom v fuel r.state b grandkids 0
            ⟨w.state, .branch b w.left, w.ending⟩
          | _, node => ⟨r.state, node, .finished⟩
        match below.ending, signal with
        | .finished, .resumeAt index =>
          if index < 0 then ⟨below.state, now below.left, .negative index⟩
          else walkFrom v fuel below.state parent (now below.left) index.toNat
        | .finished, _ => walkFrom v fuel below.state parent (now below.left) next
        | ending, _ => ⟨below.state, now below.left, ending⟩

/-- Walk through a whole tree, with `fuel` steps for each chain of nested steps below the
root. -/
def walk (v : Visitor L B σ ε) (fuel : Nat) (s : σ) (t : Tree L B) : Walked σ (Tree L B) ε :=
  let r := v s t none
  match r.signal with
  | .exit => ⟨r.state, r.node, .exited⟩
  | .fail e => ⟨r.state, r.node, .failed e⟩
  | .skip => ⟨r.state, r.node, .finished⟩
  | signal =>
    let below : Walked σ (Tree L B) ε :=
      match r.node with
      | .branch b kids =>
        let w := walkFrom v fuel r.state b kids 0
        ⟨w.state, .branch b w.left, w.ending⟩
      | node => ⟨r.state, node, .finished⟩
    match below.ending, signal with
    | .finished, .resumeAt index =>
      if index < 0 then { below with ending := .negative index } else below
    | _, _ => below

end Tree

end Docsite
