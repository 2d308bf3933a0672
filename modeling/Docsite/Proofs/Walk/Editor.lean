import Docsite.Proofs.Walk.Step

/-!
# Docsite.Proofs.Walk.Editor

Visitors that edit the siblings of the node they visit.

An editor either puts fresh nodes in behind the visited node or replaces the visited node by
fresh ones, and lets the walk proceed or skip what is below the node.  At the root, which has
no siblings, it may do as it likes.  The edits are data, so a walk can keep a record of them:
an editor that also writes down its visits (`Editor.recording`) is an editor again.
-/

namespace Docsite

variable {L B σ : Type} {α β : Type}

/-- Put elements into a list, one after another.  A place beyond the end is the end. -/
def putIn (xs : List α) : List (Nat × α) → List α
  | [] => xs
  | (place, a) :: puts => putIn (xs.take place ++ a :: xs.drop place) puts

/-- What becomes of the siblings at a visit. -/
inductive Edit (L B : Type) where
  /-- Nodes are put in behind the visited node, each at a place that counts from there. -/
  | insert (puts : List (Nat × Tree L B))
  /-- Nodes take the place of the visited node. -/
  | replace (new : List (Tree L B))

namespace Edit

/-- The list of siblings after an edit. -/
def family (spot : Spot L B) : Edit L B → List (Slot L B)
  | insert puts => spot.keeping (putIn spot.after puts)
  | replace new => spot.replacing new

/-- The nodes that an edit puts in behind the visited node. -/
def inserted : Edit L B → List (Tree L B)
  | insert puts => puts.map Prod.snd
  | replace _ => []

end Edit

/-- A visitor that edits the siblings of the nodes it visits.  Its answers end in whether the
walk skips what is below the node. -/
structure Editor (L B σ : Type) where
  atRoot : σ → Tree L B → σ × Tree L B × Bool
  atSpot : σ → Tree L B → Spot L B → σ × Edit L B × Bool

/-- One visit of an editor below the root. -/
structure Visit (L B : Type) where
  node : Tree L B
  spot : Spot L B
  edit : Edit L B
  skips : Bool

/-- The visit leads to no visit below the node: the node is replaced or skipped. -/
def Visit.stops (v : Visit L B) : Bool :=
  match v.edit with
  | .insert _ => v.skips
  | .replace _ => true

namespace Editor

/-- The signal that stands for skipping or proceeding. -/
def signal (skips : Bool) : Signal Empty := if skips then .skip else .proceed

/-- The visitor that an editor is. -/
def visitor (e : Editor L B σ) : Visitor L B σ Empty := fun s t spot =>
  match spot with
  | none => ⟨(e.atRoot s t).1, (e.atRoot s t).2.1, [], signal (e.atRoot s t).2.2⟩
  | some spot =>
    let (s', edit, skips) := e.atSpot s t spot
    ⟨s', t, edit.family spot, signal skips⟩

/-- The editor that sees only the nodes that pass a test. -/
def only (test : Tree L B → Bool) (e : Editor L B σ) : Editor L B σ where
  atRoot s t := if test t then e.atRoot s t else (s, t, false)
  atSpot s t spot := if test t then e.atSpot s t spot else (s, .insert [], false)

/-- The editor that also writes down its visits. -/
def recording (e : Editor L B σ) : Editor L B (σ × List (Visit L B)) where
  atRoot s t :=
    let (s', t', skips) := e.atRoot s.1 t
    ((s', s.2), t', skips)
  atSpot s t spot :=
    let (s', edit, skips) := e.atSpot s.1 t spot
    ((s', s.2 ++ [⟨t, spot, edit, skips⟩]), edit, skips)

theorem atRoot_only (test : Tree L B → Bool) (e : Editor L B σ) (s : σ) (t : Tree L B) :
    (e.only test).atRoot s t = if test t then e.atRoot s t else (s, t, false) := rfl

theorem atSpot_only (test : Tree L B → Bool) (e : Editor L B σ) (s : σ) (t : Tree L B)
    (spot : Spot L B) :
    (e.only test).atSpot s t spot = if test t then e.atSpot s t spot else (s, .insert [], false) :=
  rfl

/-- Writing down the visits changes nothing else. -/
theorem visitor_recording (e : Editor L B σ) (test : Tree L B → Bool) (s : σ × List (Visit L B))
    (t : Tree L B) (spot : Option (Spot L B)) :
    Visitor.only test e.visitor s.1 t spot =
      ⟨(Visitor.only test e.recording.visitor s t spot).state.1,
        (Visitor.only test e.recording.visitor s t spot).node,
        (Visitor.only test e.recording.visitor s t spot).family,
        (Visitor.only test e.recording.visitor s t spot).signal⟩ := by
  cases passes : test t <;> cases spot <;> simp only [Visitor.only, passes] <;> rfl

/-- An editor that sees only some nodes writes down, of all visits, those of these nodes. -/
theorem visitor_only_recording (e : Editor L B σ) (test : Tree L B → Bool)
    (s : σ × List (Visit L B)) (t : Tree L B) (spot : Option (Spot L B)) :
    Visitor.only test e.recording.visitor (s.1, s.2.filter (test ·.node)) t spot =
      ⟨((e.only test).recording.visitor s t spot).state.map id (·.filter (test ·.node)),
        ((e.only test).recording.visitor s t spot).node,
        ((e.only test).recording.visitor s t spot).family,
        ((e.only test).recording.visitor s t spot).signal⟩ := by
  cases passes : test t with
  | true =>
    cases spot with
    | none =>
      simp only [Visitor.only, visitor, recording, atRoot_only, passes, if_true]
      rfl
    | some spot =>
      simp only [Visitor.only, visitor, recording, atSpot_only, passes, if_true, Prod.map,
        List.filter_append, List.filter_cons, List.filter_nil]
      rfl
  | false =>
    cases spot with
    | none =>
      simp only [Visitor.only, visitor, recording, atRoot_only, passes, Bool.false_eq_true,
        if_false]
      rfl
    | some spot =>
      simp only [Visitor.only, visitor, recording, atSpot_only, passes, Bool.false_eq_true,
        if_false, Prod.map, List.filter_append, List.filter_cons, List.filter_nil, List.append_nil]
      rfl

end Editor

end Docsite
