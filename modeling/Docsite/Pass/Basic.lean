import Docsite.Document.Kind
import Docsite.Pass.Relay
import Docsite.Tree.Walk

/-!
# Docsite.Pass.Basic

Passes: named operations on a whole document.

An attempt at a pass leaves a tree behind, also where it fails half way, together with
what it recorded and the answer it came to.  A pass that goes through the document as a
walk gets more steps than any of the walks of this library can use.
-/

namespace Docsite

/-- What a pass answers; its document can only be the tree that it leaves. -/
abbrev Answer := Handover Unit

/-- The answer that is the document. -/
@[match_pattern] abbrev Answer.document : Answer := Handover.document ()

/-- The outcome of running a pass. -/
structure Attempt where
  left : Node
  log : List Log.Record
  answer : Answer

/-- A named operation on documents. -/
structure Pass where
  name : String
  run : Node → Attempt

namespace Pass

/-- The visitors of passes. -/
abbrev Visitor (σ ε : Type) := Docsite.Visitor Document.Leaf Document.Branch σ ε

/-- Where a node of a document stands while a pass visits it. -/
abbrev Spot := Docsite.Spot Document.Leaf Document.Branch

/-- The list of siblings at a spot; empty at the root. -/
def family (spot : Option Spot) : List (Slot Document.Leaf Document.Branch) :=
  (spot.map Spot.family).getD []

/-- Steps enough for a walk over a document whose visitor replaces a node by at most
three nodes and the node's own children. -/
def enoughSteps (n : Node) : Nat := 4 * n.size + 4

/-- The pass that answers with nothing. -/
def answersNothing : Pass where
  name := "returns-none"
  run n := ⟨n, [], .other "NoneType"⟩

/-- The answer of a pass that leaves a tree as its document; only a tree whose root is
that of a document is one. -/
def answerWith : Node → Answer
  | .branch .root _ => .document
  | n => .other (Node.kind n).className

/-- The record of how often a pass acted. -/
def countRecord (verb : String) (count : Nat) (what : String) : Log.Record :=
  ⟨.debug, .passes, verb ++ " " ++ toString count ++ " " ++ what⟩

end Pass

end Docsite
