import Docsite.Pass.Basic
import Docsite.Tables
import Docsite.Text.Blank

/-!
# Docsite.Pass.Examples

The pass that wraps the examples of a rule.

The documents of the rules introduce their examples with a sentence: "The following
patterns are considered problems:", or the same with an emphasized *not* in the middle.
The pass puts an opening division after each such paragraph and a closing one where the
examples end: before the next such paragraph or heading among the siblings, or after the
last sibling.

The sentence is read off the first and the third node of the paragraph, so the emphasized
word between them does not matter for finding it; it settles the class of the division.
-/

namespace Docsite.Pass

open Document

/-- Does the paragraph introduce examples? -/
def isTrigger (tables : Tables) : Node → Bool
  | .branch .paragraph content =>
    !content.isEmpty
      && tables.triggerSentences.contains
          (.ofList (Text.trimEnd (Node.textAt content 0).toList) ++ Node.textAt content 2)
  | _ => false

/-- Does the second node of the paragraph hold a "not" first? -/
def negates (content : List Node) : Bool :=
  match content[1]? with
  | some marker => Node.textAt marker.children 0 == "not"
  | none => false

/-- The start of a division, for examples that are right or wrong. -/
def openingDivision (valid : Bool) : Node :=
  .html ("<div class=\"" ++ (if valid then "valid-pattern" else "invalid-pattern") ++ "\">")

/-- The end of a division. -/
def closingDivision : Node := .html "</div>"

/-- Do examples end before the node? -/
def endsExamples (tables : Tables) : Node → Bool
  | .branch (.heading _) _ => true
  | node => isTrigger tables node

/-- Put a division around what follows a visited trigger.  The state counts the
divisions. -/
def visitTrigger (tables : Tables) : Visitor Nat Empty := fun count node spot =>
  match spot with
  | none => ⟨count, node, [], .proceed⟩
  | some spot =>
    let examples := spot.after.takeWhile (!endsExamples tables ·)
    let others := spot.after.dropWhile (!endsExamples tables ·)
    let after := openingDivision (negates node.children) :: examples ++ closingDivision :: others
    ⟨count + 1, node, spot.before.map .sibling ++ .here :: after.map .sibling, .skip⟩

/-- Wrap the examples after every trigger. -/
def wrapExamples (tables : Tables) : Pass where
  name := "wrap-problem-examples"
  run n :=
    let w := n.walk (Visitor.only (isTrigger tables) (visitTrigger tables)) (enoughSteps n) 0
    ⟨w.left, [countRecord "Wrapped" w.state "example blocks"], answerWith w.left⟩

end Docsite.Pass
