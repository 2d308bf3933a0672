import Docsite.Pass.Basic
import Docsite.Tables

/-!
# Docsite.Pass.Symbols

The pass that gives the symbols of the rule tables a title.

A run of text that is exactly one of the symbols in the tables becomes a span whose title
is the symbol's label.  A symbol in a longer run stays as it is.
-/

namespace Docsite.Pass

open Document

/-- A character inside an attribute value of HTML. -/
def attributeChar (c : Char) : List Char :=
  if c = '&' then "&amp;".toList
  else if c = '<' then "&lt;".toList
  else if c = '>' then "&gt;".toList
  else if c = '"' then "&quot;".toList
  else if c = '\'' then "&#x27;".toList
  else [c]

/-- A text inside an attribute value of HTML. -/
def attributeText (s : String) : String := .ofList (s.toList.flatMap attributeChar)

/-- The label of a run of text that is exactly one symbol. -/
def symbolLabel? (tables : Tables) : Node → Option String
  | .leaf (.text content) => tables.symbolLabels.lookup content
  | _ => none

/-- Is the node a run of text that is exactly one symbol? -/
def isSymbol (tables : Tables) (n : Node) : Bool := (symbolLabel? tables n).isSome

/-- A symbol in a span with its label. -/
def symbolSpan (label symbol : String) : Node :=
  .leaf (.htmlInline
    ("<span title=\"" ++ attributeText label ++ "\">" ++ symbol ++ "</span>"))

/-- Put a visited symbol into a span.  The state counts the spans. -/
def visitSymbol (tables : Tables) : Visitor Nat Empty := fun count node spot =>
  match spot, symbolLabel? tables node with
  | some spot, some label =>
    ⟨count + 1, node,
      (spot.before ++ symbolSpan label (Node.textContent node) :: spot.after).map .sibling, .proceed⟩
  | spot, _ => ⟨count, node, family spot, .proceed⟩

/-- Put every symbol into a span. -/
def annotateSymbols (tables : Tables) : Pass where
  name := "rule-symbols"
  run n :=
    let w := n.walk (Visitor.only (isSymbol tables) (visitSymbol tables)) (enoughSteps n) 0
    ⟨w.left, [countRecord "Annotated" w.state "rule symbols"], answerWith w.left⟩

end Docsite.Pass
