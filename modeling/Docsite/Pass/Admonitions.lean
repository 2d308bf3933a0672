import Docsite.Pass.Basic
import Docsite.Tables
import Docsite.Text.Blank

/-!
# Docsite.Pass.Admonitions

The pass that turns labelled quotes into admonitions.

A quote is labelled if its first child is a paragraph that begins with a strong run whose
first node is one of the labels in the tables.  The quote is replaced by its contents
between two fences: a paragraph `:::kind label`, the rest of the labelled paragraph, the
other blocks of the quote, and a paragraph `:::`.  The walk goes on inside what replaced
the quote, so a labelled quote in a quote becomes an admonition in an admonition.
-/

namespace Docsite.Pass

open Document

/-- The kind and the label of a labelled quote, the rest of its first paragraph, and its
other blocks. -/
def labelledQuote? (tables : Tables) :
    Node → Option (String × String × List Node × List Node)
  | .branch .quote (.branch .paragraph (.branch .strong label :: rest) :: blocks) =>
    let label := Node.textAt label 0
    (tables.admonitionKinds.lookup label).map fun kind => (kind, label, rest, blocks)
  | _ => none

/-- Is the node a quote? -/
def isQuote : Node → Bool
  | .branch .quote _ => true
  | _ => false

/-- A text without leading white space. -/
def trimmedStart (s : String) : String := .ofList (Text.trimStart s.toList)

/-- A node without white space at the start of its own text; nodes that hold other nodes
or no text stay as they are. -/
def trimNode : Node → Node
  | .leaf (.text content) => .leaf (.text (trimmedStart content))
  | .leaf (.inlineCode content) => .leaf (.inlineCode (trimmedStart content))
  | .leaf (.codeBlock content language) => .leaf (.codeBlock (trimmedStart content) language)
  | .leaf (.htmlBlock content) => .leaf (.htmlBlock (trimmedStart content))
  | .leaf (.htmlInline content) => .leaf (.htmlInline (trimmedStart content))
  | node => node

/-- Nodes whose first one has no white space at the start of its own text. -/
def trimFirst : List Node → List Node
  | [] => []
  | node :: nodes => trimNode node :: nodes

/-- The paragraph that opens an admonition. -/
def openingFence (kind label : String) : Node :=
  .paragraph [.text (":::" ++ kind ++ " " ++ label)]

/-- The paragraph that closes an admonition. -/
def closingFence : Node := .paragraph [.text ":::"]

/-- The blocks that stand for a labelled quote. -/
def admonition (kind label : String) (rest blocks : List Node) : List Node :=
  openingFence kind label :: .paragraph (trimFirst rest) :: blocks ++ [closingFence]

/-- Replace a visited quote by an admonition, if it is labelled.  The walk goes on behind
the rest of the labelled paragraph.  The state counts the admonitions. -/
def visitQuote (tables : Tables) : Visitor Nat Empty := fun count node spot =>
  match spot, labelledQuote? tables node with
  | some spot, some (kind, label, rest, blocks) =>
    ⟨count + 1, node,
      (spot.before ++ admonition kind label rest blocks ++ spot.after).map .sibling,
      .resumeAt (spot.index + 2)⟩
  | spot, _ => ⟨count, node, family spot, .proceed⟩

/-- Turn every labelled quote into an admonition. -/
def convertAdmonitions (tables : Tables) : Pass where
  name := "convert-admonitions"
  run n :=
    let w := n.walk (Visitor.only isQuote (visitQuote tables)) (enoughSteps n) 0
    ⟨w.left, [countRecord "Converted" w.state "admonitions"], answerWith w.left⟩

end Docsite.Pass
