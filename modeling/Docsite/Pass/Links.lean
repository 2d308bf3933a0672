import Docsite.Link.Rewriter
import Docsite.Pass.Basic

/-!
# Docsite.Pass.Links

The pass that rewrites the URL of every link.

Links are met in document order, a link inside another one after it.  The first link
that the rewriter refuses ends the pass; the links before it are rewritten by then.
-/

namespace Docsite.Pass

open Document

/-- Is the node a link? -/
def isLink : Node → Bool
  | .branch (.link _ _) _ => true
  | _ => false

/-- Rewrite the URL of a visited link.  The state counts the URLs that changed. -/
def visitLink (rewriter : Link.Rewriter) : Visitor Nat Link.Refusal := fun count node spot =>
  match node with
  | .branch (.link url title) kids =>
    match rewriter url with
    | .ok new =>
      ⟨if new = url then count else count + 1, .branch (.link new title) kids, family spot, .proceed⟩
    | .error refusal => ⟨count, node, family spot, .fail refusal⟩
  | node => ⟨count, node, family spot, .proceed⟩

/-- Rewrite every link. -/
def rewriteLinks (rewriter : Link.Rewriter) : Pass where
  name := "rewrite-links"
  run n :=
    let w := n.walk (Visitor.only isLink (visitLink rewriter)) (enoughSteps n) 0
    match w.ending with
    | .failed (.cause cause) => ⟨w.left, [], .failed cause⟩
    | .failed (.fault fault) => ⟨w.left, [], .fault fault⟩
    | _ => ⟨w.left, [countRecord "Rewrote" w.state "link URLs"], answerWith w.left⟩

end Docsite.Pass
