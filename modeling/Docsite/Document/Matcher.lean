import Docsite.Document.Kind

/-!
# Docsite.Document.Matcher

Tests that pick nodes.

A test names nodes by tag, by class or by text.  The class `node` stands for every class
at once.  A tag that no kind has picks nothing.
-/

namespace Docsite.Document

/-- The class of all nodes, or the class of one kind. -/
inductive NodeClass where
  | node
  | ofKind (kind : Kind)
  deriving DecidableEq, Repr

/-- A test of nodes. -/
inductive Matcher where
  | any
  | tag (name : String)
  | nodeClass (c : NodeClass)
  /-- Any of the tags or any of the classes. -/
  | oneOf (tags : List String) (classes : List NodeClass)
  | textContent (text : String)
  deriving DecidableEq, Repr

/-- Does a node belong to a class? -/
def NodeClass.holds (n : Node) : NodeClass → Bool
  | .node => true
  | .ofKind k => n.kind == k

/-- Does a node pass a test? -/
def Matcher.accepts (n : Node) : Matcher → Bool
  | .any => true
  | .tag name => n.kind.tag == name
  | .nodeClass c => c.holds n
  | .oneOf tags classes => tags.contains n.kind.tag || classes.any (·.holds n)
  | .textContent text => n.textContent == text

end Docsite.Document
