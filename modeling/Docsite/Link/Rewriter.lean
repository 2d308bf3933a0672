import Docsite.Fault
import Docsite.Link.Rewrite

/-!
# Docsite.Link.Rewriter

Functions from links to links, which may refuse a link.
-/

namespace Docsite.Link

/-- Why a rewriter refuses a link. -/
inductive Refusal where
  /-- A failure of the rewriter's own. -/
  | cause (cause : Cause)
  /-- A fault of this library, which is passed on as it is. -/
  | fault (fault : Fault)
  deriving DecidableEq, Repr

/-- A function that says where a link has to point. -/
abbrev Rewriter := String → Except Refusal String

namespace Rewriter

/-- A rewriter that refuses no link. -/
def ofFunction (f : String → String) : Rewriter := fun url => .ok (f url)

/-- The rewriter that leaves every link as it is. -/
def unchanged : Rewriter := ofFunction id

/-- The rewriter of a group of documents. -/
def ofGroup (g : Group) : Rewriter := ofFunction g.rewrite

/-- Replace every occurrence of a text. -/
def replacing (old new : String) : Rewriter :=
  ofFunction fun url => .ofList (Text.replaceAll old.toList new.toList url.toList)

/-- Write a text before every link. -/
def prepending (beginning : String) : Rewriter := ofFunction (beginning ++ ·)

/-- The rewriter that refuses every link. -/
def refusing (why : Refusal) : Rewriter := fun _ => .error why

end Rewriter

end Docsite.Link
