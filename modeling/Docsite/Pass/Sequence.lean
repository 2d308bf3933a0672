import Docsite.Pass.Admonitions
import Docsite.Pass.Examples
import Docsite.Pass.Links
import Docsite.Pass.Symbols

/-!
# Docsite.Pass.Sequence

Passes run one after another.

Each pass gets the document that the one before it left, as the only document there is.  The
first pass that does not answer with a document ends the run, and the tree stays as that pass
left it.
-/

namespace Docsite

/-- The outcome of running passes: the tree, what was recorded, and the fault that ended
the run, if one did. -/
structure PassRun where
  left : Node
  log : List Log.Record
  fault? : Option Fault

namespace Pass

/-- A pass as a runner: the tree is all there is in its store, and the one document. -/
def runner (p : Pass) : Runner Node Unit where
  name := p.name
  run n _ := ⟨(p.run n).left, (p.run n).log, (p.run n).answer⟩

/-- Run passes in order. -/
def runAll (passes : List Pass) (n : Node) : PassRun :=
  let relayed := relay (passes.map runner) n ()
  match relayed.result with
  | .ok () => ⟨relayed.store, relayed.log, none⟩
  | .error fault => ⟨relayed.store, relayed.log, some fault⟩

/-- The passes of a conversion, in order. -/
def standard (rewriter : Link.Rewriter) (tables : Tables) : List Pass :=
  [rewriteLinks rewriter, wrapExamples tables, convertAdmonitions tables, annotateSymbols tables]

end Pass

end Docsite
