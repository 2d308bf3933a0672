import Docsite.Files.FileTree
import Docsite.Link.Rewrite

/-!
# Docsite.Site.Discover

Which documents a package has, and where in the site they go.

The documents come in three groups, and within a group in the order of their paths:

* the Markdown files at the root of the package go to the root of the site, `README.md`
  as `index.md`;
* those under `docs/`, tables of contents apart, keep their place under `docs/`;
* those under `lib/rules/` go to `user-guide/rules/`, a `README.md` taking the name of
  its directory.

A path counts by its name alone, so a directory whose name ends in `.md` is listed too.
-/

namespace Docsite.Site

open Files (Path FileTree)
open Link (Group)

/-- A document to convert: its source, its page relative to the root of the site, and
its group. -/
structure Job where
  source : Path
  output : Path
  group : Group
  deriving DecidableEq, Repr

/-- Does a path have a name with this ending? -/
def hasEnding (ending : String) (p : Path) : Bool := ending.toList.isSuffixOf p.name.toList

/-- Where a root document goes. -/
def rootOutput (relative : Path) : Path :=
  relative.parent.child
    (.ofList (Text.replaceFirst "README.md".toList "index.md".toList relative.name.toList))

/-- Where a rule document goes. -/
def ruleOutput (relative : Path) : Path :=
  .ofString (.ofList (Text.replaceFirst "/README.md".toList ".md".toList
    ("user-guide/rules/" ++ relative.toString).toList))

/-- The documents under `docs/` that are no pages. -/
def isExcluded (p : Path) : Bool := p.name == "toc.md"

/-- The root documents. -/
def rootJobs (t : FileTree) (source : Path) : List Job :=
  ((t.list source).filter (hasEnding ".md")).map fun p =>
    ⟨p, rootOutput (p.relativeTo source), .root⟩

/-- The documents under `docs/`. -/
def docsJobs (t : FileTree) (source : Path) : List Job :=
  let docs := source.child "docs"
  ((t.listAll docs).filter fun p => hasEnding ".md" p && !isExcluded p).map fun p =>
    ⟨p, p.relativeTo docs, .docs⟩

/-- The rule documents. -/
def ruleJobs (t : FileTree) (source : Path) : List Job :=
  let rules := (source.child "lib").child "rules"
  ((t.listAll rules).filter (hasEnding ".md")).map fun p =>
    ⟨p, ruleOutput (p.relativeTo rules), .rule⟩

/-- The documents of a package in the order in which they are converted. -/
def jobs (t : FileTree) (source : Path) : List Job :=
  rootJobs t source ++ docsJobs t source ++ ruleJobs t source

/-- The images of a package, in order. -/
def images (t : FileTree) (source : Path) : List Path :=
  (t.list source).filter (hasEnding ".png")

end Docsite.Site
