import Docsite.Text.Search

/-!
# Docsite.Link.Rewrite

Where a link has to point once its document has moved into the site.

The sources come in three groups, and each group writes links relative to its own
place in the package: the root documents, the documents under `docs/`, and the rule
documents `lib/rules/<rule>/README.md`.  `Group.rewrite` maps a link found in a
document of a group to the link in the site.  Every rule changes the first occurrence
of its pattern only, and the rules of a group run one after another on the same text.
-/

namespace Docsite.Link

/-- The three groups of documents. -/
inductive Group where
  | root
  | docs
  | rule
  deriving DecidableEq, Repr

/-- Where the package keeps the index of its rules, which is no page of the site. -/
def rulesIndexUrl : String :=
  "https://github.com/stylelint/stylelint/blob/main/lib/rules/index.js"

/-- Replace the leftmost match of a pattern.  At the start of a text the pattern answers
with what replaces the match and what follows it. -/
def replaceMatch (match? : List Char → Option (List Char × List Char)) : List Char → List Char
  | [] => []
  | c :: cs =>
    match match? (c :: cs) with
    | some (new, rest) => new ++ rest
    | none => c :: replaceMatch match? cs

/-- A path between two fixed texts, made of characters of one class and not empty:
answers with the path and what follows the second text. -/
def between? (left right : String) (inPath : Char → Bool) (s : List Char) :
    Option (List Char × List Char) :=
  if left.toList.isPrefixOf s then
    let rest := s.drop left.length
    let path := rest.takeWhile inPath
    let tail := rest.drop path.length
    if !path.isEmpty && right.toList.isPrefixOf tail then some (path, tail.drop right.length)
    else none
  else none

/-- The characters of a rule's name. -/
def isNameChar (c : Char) : Bool := c.isLower || c == '-'

/-! ## root documents -/

/-- Root documents link into `docs/`, which becomes the root of the site. -/
def dropDocsFolder (url : List Char) : List Char :=
  match Text.stripFirst? ["/docs/".toList, "docs/".toList] url with
  | some rest => '/' :: rest
  | none => url

/-- A link of a root document. -/
def rewriteRoot (url : List Char) : List Char :=
  Text.replaceFirst "README.md".toList "index.md".toList (dropDocsFolder url)

/-! ## documents under docs -/

/-- The replacements for documents under `docs/`, in the order in which they run. -/
def docsReplacements : List (String × String) :=
  [("../../lib/rules/index.js", rulesIndexUrl),
   ("../../CHANGELOG.md", "../CHANGELOG.md"),
   ("../../VISION.md", "../VISION.md"),
   ("../../lib/rules/", "/user-guide/rules/"),
   ("/README.md", ".md"),
   ("CONTRIBUTING.md", "CONTRIBUTING")]

/-- A link of a document under `docs/`. -/
def rewriteDocs (url : List Char) : List Char :=
  docsReplacements.foldl (fun u (old, new) => Text.replaceFirst old.toList new.toList u) url

/-! ## rule documents -/

/-- A link to another rule: `../<rule>/README.md` becomes `<rule>.md`. -/
def siblingRule? (s : List Char) : Option (List Char × List Char) :=
  (between? "../" "/README.md" isNameChar s).map fun (name, rest) => (name ++ ".md".toList, rest)

/-- A link into the user guide, which lies one folder above the rules in the site. -/
def userGuidePage? (s : List Char) : Option (List Char × List Char) :=
  (between? "../../../docs/user-guide/" ".md" (fun c => isNameChar c || c == '/') s).map
    fun (path, rest) => ("../".toList ++ path ++ ".md".toList, rest)

/-- A link of a rule document. -/
def rewriteRule (url : List Char) : List Char :=
  replaceMatch userGuidePage? (replaceMatch siblingRule? url)

/-! ## all groups -/

/-- The link in the site for a link found in a document of the group. -/
def Group.rewrite (g : Group) (url : String) : String :=
  .ofList <|
    match g with
    | .root => rewriteRoot url.toList
    | .docs => rewriteDocs url.toList
    | .rule => rewriteRule url.toList

end Docsite.Link
