import Docsite.Tables
import Docsite.Text.Blank
import Docsite.Text.Lines
import Docsite.Text.Quoted
import Docsite.Yaml.Scalar

/-!
# Docsite.FrontMatter

The front matter of a page: a YAML block between two lines `---` with the title, the
label in the sidebar and, for the home page, its address.

All of it comes from the title, and the title is read off the finished text: it is
the first line that consists of `# ` and at least one more character, wherever it
stands.
-/

namespace Docsite

/-- The front matter fields of one page. -/
structure FrontMatter where
  title : String
  sidebarLabel : String
  slug : Option String := none
  deriving DecidableEq, Repr

namespace FrontMatter

/-! ## the title -/

/-- What a title line says, without the marker and without white space at the ends. -/
def titleOfLine? : List Char → Option (List Char)
  | '#' :: ' ' :: c :: cs => some (Text.trim (c :: cs))
  | _ => none

/-- The title of a page: what its first title line says. -/
def titleOf? (page : List Char) : Option (List Char) :=
  (Text.lines page).findSome? titleOfLine?

/-- The title of a page, or what is wrong with a page that has none. -/
def extractTitle (page : List Char) : Except String (List Char) :=
  match titleOf? page with
  | some title => .ok title
  | none => .error "no top-level heading"

theorem toOption_extractTitle (page : List Char) :
    (extractTitle page).toOption = titleOf? page := by
  unfold extractTitle
  cases titleOf? page <;> rfl

/-! ## the fields -/

/-- The front matter that belongs to a title.  The home page is titled by its label. -/
def ofTitle (tables : Tables) (title : String) : FrontMatter :=
  let label := (tables.titleOverrides.lookup title).getD title
  if title = tables.homeTitle then ⟨label, label, some tables.homeSlug⟩
  else ⟨title, label, none⟩

/-- Names and values in the order in which they are written. -/
def fields (fm : FrontMatter) : List (String × String) :=
  [("title", fm.title), ("sidebar_label", fm.sidebarLabel)]
    ++ (fm.slug.map fun slug => ("slug", slug)).toList

/-! ## writing -/

/-- The line that opens and closes the block. -/
def delimiter : List Char := "---".toList

/-- One field as a line of the block. -/
def fieldLine (field : String × String) : List Char :=
  field.1.toList ++ ": ".toList ++ Yaml.scalar field.2.toList ++ ['\n']

/-- The whole block, without a line feed at its end. -/
def block (fm : FrontMatter) : List Char :=
  delimiter ++ '\n' :: fm.fields.flatMap fieldLine ++ delimiter

/-- A page with its front matter and a blank line before it; nothing if it has no title. -/
def prepend? (tables : Tables) (page : List Char) : Option (FrontMatter × List Char) :=
  (extractTitle page).toOption.map fun title =>
    let fm := ofTitle tables (.ofList title)
    (fm, fm.block ++ '\n' :: '\n' :: page)

/-- The fields as log messages show them. -/
def describe (fm : FrontMatter) : List Char :=
  let shown := fm.fields.map fun (name, value) =>
    Text.quoted name.toList ++ ": ".toList ++ Text.quoted value.toList
  '\x7b' :: ", ".toList.intercalate shown ++ ['\x7d']

end FrontMatter

end Docsite
