/-!
# Docsite.Tables

The fixed words that the passes and the front matter look up.
-/

namespace Docsite

/-- The lookup tables of a conversion.  The defaults are those of the stylelint
documents. -/
structure Tables where
  /-- Paragraph texts that open a block of examples. -/
  triggerSentences : List String :=
    ["The following patterns are considered problems:",
     "The following pattern is considered a problem:"]
  /-- The bold label of a quote, and the kind of admonition it becomes. -/
  admonitionKinds : List (String × String) := [("Note", "note"), ("Warning", "caution")]
  /-- A symbol of the rule tables, and what it is called. -/
  symbolLabels : List (String × String) := [("✅", "Standard"), ("🔧", "Autofixable")]
  /-- A document's title, and its label in the sidebar where that differs. -/
  titleOverrides : List (String × String) := [("Stylelint", "Home")]
  /-- The title of the document at the root of the site. -/
  homeTitle : String := "Stylelint"
  /-- The address of the document at the root of the site. -/
  homeSlug : String := "/"
  deriving DecidableEq, Repr

end Docsite
