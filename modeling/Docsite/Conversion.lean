import Docsite.Document.OfTokens
import Docsite.FrontMatter
import Docsite.Markdown.Render
import Docsite.Pass.Sequence

/-!
# Docsite.Conversion

From one Markdown source to one page of the site.

The tokens of the source become a document, the passes run on it, the document is written
as Markdown, and the front matter that belongs to its title is put before it.  The
tokenizer is a parameter, because a source may come with its tokens or be refused.
-/

namespace Docsite

open Log (Record)

/-- Something worked out, or the fault that came up, with what was recorded on the way. -/
structure Logged (α : Type) where
  log : List Record
  result : Except Fault α

namespace Conversion

/-- What a conversion depends on besides its source. -/
structure Settings where
  rewriter : Link.Rewriter := Link.Rewriter.unchanged
  tables : Tables := {}
  /-- The file that the source comes from, for messages. -/
  file : Option String := none
  reading : Markdown.ReadingOptions := {}
  writing : Markdown.WritingOptions := {}

/-- The name of the source in log messages. -/
def Settings.label (s : Settings) : String :=
  match s.file with
  | none | some "" => "<string>"
  | some file => file

/-- The document of a source: its tokens, or the reason why it has none. -/
def read (tokens : Except Cause (List Markdown.Token)) : Logged Node :=
  match tokens with
  | .ok tokens => ⟨Document.readingLog tokens, .ok (Document.ofTokens tokens)⟩
  | .error cause => ⟨[], .error (.untokenized cause)⟩

/-- The text of a page without front matter. -/
def body (s : Settings) (n : Node) : String := Markdown.render s.writing n ++ "\n"

/-- The text of a page with its front matter. -/
def withFrontMatter (tables : Tables) (file : Option String) (label page : String) :
    Logged String :=
  match FrontMatter.prepend? tables page.toList with
  | none => ⟨[], .error (.missingTitle file)⟩
  | some (fm, text) =>
    ⟨[⟨.debug, .frontMatter, "Front matter for " ++ label ++ ": " ++ .ofList fm.describe⟩],
      .ok (.ofList text)⟩

/-- The page of a document that has gone through the passes. -/
def finish (s : Settings) (n : Node) : Logged String :=
  withFrontMatter s.tables s.file s.label (body s n)

/-- The page of a source that is given by its tokens. -/
def run (s : Settings) (tokens : Except Cause (List Markdown.Token)) : Logged String :=
  let start : Record := ⟨.debug, .pipeline, "Processing " ++ s.label⟩
  let document := read tokens
  match document.result with
  | .error fault => ⟨start :: document.log, .error fault⟩
  | .ok n =>
    let passes := Pass.runAll (Pass.standard s.rewriter s.tables) n
    match passes.fault? with
    | some fault => ⟨start :: document.log ++ passes.log, .error fault⟩
    | none =>
      let page := finish s passes.left
      ⟨start :: document.log ++ passes.log ++ page.log, page.result⟩

end Conversion

end Docsite
