import Docsite.Conversion
import Docsite.Markdown.Tokenize
import Docsite.Site.Discover
import Docsite.Site.Session

/-!
# Docsite.Site.Generate

A site from a package: the output directory is emptied, every document of the package is
converted and written, and the images are copied.

The documents are found before the output directory is emptied, so one that stood in it
is missed when its turn comes.  A fault of one document ends the run, or is kept for the
report if the run is to keep going; faults of the output directory and of the images
always end it.
-/

namespace Docsite.Site

open Files (Path FileTree)
open Log (Record)

/-- What a run has done. -/
structure Report where
  written : List Path := []
  copied : List Path := []
  failures : List (Path × Fault) := []
  deriving DecidableEq, Repr

/-- Has every document been converted? -/
def Report.isComplete (r : Report) : Bool := r.failures.isEmpty

/-- One line for each failure; nothing if there is none. -/
def Report.summary? (r : Report) : Option String :=
  if r.failures.isEmpty then none
  else some ("\n".intercalate (r.failures.map fun (path, fault) =>
    path.toString ++ ": " ++ fault.message))

/-- What a run is asked for. -/
structure Request where
  output : Path
  source : Path := ⟨["node_modules", "stylelint"]⟩
  tables : Tables := {}
  keepGoing : Bool := false

/-! ## one document -/

/-- The text of a source. -/
def readSource (t : FileTree) (p : Path) : Except Cause String :=
  match t.read p with
  | .error refusal => .error (.onPath refusal p.toString)
  | .ok bytes =>
    match Files.Utf8.decode bytes with
    | .error e => .error (.decoding e)
    | .ok text => .ok (.ofList (Text.normalizeNewlines text))

/-- Write a page with the directories that it needs. -/
def writePage (t : FileTree) (p : Path) (page : String) : Except Cause FileTree :=
  match t.ensureDirectory p.parent with
  | .error (refusal, at_) => .error (.onPath refusal at_.toString)
  | .ok t =>
    match t.write p (Files.Utf8.encode page.toList) with
    | .error refusal => .error (.onPath refusal p.toString)
    | .ok t => .ok t

/-- The page of a job's source. -/
def convertSource (tables : Tables) (j : Job) (text : String) : Logged String :=
  Conversion.run
    { rewriter := Link.Rewriter.ofGroup j.group, tables := tables, file := some j.source.toString }
    (.ok (Markdown.tokenize {} text))

/-- Convert one document and write its page. -/
def convert (r : Request) (j : Job) (s : Session) : Session × Except Fault Path :=
  match readSource s.files j.source with
  | .error cause => (s, .error (.unreadable j.source cause))
  | .ok text =>
    let page := convertSource r.tables j text
    let s := s.noteAll page.log
    match page.result with
    | .error fault => (s, .error fault)
    | .ok page =>
      let destination := r.output ++ j.output
      match writePage s.files destination page with
      | .error cause => (s, .error (.writeFailed destination cause))
      | .ok files =>
        let s := { s with files := files }
        (s.note ⟨.debug, .generator,
          "Wrote " ++ j.source.toString ++ " -> " ++ destination.toString⟩, .ok destination)

/-! ## all documents -/

/-- Convert documents in order; what has been done so far is in the report.  Without
`keepGoing` the first fault ends the run. -/
def convertAll (r : Request) : List Job → Report → Session → Session × Except Fault Report
  | [], report, s => (s, .ok report)
  | j :: js, report, s =>
    match convert r j s with
    | (s, .ok destination) =>
      convertAll r js { report with written := report.written ++ [destination] } s
    | (s, .error fault) =>
      if r.keepGoing then
        convertAll r js { report with failures := report.failures ++ [(j.source, fault)] }
          (s.note ⟨.error, .generator,
            "Skipping " ++ j.source.toString ++ ": " ++ fault.message⟩)
      else (s, .error fault)

/-! ## the output directory -/

/-- Remove the output directory if it is there.  A file in its place is not removed, and
neither is the working directory itself, though everything in it is. -/
def clear (p : Path) (s : Session) : Session × Except Cause Unit :=
  match s.files.get? p with
  | none => (s, .ok ())
  | some (.file _) =>
    (s, .error (.file .notDirectory
      ("PosixPath(" ++ .ofList (Text.quoted p.toString.toList) ++ ")")))
  | some .directory =>
    (s.remove p,
      if p.names.isEmpty then .error (.onPath .invalidArgument p.toString) else .ok ())

/-- Make the output directory anew. -/
def reset (p : Path) (s : Session) : Session × Except Fault Unit :=
  match clear p s with
  | (s, .error cause) => (s, .error (.resetFailed p cause))
  | (s, .ok ()) =>
    match s.files.ensureDirectory p with
    | .error (refusal, at_) => (s, .error (.resetFailed p (.onPath refusal at_.toString)))
    | .ok files => ({ s with files := files }, .ok ())

/-! ## images -/

/-- Copy a file.  A directory in the place of the copy takes the copy in under the name
of the file. -/
def copyFile (t : FileTree) (p destination : Path) : Except Cause FileTree :=
  let target := if t.isDirectory destination then destination.child p.name else destination
  match t.read p with
  | .error refusal => .error (.onPath refusal p.toString)
  | .ok bytes =>
    match t.write target bytes with
    | .error refusal => .error (.onPath refusal target.toString)
    | .ok t => .ok t

/-- Copy images to the root of the site in order.  The first that cannot be copied ends
the run. -/
def copyImages (output : Path) :
    List Path → List Path → Session → Session × Except Fault (List Path)
  | [], copied, s => (s, .ok copied)
  | p :: ps, copied, s =>
    let destination := output.child p.name
    match copyFile s.files p destination with
    | .error cause => (s, .error (.copyFailed p destination cause))
    | .ok files =>
      let s := { s with files := files }
      copyImages output ps (copied ++ [destination])
        (s.note ⟨.debug, .generator,
          "Copied asset: " ++ p.toString ++ " -> " ++ destination.toString⟩)

/-! ## a run -/

/-- The record of a run that begins. -/
def startRecord (r : Request) (jobs : List Job) : Record :=
  ⟨.info, .generator,
    "Generating " ++ toString jobs.length ++ " documents from " ++ r.source.toString ++ " into "
      ++ r.output.toString⟩

/-- The record of a run that is over. -/
def endRecord (report : Report) : Record :=
  ⟨.info, .generator,
    "Wrote " ++ toString report.written.length ++ " documents, copied "
      ++ toString report.copied.length ++ " images, " ++ toString report.failures.length
      ++ " failures"⟩

/-- Generate a site. -/
def generate (r : Request) (s : Session) : Session × Except Fault Report :=
  if !s.files.isDirectory r.source then (s, .error (.sourceMissing r.source))
  else
    let documents := jobs s.files r.source
    match reset r.output (s.note (startRecord r documents)) with
    | (s, .error fault) => (s, .error fault)
    | (s, .ok ()) =>
      match convertAll r documents {} s with
      | (s, .error fault) => (s, .error fault)
      | (s, .ok report) =>
        match copyImages r.output (images s.files r.source) [] s with
        | (s, .error fault) => (s, .error fault)
        | (s, .ok copied) =>
          let report := { report with copied := copied }
          (s.note (endRecord report), .ok report)

end Docsite.Site
