import Docsite.CommandLine.Arguments
import Docsite.Site.Generate

/-!
# Docsite.CommandLine.Run

The program as a function of its command line and the file system.

Records go to the standard error stream, and to the log file if one is asked for, from
the asked level on.  The exit code is that of the fault that ended the run, or the
greatest of those of the failures that were kept; it is zero exactly when the run says
that the documents have been generated.
-/

namespace Docsite.CommandLine

open Files (Path FileTree)
open Site (Session Report)

/-- What the program learns from its surroundings besides the file system. -/
structure Surroundings where
  /-- The absolute path of the working directory. -/
  workingDirectory : String
  /-- The time as log lines show it. -/
  time : String

/-- What a run leaves behind. -/
structure Outcome where
  exitCode : Nat
  stdout : String
  stderr : String
  files : FileTree
  /-- The command line settled the outcome, and nothing was run. -/
  unrun : Bool := false

/-- The program's name and version. -/
def version : String := "md2docusaurus 1.0.0"

/-- What the program says when everything has been converted. -/
def successMessage : String := "Documents have been generated."

/-- The least level of the records that are shown. -/
def leastLevel (a : Arguments) : Log.Level := if a.trace then .debug else a.logLevel

/-- The paths that a run works on. -/
def places (args : List String) : List Path :=
  match read args with
  | .run a =>
    ([a.source, a.outputDir] ++ (a.logFile.filter (· ≠ "")).toList).map Path.ofString
  | _ => []

/-- How records are shown. -/
def layout (a : Arguments) (w : Surroundings) : Log.Layout :=
  if a.trace then .traced w.time else .brief

/-- The absolute spelling of a path. -/
def absolute (w : Surroundings) (p : Path) : String :=
  if p.isAbsolute then p.toString
  else if p.names.isEmpty then w.workingDirectory
  else w.workingDirectory ++ "/" ++ p.toString

/-- Begin a run, with its log file if it has one. -/
def start (a : Arguments) (w : Surroundings) (t : FileTree) : Session × Except Fault Unit :=
  let s : Session := { files := t }
  match a.logFile with
  | none | some "" => (s, .ok ())
  | some name =>
    let path := Path.ofString name
    match t.openForAppend path with
    | .error refusal => (s, .error (.logFile name (.onPath refusal (absolute w path))))
    | .ok t =>
      let s : Session := { files := t, logFile := some ⟨path, layout a w, leastLevel a⟩ }
      (s.note ⟨.debug, .commandLine, "Logging to file: " ++ name⟩, .ok ())

/-- The whole run. -/
def perform (a : Arguments) (w : Surroundings) (t : FileTree) : Session × Except Fault Report :=
  match start a w t with
  | (s, .error fault) => (s, .error fault)
  | (s, .ok ()) =>
    Site.generate
      { output := .ofString a.outputDir, source := .ofString a.source, keepGoing := a.keepGoing } s

/-- The records that are shown, each on a line of its own. -/
def shownLog (a : Arguments) (w : Surroundings) (rs : List Log.Record) : String :=
  String.join ((rs.filter fun r => (leastLevel a).rank ≤ r.level.rank).map fun r =>
    r.line (layout a w) ++ "\n")

/-- The outcome of a run with the arguments. -/
def conclude (a : Arguments) (w : Surroundings) (t : FileTree) : Outcome :=
  match perform a w t with
  | (s, .error fault) =>
    let s := s.note ⟨.error, .commandLine, fault.message⟩
    { exitCode := fault.exitCode
      stdout := ""
      stderr := shownLog a w s.log ++ "Error: " ++ fault.message ++ "\n"
      files := s.files }
  | (s, .ok report) =>
    match report.summary? with
    | some summary =>
      { exitCode := (report.failures.map fun (_, fault) => fault.exitCode).foldl max 0
        stdout := ""
        stderr := shownLog a w s.log ++ "Some documents could not be generated:\n" ++ summary ++ "\n"
        files := s.files }
    | none =>
      { exitCode := 0
        stdout := successMessage ++ "\n"
        stderr := shownLog a w s.log
        files := s.files }

/-- The program. -/
def run (args : List String) (w : Surroundings) (t : FileTree) : Outcome :=
  match read args with
  | .run a => conclude a w t
  | .showVersion =>
    { exitCode := 0, stdout := version ++ "\n", stderr := "", files := t, unrun := true }
  | .showHelp => { exitCode := 0, stdout := "", stderr := "", files := t, unrun := true }
  | .usage => { exitCode := 2, stdout := "", stderr := "", files := t, unrun := true }

end Docsite.CommandLine
