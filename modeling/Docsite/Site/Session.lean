import Docsite.Files.FileTree
import Docsite.Log

/-!
# Docsite.Site.Session

The file system and the log of a run, together.

They belong together because the log may itself be a file: a record that is important
enough is added to it at once, so a run that reads the log file as a document, or removes
it with the directory that it stands in, sees what it has logged so far.
-/

namespace Docsite.Site

open Files (Path FileTree)

/-- The file that records are added to. -/
structure LogFile where
  path : Path
  layout : Log.Layout
  /-- The least level of the records that are added. -/
  least : Log.Level
  deriving DecidableEq, Repr

/-- The state of a run.  A log file that has been removed is none. -/
structure Session where
  files : FileTree
  log : List Log.Record := []
  logFile : Option LogFile := none

namespace Session

/-- A record as it is added to a log file. -/
def logLine (f : LogFile) (r : Log.Record) : Files.Bytes :=
  Files.Utf8.encode ((r.line f.layout).toList ++ ['\n'])

/-- Record something. -/
def note (r : Log.Record) (s : Session) : Session :=
  let files :=
    match s.logFile with
    | some f => if f.least.rank ≤ r.level.rank then s.files.append f.path (logLine f r) else s.files
    | none => s.files
  { s with files := files, log := s.log ++ [r] }

/-- Record several things in order. -/
def noteAll (rs : List Log.Record) (s : Session) : Session := rs.foldl (fun s r => s.note r) s

/-- Remove a path with everything below it, perhaps the log file too. -/
def remove (p : Path) (s : Session) : Session :=
  { s with
    files := s.files.remove p
    logFile := s.logFile.filter fun f => !f.path.isWithin p }

end Session

end Docsite.Site
