import Docsite.CommandLine.Run
import Docsite.Files.Change
import Std.Time

/-!
# Docsite.Main

The program.

What the command line names is read from the disk into a `FileTree`, `CommandLine.run`
settles what becomes of it, and the difference is brought back.
-/

namespace Docsite.Program

open Files (Path Entry FileTree Change)

/-- What stands at a path and below it. -/
partial def entriesBelow (p : Path) : IO (List (Path × Entry)) := do
  let place := (← IO.currentDir) / p.toString
  if ← place.isDir then
    let inside ← (← place.readDir).toList.mapM fun e => entriesBelow (p.child e.fileName)
    pure ((p, .directory) :: inside.flatten)
  else if ← place.pathExists then
    pure [(p, .file (← IO.FS.readBinFile place).toList)]
  else pure []

/-- What stands at a path, without what is below it. -/
def entryAt (p : Path) : IO (List (Path × Entry)) := do
  let place := (← IO.currentDir) / p.toString
  if ← place.isDir then pure [(p, .directory)]
  else if ← place.pathExists then pure [(p, .file [])]
  else pure []

/-- The part of the disk that paths name, with the directories on the way there. -/
def snapshot (ps : List Path) : IO FileTree := do
  let onTheWay ← (ps.flatMap FileTree.above).mapM entryAt
  let below ← ps.mapM entriesBelow
  pure ((onTheWay ++ below).flatten.foldl (fun t (p, e) => t.set p e) FileTree.empty)

/-- Bring a change to the disk. -/
def carryOut : Change → IO Unit
  | .removeFile p => IO.FS.removeFile p.toString
  | .removeDirectory p => IO.FS.removeDirAll p.toString
  | .makeDirectory p => IO.FS.createDirAll p.toString
  | .writeFile p bytes => IO.FS.writeBinFile p.toString ⟨bytes.toArray⟩

end Docsite.Program

open Docsite in
/-- Run the program on the words of its command line. -/
def main (args : List String) : IO UInt32 := do
  let now ← Std.Time.PlainDateTime.now
  let before ← Program.snapshot (CommandLine.places args)
  let outcome := CommandLine.run args
    { workingDirectory := (← IO.currentDir).toString
      time := now.format "uuuu-MM-dd HH:mm:ss" }
    before
  (before.changes outcome.files).forM Program.carryOut
  IO.print outcome.stdout
  IO.eprint outcome.stderr
  pure outcome.exitCode.toUInt32
