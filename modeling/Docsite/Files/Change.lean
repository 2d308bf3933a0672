import Docsite.Files.FileTree

/-!
# Docsite.Files.Change

The steps that turn one file system into another.

Removals come first, then what is new, in the order in which the new file system lists
it: a directory that was made stands there before the files that were written into it.
-/

namespace Docsite.Files

/-- One step on a file system. -/
inductive Change where
  | removeFile (path : Path)
  /-- Remove a directory with everything below it. -/
  | removeDirectory (path : Path)
  | makeDirectory (path : Path)
  | writeFile (path : Path) (bytes : Bytes)
  deriving DecidableEq, Repr

namespace FileTree

/-- Is the entry that stood at a path gone, or one of the other sort in its place? -/
def lost (after : FileTree) (p : Path) : Entry → Bool
  | .file _ => !after.isFile p
  | .directory => !after.isDirectory p

/-- What is removed.  What goes with the directory that holds it is not removed again. -/
def removals (before after : FileTree) : List Change :=
  let gone := before.entries.filter fun (p, e) => after.lost p e
  (gone.filter fun (p, _) => !gone.any fun (q, _) => q = p.parent).map fun (p, e) =>
    match e with
    | .file _ => .removeFile p
    | .directory => .removeDirectory p

/-- What is made and written. -/
def additions (before after : FileTree) : List Change :=
  (after.entries.filter fun (p, e) => before.get? p != some e).map fun (p, e) =>
    match e with
    | .file bytes => .writeFile p bytes
    | .directory => .makeDirectory p

/-- The steps from one file system to another. -/
def changes (before after : FileTree) : List Change :=
  before.removals after ++ before.additions after

end FileTree

end Docsite.Files
