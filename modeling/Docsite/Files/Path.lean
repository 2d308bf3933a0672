import Docsite.Text.Search

/-!
# Docsite.Files.Path

Paths as lists of names.

A relative path is the list of its names, and the working directory the empty list.  An
absolute path has the name `/` in front.  Spelling a path drops empty names and single
dots, so `a//b/./c` and `a/b/c` are one path; two dots are a name like any other.
Paths are ordered name by name, each by code points.
-/

namespace Docsite.Files

/-- A path in a file system. -/
structure Path where
  names : List String
  deriving DecidableEq, Repr

namespace Path

/-- The path that a text spells. -/
def ofString (s : String) : Path :=
  let pieces := (Text.splitAt '/' s.toList).filter fun w => !w.isEmpty && w != ['.']
  let root := if s.toList.head? == some '/' then ["/"] else []
  ⟨root ++ pieces.map String.ofList⟩

/-- The spelling of a path. -/
def toString (p : Path) : String :=
  match p.names with
  | [] => "."
  | "/" :: names => "/" ++ "/".intercalate names
  | names => "/".intercalate names

/-- A path below another. -/
def append (p q : Path) : Path := ⟨p.names ++ q.names⟩

instance : Append Path := ⟨append⟩

/-- The path of one name in a directory. -/
def child (p : Path) (name : String) : Path := ⟨p.names ++ [name]⟩

/-- The last name of a path; the empty text for the working directory. -/
def name (p : Path) : String := p.names.getLastD ""

/-- The directory that holds the path. -/
def parent (p : Path) : Path := ⟨p.names.dropLast⟩

/-- Does the path start at the root directory? -/
def isAbsolute (p : Path) : Bool := p.names.head? == some "/"

/-- Is the path the directory itself or somewhere below it? -/
def isWithin (p directory : Path) : Bool :=
  directory.names.isPrefixOf p.names && p.isAbsolute == directory.isAbsolute

/-- The rest of a path below a directory. -/
def relativeTo (p directory : Path) : Path := ⟨p.names.drop directory.names.length⟩

@[simp] theorem names_append (p q : Path) : (p ++ q).names = p.names ++ q.names := rfl

@[simp] theorem parent_child (p : Path) (n : String) : (p.child n).parent = p := by
  simp [parent, child]

@[simp] theorem name_child (p : Path) (n : String) : (p.child n).name = n := by
  simp [name, child]

@[simp] theorem isWithin_self (p : Path) : p.isWithin p = true := by
  simp [isWithin]

/-- A path below a directory other than the working directory is within it. -/
theorem isWithin_append {p : Path} (h : p.names ≠ []) (q : Path) : (p ++ q).isWithin p = true := by
  obtain ⟨n, ns, e⟩ := List.exists_cons_of_ne_nil h
  simp [isWithin, isAbsolute, e]

@[simp] theorem relativeTo_append (p q : Path) : (p ++ q).relativeTo p = q := by
  simp [relativeTo]

/-- Does the first list of names come before the second or are they the same? -/
def namesLe : List String → List String → Bool
  | [], _ => true
  | _ :: _, [] => false
  | a :: as, b :: bs => a < b || (a == b && namesLe as bs)

/-- Does the first path come before the second or are they the same? -/
def le (p q : Path) : Bool := namesLe p.names q.names

end Path

end Docsite.Files
