import Docsite.Fault

/-!
# Docsite.Files.FileTree

A file system as a finite map from paths to files and directories.

The working directory and the root directory always exist.  An operation names the path
that it works on, and is refused for the reason that the system would give: the path is
not there, it is of the wrong sort, or something on the way to it is a file.
-/

namespace Docsite.Files

/-- The bytes of a file. -/
abbrev Bytes := List UInt8

/-- What stands at a path. -/
inductive Entry where
  | file (bytes : Bytes)
  | directory
  deriving DecidableEq, Repr

/-- A file system. -/
structure FileTree where
  entries : List (Path × Entry)
  deriving DecidableEq, Repr

namespace FileTree

/-- Nothing but the working directory. -/
def empty : FileTree := ⟨[]⟩

/-- Is the path one where a directory always stands? -/
def isFixed (p : Path) : Bool := p.names == [] || p.names == ["/"]

/-- What stands at a path, if anything does. -/
def get? (t : FileTree) (p : Path) : Option Entry :=
  if isFixed p then some .directory else t.entries.lookup p

/-- Is there anything at the path? -/
def has (t : FileTree) (p : Path) : Bool := (t.get? p).isSome

/-- Is there a directory at the path? -/
def isDirectory (t : FileTree) (p : Path) : Bool := t.get? p == some .directory

/-- Is there a file at the path? -/
def isFile (t : FileTree) (p : Path) : Bool :=
  match t.get? p with
  | some (.file _) => true
  | _ => false

/-- Put an entry at a path, in the place of the one that stands there. -/
def set (t : FileTree) (p : Path) (e : Entry) : FileTree :=
  if (t.entries.lookup p).isSome then
    ⟨t.entries.map fun (q, old) => if q = p then (q, e) else (q, old)⟩
  else ⟨t.entries ++ [(p, e)]⟩

/-- The directories above a path, the nearest last. -/
def above (p : Path) : List Path := (List.range p.names.length).map fun n => ⟨p.names.take n⟩

/-- Is something on the way to the path a file? -/
def blocked (t : FileTree) (p : Path) : Bool := (above p).any t.isFile

/-- Why there is nothing at a path. -/
def absence (t : FileTree) (p : Path) : FileRefusal :=
  if t.blocked p then .notDirectory else .notFound

/-! ## reading -/

/-- The bytes of the file at a path. -/
def read (t : FileTree) (p : Path) : Except FileRefusal Bytes :=
  match t.get? p with
  | some (.file bytes) => .ok bytes
  | some .directory => .error .isDirectory
  | none => .error (t.absence p)

/-- The paths directly in a directory, in order. -/
def list (t : FileTree) (p : Path) : List Path :=
  ((t.entries.map Prod.fst).filter fun q => q.names ≠ [] ∧ q.parent = p).mergeSort Path.le

/-- The paths at any depth below a directory, in order. -/
def listAll (t : FileTree) (p : Path) : List Path :=
  ((t.entries.map Prod.fst).filter fun q => q.isWithin p ∧ q ≠ p).mergeSort Path.le

/-- What stands below a directory, in no particular order. -/
def below (t : FileTree) (p : Path) : List (Path × Entry) :=
  t.entries.filter fun (q, _) => q.isWithin p ∧ q ≠ p

/-! ## writing -/

/-- Write a file, which may exist already. -/
def write (t : FileTree) (p : Path) (bytes : Bytes) : Except FileRefusal FileTree :=
  match t.get? p with
  | some .directory => .error .isDirectory
  | some (.file _) => .ok (t.set p (.file bytes))
  | none =>
    if t.isDirectory p.parent then .ok (t.set p (.file bytes)) else .error (t.absence p)

/-- Open a file for additions; it is made if it is not there. -/
def openForAppend (t : FileTree) (p : Path) : Except FileRefusal FileTree :=
  match t.get? p with
  | some (.file _) => .ok t
  | _ => t.write p []

/-- Add bytes to the end of a file, if it is there. -/
def append (t : FileTree) (p : Path) (bytes : Bytes) : FileTree :=
  match t.get? p with
  | some (.file old) => t.set p (.file (old ++ bytes))
  | _ => t

/-- Make one directory in a directory that is there. -/
def makeDirectory (t : FileTree) (p : Path) : Except FileRefusal FileTree :=
  if t.has p then .error .exists
  else if t.isDirectory p.parent then .ok (t.set p .directory)
  else .error (t.absence p)

/-- Make a directory and those above it that are missing, looking at most `depth` levels
up.  A directory that is there already is no obstacle.  A refusal names the path that is
in the way. -/
def makeDirectories (t : FileTree) (p : Path) : Nat → Except (FileRefusal × Path) FileTree
  | 0 => .error (.notFound, p)
  | depth + 1 =>
    match t.makeDirectory p with
    | .ok t => .ok t
    | .error .notFound =>
      match t.makeDirectories p.parent depth with
      | .error refusal => .error refusal
      | .ok t =>
        match t.makeDirectory p with
        | .ok t => .ok t
        | .error refusal => .error (refusal, p)
    | .error refusal => if t.isDirectory p then .ok t else .error (refusal, p)

/-- Make a directory with those above it. -/
def ensureDirectory (t : FileTree) (p : Path) : Except (FileRefusal × Path) FileTree :=
  t.makeDirectories p (p.names.length + 1)

/-- Remove a path with everything below it. -/
def remove (t : FileTree) (p : Path) : FileTree :=
  ⟨t.entries.filter fun (q, _) => !q.isWithin p⟩

/-! ## what stands where -/

theorem lookup_map_replace (es : List (Path × Entry)) (p q : Path) (e : Entry) :
    (es.map fun (r, old) => if r = p then (r, e) else (r, old)).lookup q
      = if q = p then (es.lookup q).map fun _ => e else es.lookup q := by
  induction es with
  | nil => simp
  | cons x es ih =>
    obtain ⟨r, old⟩ := x
    by_cases hr : r = p <;> by_cases hq : q = r <;> grind

theorem lookup_filter (es : List (Path × Entry)) (keep : Path → Bool) (q : Path) :
    (es.filter fun (r, _) => keep r).lookup q = if keep q then es.lookup q else none := by
  induction es with
  | nil => simp
  | cons x es ih =>
    obtain ⟨r, old⟩ := x
    by_cases hr : keep r <;> by_cases hq : q = r <;> grind

theorem get?_of_isFixed (t : FileTree) {p : Path} (h : isFixed p = true) :
    t.get? p = some .directory := by
  simp [get?, h]

/-- An entry that is put at a path stands there, and all others stay. -/
theorem get?_set (t : FileTree) {p : Path} (h : isFixed p = false) (e : Entry) (q : Path) :
    (t.set p e).get? q = if q = p then some e else t.get? q := by
  by_cases hq : q = p
  · subst hq
    cases hl : t.entries.lookup q <;> simp [get?, set, h, hl, lookup_map_replace, List.lookup_append]
  · have hn : [(p, e)].lookup q = none := by
      have hb : (q == p) = false := by simp [hq]
      simp [List.lookup_cons, hb]
    cases hl : t.entries.lookup p <;>
      simp [get?, set, hq, hl, hn, lookup_map_replace, List.lookup_append]

/-- Nothing is left within a path that was removed, and all else stays. -/
theorem get?_remove (t : FileTree) (p : Path) {q : Path} (h : isFixed q = false) :
    (t.remove p).get? q = if q.isWithin p then none else t.get? q := by
  simp only [get?, remove, h, lookup_filter t.entries fun r => !r.isWithin p]
  cases q.isWithin p <;> simp

end FileTree

end Docsite.Files
