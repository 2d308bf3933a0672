import Docsite.Proofs.Files.Listing

/-!
# Docsite.Proofs.Files.Directories

What making directories and writing files does to a file system.

A file system is in order on the way to a path if what stands there stands in a directory
(`RootedAlong`).  A directory can then be made, with those above it, just if no file is on the way,
and afterwards the path and those above it are directories and all else is as before
(`ensureDirectory_ok`, `ensureDirectory_error`).  In a directory a file is written where there is no
directory (`write_ok`), and an addition to a file is seen in that file only (`get?_append`).
-/

namespace Docsite.Files

/-! ## paths -/

namespace Path

theorem isWithin_iff {p d : Path} :
    p.isWithin d = true ↔ d.names <+: p.names ∧ p.isAbsolute = d.isAbsolute := by
  rw [isWithin, Bool.and_eq_true, List.isPrefixOf_iff_prefix, beq_iff_eq]

/-- Paths that begin with the same name are both absolute or both relative. -/
theorem isAbsolute_eq_of_above {p q : Path} (some : p.names ≠ []) (h : p.names <+: q.names) :
    q.isAbsolute = p.isAbsolute := by
  obtain ⟨n, ns, is⟩ := List.exists_cons_of_ne_nil some
  obtain ⟨rest, is'⟩ := h
  rw [isAbsolute, isAbsolute, ← is', is]
  rfl

theorem prefix_iff {p q : Path} (some : q.names ≠ []) :
    p.names <+: q.names ↔ p = q ∨ p.names <+: q.parent.names := by
  obtain ⟨names⟩ := q
  obtain ⟨front, last, rfl⟩ := List.eq_nil_or_concat names |>.resolve_left some
  obtain ⟨names⟩ := p
  simp [parent, List.prefix_concat_iff]

theorem not_prefix_parent {p : Path} (some : p.names ≠ []) : ¬p.names <+: p.parent.names := by
  intro h
  have length := h.length_le
  have := List.length_pos_iff.mpr some
  rw [parent, List.length_dropLast] at length
  omega

theorem parent_append (o : Path) {p : Path} (some : p.names ≠ []) :
    (o ++ p).parent = o ++ p.parent :=
  congrArg Path.mk (List.dropLast_append_of_ne_nil some)

theorem eq_of_names_eq_nil {p : Path} (none : p.names = []) : p = ⟨[]⟩ := congrArg Path.mk none

theorem append_eq_self (o : Path) {p : Path} (none : p.names = []) : o ++ p = o :=
  congrArg Path.mk (by rw [none, List.append_nil])

theorem append_right_inj {o p q : Path} : o ++ p = o ++ q ↔ p = q := by
  obtain ⟨ps⟩ := p
  obtain ⟨qs⟩ := q
  show (⟨o.names ++ ps⟩ : Path) = ⟨o.names ++ qs⟩ ↔ _
  rw [mk.injEq, List.append_right_inj, mk.injEq]

/-- On the way to a path below a directory are the way to the directory, and paths below it. -/
theorem prefix_append {o p q : Path} (way : q.names <+: (o ++ p).names) :
    q.names <+: o.names ∨ ∃ x : Path, q = o ++ x ∧ x.names <+: p.names := by
  rcases List.prefix_or_prefix_of_prefix way (List.prefix_append o.names p.names) with h | ⟨x, is⟩
  · exact .inl h
  · refine .inr ⟨⟨x⟩, congrArg Path.mk is.symm, ?_⟩
    rwa [← is, names_append, List.prefix_append_right_inj] at way

theorem parent_above (p : Path) : p.parent.names <+: p.names := List.dropLast_prefix _

end Path

namespace FileTree

variable {t u : FileTree} {p q : Path} {bytes : Bytes} {keep : Path → Bool}

/-! ## what stands at a path -/

theorem isDirectory_iff : t.isDirectory p = true ↔ t.get? p = some .directory := by
  rw [isDirectory, beq_iff_eq]

theorem isFile_iff : t.isFile p = true ↔ ∃ bytes, t.get? p = some (.file bytes) := by
  rw [isFile]
  split
  · next bytes there => simp [there]
  · next other =>
    simp only [Bool.false_eq_true, false_iff]
    rintro ⟨bytes, there⟩
    exact other bytes there

theorem isFile_of_directory (there : t.get? p = some .directory) : t.isFile p = false := by
  rw [isFile, there]

theorem isFixed_of_get?_ne (other : t.get? p ≠ some .directory) : isFixed p = false := by
  rw [Bool.eq_false_iff]
  exact fun fixed => other (get?_of_isFixed t fixed)

/-- At a path there is nothing, a file or a directory. -/
theorem get?_cases (t : FileTree) (p : Path) :
    t.get? p = none ∨ t.isFile p = true ∨ t.get? p = some .directory := by
  cases there : t.get? p with
  | none => exact .inl rfl
  | some e =>
    cases e with
    | file bytes => exact .inr (.inl (isFile_iff.mpr ⟨bytes, there⟩))
    | directory => exact .inr (.inr rfl)

/-- The directories above a path are those on the way to the one that holds it. -/
theorem blocked_iff :
    t.blocked p = true ↔ ∃ q : Path, q.names <+: p.parent.names ∧ t.isFile q = true := by
  simp only [blocked, above, List.any_eq_true, List.mem_map, List.mem_range]
  constructor
  · rintro ⟨_, ⟨n, less, rfl⟩, file⟩
    refine ⟨_, ?_, file⟩
    rw [Path.parent, List.dropLast_eq_take]
    exact List.take_prefix_take_left (by omega)
  · rintro ⟨⟨names⟩, h, file⟩
    have whole : names = p.names.take names.length :=
      List.prefix_iff_eq_take.mp (h.trans p.parent_above)
    refine ⟨⟨names⟩, ⟨names.length, ?_, by rw [← whole]⟩, file⟩
    have length := h.length_le
    rw [Path.parent, List.length_dropLast] at length
    rcases names with _ | ⟨n, names⟩
    · exact absurd file (by rw [isFile_of_directory (get?_of_isFixed t rfl)]; decide)
    · rw [List.length_cons] at length ⊢
      omega

/-! ## directories -/

/-- What stands at a path, or on the way to it, stands in a directory. -/
def RootedAlong (t : FileTree) (p : Path) : Prop :=
  ∀ q : Path, q.names <+: p.names → t.get? q ≠ none → t.get? q.parent = some .directory

theorem RootedAlong.parent (rooted : t.RootedAlong p) : t.RootedAlong p.parent :=
  fun q h => rooted q (h.trans p.parent_above)

/-- On the way to a directory are directories only. -/
theorem RootedAlong.directories (rooted : t.RootedAlong p) (there : t.get? p = some .directory)
    {q : Path} (h : q.names <+: p.names) : t.get? q = some .directory := by
  induction length : p.names.length generalizing p with
  | zero =>
    have none : q.names = [] := List.prefix_nil.mp (List.length_eq_zero_iff.mp length ▸ h)
    exact get?_of_isFixed t (by rw [isFixed, none]; rfl)
  | succ n ih =>
    have some : p.names ≠ [] := fun nil => by rw [nil] at length; contradiction
    rcases (Path.prefix_iff some).mp h with rfl | higher
    · exact there
    · have holder := rooted p (List.prefix_refl _) (by rw [there]; exact Option.some_ne_none _)
      refine ih rooted.parent holder higher ?_
      rw [Path.parent, List.length_dropLast, length, Nat.add_sub_cancel]

/-- There is nothing below a path where there is nothing. -/
theorem RootedAlong.none_below {o : Path} (rooted : t.RootedAlong (o ++ p))
    (free : t.get? o = none) : t.get? (o ++ p) = none := by
  by_cases named : p.names = []
  · rw [Path.append_eq_self o named, free]
  · refine Decidable.byContradiction fun there => ?_
    have holder := rooted _ (List.prefix_refl _) there
    rw [Path.parent_append o named] at holder
    have above := (Path.parent_append o named ▸ rooted.parent).directories holder
      (q := o) (List.prefix_append _ _)
    rw [free] at above
    contradiction

theorem names_ne_nil_of_free (free : t.get? p = none) : p.names ≠ [] := by
  intro nil
  have fixed : isFixed p = true := by rw [isFixed, nil]; rfl
  rw [get?_of_isFixed t fixed] at free
  contradiction

/-- How a file system is left when a path and those above it have become directories. -/
def DirectoriesAt (t : FileTree) (p : Path) (u : FileTree) : Prop :=
  ∀ q, u.get? q = if q.names <+: p.names then some .directory else t.get? q

/-- A directory is there already, with those above it. -/
theorem RootedAlong.directoriesAt (rooted : t.RootedAlong p)
    (there : t.get? p = some .directory) : t.DirectoriesAt p t := by
  intro q
  split
  · next way => exact rooted.directories there way
  · rfl

theorem DirectoriesAt.rootedAlong (made : t.DirectoriesAt p.parent u) (some : p.names ≠ []) :
    u.RootedAlong p := by
  intro q way _
  have higher : q.parent.names <+: p.parent.names := by
    rcases (Path.prefix_iff some).mp way with rfl | higher
    · exact List.prefix_refl _
    · exact q.parent_above.trans higher
  rw [made, if_pos higher]

/-- The directory that holds the path first, and then the path itself. -/
theorem DirectoriesAt.trans {v : FileTree} (made : t.DirectoriesAt p.parent u)
    (made' : u.DirectoriesAt p v) : t.DirectoriesAt p v := by
  intro q
  rw [made', made]
  by_cases way : q.names <+: p.names
  · rw [if_pos way, if_pos way]
  · rw [if_neg way, if_neg way, if_neg fun higher => way (higher.trans p.parent_above)]

theorem makeDirectory_ok (rooted : t.RootedAlong p) (free : t.get? p = none)
    (there : t.get? p.parent = some .directory) :
    ∃ u, t.makeDirectory p = .ok u ∧ t.DirectoriesAt p u := by
  have new : t.has p = false := by rw [has, free]; rfl
  have some := names_ne_nil_of_free free
  refine ⟨t.set p .directory, ?_, fun q => ?_⟩
  · rw [makeDirectory, new, if_neg Bool.false_ne_true, if_pos (isDirectory_iff.mpr there)]
  · rw [get?_set t (isFixed_of_get?_ne (t := t) (by rw [free]; simp))]
    by_cases here : q = p
    · rw [if_pos here, if_pos (here ▸ List.prefix_refl _)]
    · rw [if_neg here]
      split
      · next way =>
        exact rooted.parent.directories there (((Path.prefix_iff some).mp way).resolve_left here)
      · rfl

/-- Without a directory to hold it, a directory is not made, and only the holder is missing. -/
theorem makeDirectory_notFound (free : t.get? p = none)
    (alone : t.get? p.parent ≠ some .directory)
    (clear : ∀ q : Path, q.names <+: p.names → t.isFile q = false) :
    t.makeDirectory p = .error .notFound := by
  have new : t.has p = false := by rw [has, free]; rfl
  have unblocked : t.blocked p = false := by
    rw [Bool.eq_false_iff, ne_eq, blocked_iff]
    rintro ⟨q, higher, file⟩
    rw [clear q (higher.trans p.parent_above)] at file
    contradiction
  rw [makeDirectory, new, if_neg Bool.false_ne_true, if_neg (by rwa [isDirectory_iff]), absence,
    unblocked, if_neg Bool.false_ne_true]

/-- With a file in the way a directory is not made, and it is not the holder that is missing. -/
theorem makeDirectory_blocked (rooted : t.RootedAlong p) (way : q.names <+: p.names)
    (file : t.isFile q = true) :
    ∃ refusal, t.makeDirectory p = .error refusal ∧ refusal ≠ .notFound := by
  cases free : t.get? p with
  | some e =>
    refine ⟨.exists, ?_, by decide⟩
    rw [makeDirectory, has, free, if_pos Option.isSome_some]
  | none =>
    have new : t.has p = false := by rw [has, free]; rfl
    have higher : q.names <+: p.parent.names := by
      rcases (Path.prefix_iff (names_ne_nil_of_free free)).mp way with rfl | higher
      · rw [isFile, free] at file
        contradiction
      · exact higher
    have alone : ¬t.isDirectory p.parent = true := by
      rw [isDirectory_iff]
      intro holder
      rw [isFile_of_directory (rooted.parent.directories holder higher)] at file
      contradiction
    refine ⟨.notDirectory, ?_, by decide⟩
    rw [makeDirectory, new, if_neg Bool.false_ne_true, if_neg alone, absence,
      if_pos (blocked_iff.mpr ⟨q, higher, file⟩)]

theorem makeDirectories_ok {depth : Nat} (deep : p.names.length < depth)
    (rooted : t.RootedAlong p) (clear : ∀ q : Path, q.names <+: p.names → t.isFile q = false) :
    ∃ u, t.makeDirectories p depth = .ok u ∧ t.DirectoriesAt p u := by
  induction depth generalizing p with
  | zero => contradiction
  | succ depth ih =>
    rcases get?_cases t p with free | file | there
    · have some := names_ne_nil_of_free free
      by_cases holder : t.get? p.parent = Option.some .directory
      · obtain ⟨u, made, left⟩ := makeDirectory_ok rooted free holder
        exact ⟨u, by simp only [makeDirectories, made], left⟩
      · have refused := makeDirectory_notFound free holder clear
        have shorter : p.parent.names.length < depth := by
          have := List.length_pos_iff.mpr some
          rw [Path.parent, List.length_dropLast]
          omega
        obtain ⟨u, made, left⟩ := ih shorter rooted.parent fun q higher =>
          clear q (higher.trans p.parent_above)
        have still : u.get? p = none := by
          rw [left, if_neg (Path.not_prefix_parent some), free]
        have holder : u.get? p.parent = Option.some .directory := by
          rw [left, if_pos (List.prefix_refl _)]
        obtain ⟨v, made', left'⟩ := makeDirectory_ok (left.rootedAlong some) still holder
        exact ⟨v, by simp only [makeDirectories, refused, made, made'], left.trans left'⟩
    · rw [clear p (List.prefix_refl _)] at file
      contradiction
    · have old : t.makeDirectory p = .error .exists := by
        rw [makeDirectory, has, there, if_pos Option.isSome_some]
      refine ⟨t, ?_, rooted.directoriesAt there⟩
      simp only [makeDirectories, old, isDirectory_iff.mpr there, if_pos]

theorem makeDirectories_error {depth : Nat} (deep : p.names.length < depth)
    (rooted : t.RootedAlong p) (way : q.names <+: p.names) (file : t.isFile q = true) :
    ∃ refusal, t.makeDirectories p depth = .error refusal := by
  obtain ⟨depth, rfl⟩ : ∃ n, depth = n + 1 := ⟨depth - 1, by omega⟩
  have notThere : t.isDirectory p = false := by
    rw [Bool.eq_false_iff, ne_eq, isDirectory_iff]
    intro there
    rw [isFile_of_directory (rooted.directories there way)] at file
    contradiction
  obtain ⟨refusal, refused, other⟩ := makeDirectory_blocked rooted way file
  refine ⟨(refusal, p), ?_⟩
  rw [makeDirectories, refused]
  cases refusal <;> simp_all

theorem sameOn_makeDirectory (there : keep p = true → t.get? p ≠ none)
    (made : t.makeDirectory p = .ok u) : SameOn keep u t := by
  rw [makeDirectory] at made
  split at made
  · contradiction
  · next new =>
    have other : keep p = false := by
      rw [Bool.eq_false_iff]
      intro kept
      rw [has, Bool.not_eq_true, Option.isSome_eq_false_iff, Option.isNone_iff_eq_none] at new
      exact there kept new
    split at made
    · obtain rfl := Except.ok.inj made
      exact sameOn_set other t .directory
    · contradiction

/-- Making directories leaves alone what is there. -/
theorem sameOn_makeDirectories {depth : Nat}
    (there : ∀ q : Path, q.names <+: p.names → keep q = true → t.get? q ≠ none)
    (made : t.makeDirectories p depth = .ok u) : SameOn keep u t := by
  induction depth generalizing p u with
  | zero => contradiction
  | succ depth ih =>
    rw [makeDirectories] at made
    split at made
    · next v made' =>
      obtain rfl := Except.ok.inj made
      exact sameOn_makeDirectory (there p (List.prefix_refl _)) made'
    · split at made
      · contradiction
      · next v above =>
        have same : SameOn keep v t := ih (fun q way => there q (way.trans p.parent_above)) above
        split at made
        · next w made' =>
          obtain rfl := Except.ok.inj made
          refine (sameOn_makeDirectory (fun kept => ?_) made').trans same
          rw [same.get? kept]
          exact there p (List.prefix_refl _) kept
        · contradiction
    · split at made
      · obtain rfl := Except.ok.inj made
        exact SameOn.refl keep t
      · contradiction

theorem ensureDirectory_ok (rooted : t.RootedAlong p)
    (clear : ∀ q : Path, q.names <+: p.names → t.isFile q = false) :
    ∃ u, t.ensureDirectory p = .ok u ∧ t.DirectoriesAt p u :=
  makeDirectories_ok (Nat.lt_succ_self _) rooted clear

theorem ensureDirectory_error (rooted : t.RootedAlong p) (way : q.names <+: p.names)
    (file : t.isFile q = true) : ∃ refusal, t.ensureDirectory p = .error refusal :=
  makeDirectories_error (Nat.lt_succ_self _) rooted way file

/-! ## files -/

/-- How a file system is left when a file has been written, and those above it have become
directories. -/
def FileAt (t : FileTree) (p : Path) (bytes : Bytes) (u : FileTree) : Prop :=
  ∀ q, u.get? q = if q = p then some (.file bytes)
    else if q.names <+: p.parent.names then some .directory else t.get? q

theorem FileAt.of_directoriesAt {bytes : Bytes} {v : FileTree} (made : t.DirectoriesAt p.parent u)
    (written : u.FileAt p bytes v) : t.FileAt p bytes v := by
  intro q
  rw [written, made]
  split
  · rfl
  · split <;> rfl

theorem write_ok (rooted : t.RootedAlong p) (holder : t.get? p.parent = some .directory)
    (free : t.get? p ≠ some .directory) (bytes : Bytes) :
    t.write p bytes = .ok (t.set p (.file bytes)) ∧ t.FileAt p bytes (t.set p (.file bytes)) := by
  constructor
  · rw [write]
    split
    · next there => exact absurd there free
    · rfl
    · rw [if_pos (isDirectory_iff.mpr holder)]
  · intro q
    rw [get?_set t (isFixed_of_get?_ne free)]
    by_cases here : q = p
    · rw [if_pos here, if_pos here]
    · rw [if_neg here, if_neg here]
      exact rooted.parent.directoriesAt holder q

theorem write_error (there : t.get? p = some .directory) (bytes : Bytes) :
    t.write p bytes = .error .isDirectory := by
  rw [write, there]

/-- A file that is written is put where it was to stand. -/
theorem eq_set_of_write (written : t.write p bytes = .ok u) : u = t.set p (.file bytes) := by
  rw [write] at written
  split at written
  · contradiction
  · exact (Except.ok.inj written).symm
  · split at written
    · exact (Except.ok.inj written).symm
    · contradiction

/-- What is read is what was written. -/
theorem read_of_write (written : t.write p bytes = .ok u) : u.read p = .ok bytes := by
  have free : t.get? p ≠ some .directory := by
    intro there
    rw [write_error there] at written
    contradiction
  rw [eq_set_of_write written, read, get?_set t (isFixed_of_get?_ne free), if_pos rfl]

/-- Writing a file changes nothing elsewhere. -/
theorem sameOn_write (other : keep p = false) (written : t.write p bytes = .ok u) :
    SameOn keep u t := by
  rw [eq_set_of_write written]
  exact sameOn_set other t _

/-- Additions to a file are seen there only. -/
theorem get?_append (other : q ≠ p ∨ t.get? q = some .directory) (bytes : Bytes) :
    (t.append p bytes).get? q = t.get? q := by
  rw [append]
  split
  · next old there =>
    have free : t.get? p ≠ some .directory := by rw [there]; simp
    have elsewhere : q ≠ p := by
      rintro rfl
      exact other.elim (fun h => h rfl) free
    rw [get?_set t (isFixed_of_get?_ne free), if_neg elsewhere]
  · rfl

theorem get?_ne_none_of_append {bytes : Bytes} (there : (t.append p bytes).get? q ≠ none) :
    t.get? q ≠ none := by
  intro none
  by_cases here : q = p
  · rw [append, ← here, none] at there
    exact there none
  · rw [get?_append (.inl here)] at there
    exact there none

theorem RootedAlong.append (rooted : t.RootedAlong p) (q : Path) (bytes : Bytes) :
    (t.append q bytes).RootedAlong p := by
  intro r way there
  have holder := rooted r way (get?_ne_none_of_append there)
  rw [get?_append (.inr holder), holder]

@[simp] theorem isFile_append (t : FileTree) (p q : Path) (bytes : Bytes) :
    (t.append p bytes).isFile q = t.isFile q := by
  by_cases here : q = p
  · subst here
    rw [append]
    split
    · next old there =>
      have free : t.get? q ≠ some .directory := by rw [there]; simp
      rw [isFile, get?_set t (isFixed_of_get?_ne free), if_pos rfl, isFile, there]
    · rfl
  · rw [isFile, get?_append (.inl here), isFile]

theorem sameOn_append (other : keep p = false) (bytes : Bytes) :
    SameOn keep (t.append p bytes) t := by
  rw [append]
  split
  · exact sameOn_set other t _
  · exact SameOn.refl keep t

end FileTree

end Docsite.Files
