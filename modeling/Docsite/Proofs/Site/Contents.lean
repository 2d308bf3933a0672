import Mathlib.Data.List.Induction
import Docsite.Proofs.Files.Directories
import Docsite.Proofs.Site.Discover
import Docsite.Site.Generate

/-!
# Docsite.Proofs.Site.Contents

What the output directory holds while a site is being generated.

The directory was emptied, so what stands in it is settled by the files that have been written to it
since then (`contents`), as long as each of them found its place free (`AllFit`).  `Stage` says that
a run has come so far, and that the package is still as it was; a page that is written takes a run
to the next stage if it fits (`Stage.writePage_ok`), and is refused if it does not
(`Stage.writePage_error`).
-/

namespace Docsite.Site

open Files (Path FileTree Entry Bytes)

/-! ## files that are written one after the other -/

/-- What stands at a path of a directory that was empty before files were written: the last that was
written there, or a directory if one was written below. -/
def contents (ws : List (Path × Bytes)) (p : Path) : Option Entry :=
  match ws.reverse.lookup p with
  | some bytes => some (.file bytes)
  | none =>
    if p.names = [] ∨ ∃ w ∈ ws, p.names <+: w.1.names then some .directory else none

/-- The place is free for a file: it is no directory, and there is no file on the way. -/
def Fits (ws : List (Path × Bytes)) (p : Path) : Prop :=
  contents ws p ≠ some .directory ∧
    ∀ q : Path, q.names <+: p.parent.names → ∀ bytes, contents ws q ≠ some (.file bytes)

/-- Each file finds its place free when it is written. -/
def AllFit (ws : List (Path × Bytes)) : Prop :=
  ∀ before w after, ws = before ++ w :: after → Fits before w.1

variable {ws rest : List (Path × Bytes)} {w : Path × Bytes} {o p q : Path} {bytes : Bytes}

theorem contents_nil (p : Path) :
    contents [] p = if p.names = [] then some .directory else none := by
  simp [contents]

theorem AllFit.nil : AllFit [] := by
  intro before w after is
  simp at is

theorem AllFit.fits (all : AllFit (ws ++ w :: rest)) : Fits ws w.1 := all ws w rest rfl

theorem AllFit.left (all : AllFit (ws ++ rest)) : AllFit ws := by
  rintro before w after rfl
  exact all before w (after ++ rest) (by simp)

theorem AllFit.concat (all : AllFit ws) (fits : Fits ws p) : AllFit (ws ++ [(p, bytes)]) := by
  intro before w after is
  rcases List.eq_nil_or_concat after with rfl | ⟨after, last, rfl⟩
  · obtain ⟨rfl, same⟩ := List.append_inj' is rfl
    obtain rfl := List.singleton_inj.mp same
    exact fits
  · rw [List.concat_eq_append, ← List.cons_append, ← List.append_assoc] at is
    exact all before w after (List.append_inj' is rfl).1

/-- A file that fits is there when it is written, in directories, and all else is as before. -/
theorem contents_concat (named : p.names ≠ []) (fits : Fits ws p) (bytes : Bytes) (q : Path) :
    contents (ws ++ [(p, bytes)]) q =
      if q = p then some (.file bytes)
      else if q.names <+: p.parent.names then some .directory else contents ws q := by
  simp only [contents, List.reverse_append, List.reverse_singleton, List.singleton_append,
    List.lookup_cons]
  by_cases here : q = p
  · subst here
    simp
  · have other : (q == p) = false := by simpa using here
    rw [other, if_neg here]
    simp only
    split
    · next old there =>
      -- A file on the way to `p` would keep `p` from fitting.
      have file : contents ws q = some (.file old) := by rw [contents, there]
      rw [if_neg fun higher => fits.2 q higher old file]
    · simp only [List.mem_append, List.mem_singleton, or_and_right, exists_or, exists_eq_left,
        Path.prefix_iff named, or_iff_right here]
      by_cases higher : q.names <+: p.parent.names
      · simp only [higher, or_true, if_true]
      · simp only [higher, or_false, if_false]

theorem AllFit.root (all : AllFit ws) : contents ws ⟨[]⟩ = some .directory := by
  induction ws using List.reverseRecOn with
  | nil => rfl
  | append_singleton ws w ih =>
    have there := ih all.left
    have fits : Fits ws w.1 := all.fits
    have named : w.1.names ≠ [] := by
      intro none
      exact fits.1 (Path.eq_of_names_eq_nil none ▸ there)
    rw [contents_concat named fits, if_neg (fun here => named (by rw [← here])),
      if_pos List.nil_prefix]

theorem AllFit.names_ne_nil (all : AllFit ws) (fits : Fits ws p) : p.names ≠ [] := by
  intro none
  exact fits.1 (Path.eq_of_names_eq_nil none ▸ all.root)

/-- What stands in the directory stands in directories. -/
theorem AllFit.rooted (all : AllFit ws) (there : contents ws q ≠ none) :
    contents ws q.parent = some .directory := by
  -- From the back: the last file brings the directories above it, and puts itself where no
  -- directory was, so what stood in directories still does.
  induction ws using List.reverseRecOn generalizing q with
  | nil =>
    rw [contents_nil] at there ⊢
    split at there
    · next none => rw [Path.parent, none, List.dropLast_nil, if_pos rfl]
    · contradiction
  | append_singleton ws w ih =>
    have fits : Fits ws w.1 := all.fits
    have named := all.left.names_ne_nil fits
    rw [contents_concat named fits] at there ⊢
    have through (higher : q.parent.names <+: w.1.parent.names) : q.parent ≠ w.1 := by
      intro here
      rw [here] at higher
      exact Path.not_prefix_parent named higher
    split at there
    · next here =>
      subst here
      rw [if_neg (through (List.prefix_refl _)), if_pos (List.prefix_refl _)]
    · split at there
      · next higher =>
        have higher := q.parent_above.trans higher
        rw [if_neg (through higher), if_pos higher]
      · have holder := ih all.left there
        have other : q.parent ≠ w.1 := fun here => fits.1 (here ▸ holder)
        rw [if_neg other, holder, ite_self]

/-! ## how far a run has come -/

/-- A record is added to the log file, or to no file. -/
theorem note_files (r : Log.Record) (s : Session) :
    (s.note r).files = s.files ∨
      ∃ f ∈ s.logFile, ∃ bytes, (s.note r).files = s.files.append f.path bytes := by
  rw [Session.note]
  cases is : s.logFile with
  | none => exact .inl rfl
  | some f =>
    dsimp only
    split
    · exact .inr ⟨f, rfl, _, rfl⟩
    · exact .inl rfl

/-- A page that is written stands in a directory that is made for it if it is not there. -/
theorem write_of_writePage {t u : FileTree} {page : String}
    (written : writePage t p page = .ok u) :
    ∃ v, t.ensureDirectory p.parent = .ok v ∧
      v.write p (Files.Utf8.encode page.toList) = .ok u := by
  rw [writePage] at written
  split at written
  · contradiction
  · next v made =>
    split at written
    · contradiction
    · next file =>
      obtain rfl := Except.ok.inj written
      exact ⟨v, made, file⟩

/-- The package is as in `t` at the paths of a class, and the output directory holds what has been
written since it was emptied. -/
structure Stage (keep : Path → Bool) (t : FileTree) (o : Path) (ws : List (Path × Bytes))
    (s : Session) : Prop where
  named : o.names ≠ []
  apart : ∀ q, keep q = true → q.isWithin o = false
  same : FileTree.SameOn keep s.files t
  above : ∀ q : Path, q.names <+: o.names → s.files.get? q = some .directory
  view : ∀ q, s.files.get? (o ++ q) = contents ws q
  fit : AllFit ws
  log : ∀ f ∈ s.logFile, keep f.path = false ∧ f.path.isWithin o = false

namespace Stage

variable {keep : Path → Bool} {t u : FileTree} {s : Session}

/-- The package may be compared with any file system that has it. -/
theorem rebase (stage : Stage keep t o ws s) (same : FileTree.SameOn keep t u) :
    Stage keep u o ws s :=
  { stage with same := stage.same.trans same }

theorem rootedAlong (stage : Stage keep t o ws s) (p : Path) : s.files.RootedAlong (o ++ p) := by
  intro q way there
  rcases Path.prefix_append way with higher | ⟨x, rfl, -⟩
  · exact stage.above _ (q.parent_above.trans higher)
  · rw [stage.view] at there
    by_cases none : x.names = []
    · rw [Path.append_eq_self o none]
      exact stage.above _ o.parent_above
    · rw [Path.parent_append o none, stage.view]
      exact stage.fit.rooted there

/-- A place in the output directory is none of the package. -/
theorem outside (stage : Stage keep t o ws s) (p : Path) : keep (o ++ p) = false := by
  rw [Bool.eq_false_iff]
  intro kept
  have := stage.apart _ kept
  rw [Path.isWithin_append stage.named] at this
  contradiction

/-- What is on the way to a place in the output directory is none of the package, or it is there. -/
theorem there_of_keep (stage : Stage keep t o ws s) (way : q.names <+: (o ++ p).names)
    (kept : keep q = true) : s.files.get? q ≠ none := by
  rcases Path.prefix_append way with higher | ⟨x, rfl, -⟩
  · rw [stage.above q higher]
    exact Option.some_ne_none _
  · rw [stage.outside] at kept
    contradiction

/-- Writing a file that fits. -/
theorem wrote (stage : Stage keep t o ws s) (fits : Fits ws p)
    (written : s.files.FileAt (o ++ p) bytes u) (same : FileTree.SameOn keep u s.files) :
    Stage keep t o (ws ++ [(p, bytes)]) { s with files := u } := by
  have named := stage.fit.names_ne_nil fits
  refine ⟨stage.named, stage.apart, same.trans stage.same, fun q higher => ?_, fun q => ?_,
    stage.fit.concat fits, stage.log⟩
  · have above : q.names <+: (o ++ p).parent.names := by
      rw [Path.parent_append o named]
      exact higher.trans (List.prefix_append _ _)
    have other : q ≠ o ++ p := by
      rintro rfl
      exact Path.not_prefix_parent (by simp [named]) above
    show u.get? q = _
    rw [written, if_neg other, if_pos above]
  · show u.get? (o ++ q) = _
    rw [written, contents_concat named fits, Path.parent_append o named, stage.view]
    simp only [Path.append_right_inj, Path.names_append, List.prefix_append_right_inj]

theorem note (stage : Stage keep t o ws s) (r : Log.Record) : Stage keep t o ws (s.note r) := by
  rcases note_files r s with same | ⟨f, is, bytes, same⟩
  · exact { stage with
      same := by rw [same]; exact stage.same
      above := by rw [same]; exact stage.above
      view := by rw [same]; exact stage.view }
  · obtain ⟨other, outside⟩ := stage.log f is
    refine { stage with same := ?_, above := fun q way => ?_, view := fun q => ?_ }
    · rw [same]
      exact (FileTree.sameOn_append other bytes).trans stage.same
    · rw [same, FileTree.get?_append (.inr (stage.above q way)), stage.above q way]
    · have elsewhere : o ++ q ≠ f.path := by
        intro here
        rw [← here, Path.isWithin_append stage.named] at outside
        contradiction
      rw [same, FileTree.get?_append (.inl elsewhere), stage.view]

theorem noteAll (stage : Stage keep t o ws s) (rs : List Log.Record) :
    Stage keep t o ws (s.noteAll rs) := by
  induction rs generalizing s with
  | nil => exact stage
  | cons r rs ih => exact ih (stage.note r)

/-- A page that fits is written. -/
theorem writePage_ok (stage : Stage keep t o ws s) (fits : Fits ws p) (page : String) :
    ∃ u, writePage s.files (o ++ p) page = .ok u ∧
      Stage keep t o (ws ++ [(p, Files.Utf8.encode page.toList)]) { s with files := u } := by
  have named := stage.fit.names_ne_nil fits
  have named' : (o ++ p).names ≠ [] := by simp [named]
  have clear (q : Path) (way : q.names <+: (o ++ p).parent.names) : s.files.isFile q = false := by
    rw [Path.parent_append o named] at way
    rcases Path.prefix_append way with higher | ⟨x, rfl, higher⟩
    · exact FileTree.isFile_of_directory (stage.above q higher)
    · rw [Bool.eq_false_iff, ne_eq, FileTree.isFile_iff]
      rintro ⟨bytes, there⟩
      rw [stage.view] at there
      exact fits.2 x higher bytes there
  obtain ⟨u, made, directories⟩ := FileTree.ensureDirectory_ok (stage.rootedAlong p).parent clear
  have holder : u.get? (o ++ p).parent = some .directory := by
    rw [directories, if_pos (List.prefix_refl _)]
  have free : u.get? (o ++ p) ≠ some .directory := by
    rw [directories, if_neg (Path.not_prefix_parent named'), stage.view]
    exact fits.1
  obtain ⟨written, file⟩ := FileTree.write_ok (directories.rootedAlong named') holder free
    (Files.Utf8.encode page.toList)
  refine ⟨_, by rw [writePage, made]; dsimp only; rw [written],
    stage.wrote fits (file.of_directoriesAt directories) ?_⟩
  refine (FileTree.sameOn_set (stage.outside p) u _).trans
    (FileTree.sameOn_makeDirectories (fun q way => ?_) made)
  exact stage.there_of_keep (way.trans (o ++ p).parent_above)

/-- A page that does not fit is refused. -/
theorem writePage_error (stage : Stage keep t o ws s) (other : ¬Fits ws p) (page : String) :
    ∃ cause, writePage s.files (o ++ p) page = .error cause := by
  rw [writePage]
  by_cases clear : ∀ q : Path, q.names <+: (o ++ p).parent.names → s.files.isFile q = false
  · obtain ⟨u, made, directories⟩ := FileTree.ensureDirectory_ok (stage.rootedAlong p).parent clear
    have there : contents ws p = some .directory := by
      by_contra free
      refine other ⟨free, fun q way bytes file => ?_⟩
      have named : p.names ≠ [] := by
        intro none
        exact free (Path.eq_of_names_eq_nil none ▸ stage.fit.root)
      have blocked := clear (o ++ q) (by
        rw [Path.parent_append o named]
        exact (List.prefix_append_right_inj _).mpr way)
      rw [FileTree.isFile, stage.view, file] at blocked
      contradiction
    have there' : u.get? (o ++ p) = some .directory := by
      rw [directories, stage.view, there, ite_self]
    rw [made]
    dsimp only
    rw [FileTree.write_error there']
    exact ⟨_, rfl⟩
  · simp only [not_forall, Bool.not_eq_false] at clear
    obtain ⟨q, way, file⟩ := clear
    obtain ⟨refusal, refused⟩ :=
      FileTree.ensureDirectory_error (stage.rootedAlong p).parent way file
    rw [refused]
    exact ⟨_, rfl⟩

end Stage

/-! ## the output directory anew -/

section

variable {keep : Path → Bool} {s s' : Session}

/-- A run can begin: the package is apart from the output directory, what stands on the way to a
path of the output directory stands in directories, and the log file is a file, and none of the
package. -/
structure Ready (keep : Path → Bool) (o : Path) (s : Session) : Prop where
  apart : ∀ q, keep q = true → q.isWithin o = false
  above : ∀ q : Path, q.names <+: o.names → keep q = true → FileTree.isFixed q = true
  rooted : ∀ p, s.files.RootedAlong (o ++ p)
  log : ∀ f ∈ s.logFile, keep f.path = false ∧ s.files.isFile f.path = true

/-- An output directory that can be emptied or made: it has a name, and there is no file in its
place or on the way. -/
def CanReset (o : Path) (t : FileTree) : Prop :=
  o.names ≠ [] ∧ ∀ q : Path, q.names <+: o.names → t.isFile q = false

theorem canReset_note (r : Log.Record) (s : Session) :
    CanReset o (s.note r).files ↔ CanReset o s.files := by
  rcases note_files r s with same | ⟨f, -, bytes, same⟩
  · rw [same]
  · simp only [CanReset, same, FileTree.isFile_append]

/-- What is left when the output directory has been removed. -/
structure Cleared (keep : Path → Bool) (o : Path) (s s' : Session) : Prop where
  same : FileTree.SameOn keep s'.files s.files
  rooted : s'.files.RootedAlong o
  clear : ∀ q : Path, q.names <+: o.names → s'.files.isFile q = false
  below : ∀ q : Path, q.names ≠ [] → s'.files.get? (o ++ q) = none
  log : ∀ f ∈ s'.logFile, keep f.path = false ∧ f.path.isWithin o = false

namespace Ready

theorem note (ready : Ready keep o s) (r : Log.Record) : Ready keep o (s.note r) := by
  rcases note_files r s with same | ⟨f, -, bytes, same⟩
  · exact { ready with
      rooted := by rw [same]; exact ready.rooted
      log := by rw [same]; exact ready.log }
  · refine { ready with rooted := fun p => ?_, log := fun g is => ?_ }
    · rw [same]
      exact (ready.rooted p).append f.path bytes
    · obtain ⟨other, file⟩ := ready.log g is
      rw [same]
      exact ⟨other, by rw [FileTree.isFile_append, file]⟩

theorem sameOn_note (ready : Ready keep o s) (r : Log.Record) :
    FileTree.SameOn keep (s.note r).files s.files := by
  rcases note_files r s with same | ⟨f, is, bytes, same⟩
  · rw [same]
    exact FileTree.SameOn.refl _ _
  · rw [same]
    exact FileTree.sameOn_append (ready.log f is).1 bytes

theorem rootedAlong (ready : Ready keep o s) : s.files.RootedAlong o :=
  fun q way => ready.rooted ⟨[]⟩ q (way.trans (List.prefix_append _ _))

theorem cleared_of_free (ready : Ready keep o s) (can : CanReset o s.files)
    (free : s.files.get? o = none) : Cleared keep o s s := by
  refine ⟨FileTree.SameOn.refl _ _, ready.rootedAlong, can.2,
    fun q _ => (ready.rooted q).none_below free, fun f is => ⟨(ready.log f is).1, ?_⟩⟩
  rw [Bool.eq_false_iff]
  intro within
  have file := (ready.log f is).2
  rw [← append_relativeTo within, FileTree.isFile,
    (ready.rooted (f.path.relativeTo o)).none_below free] at file
  contradiction

theorem cleared_of_directory (ready : Ready keep o s) (can : CanReset o s.files)
    (there : s.files.get? o = some .directory) : Cleared keep o s (s.remove o) := by
  have outside (q : Path) (higher : q.names <+: o.parent.names) :
      (s.files.remove o).get? q = some .directory := by
    have holder : s.files.get? q = some .directory :=
      ready.rootedAlong.directories there (higher.trans o.parent_above)
    have other : q.isWithin o = false := by
      rw [Bool.eq_false_iff, ne_eq, Path.isWithin_iff]
      exact fun within => Path.not_prefix_parent can.1 (within.1.trans higher)
    cases fixed : FileTree.isFixed q with
    | true => exact FileTree.get?_of_isFixed _ fixed
    | false =>
      rw [FileTree.get?_remove s.files o fixed, other, holder]
      rfl
  refine ⟨FileTree.sameOn_remove ready.apart s.files, fun q way _ => ?_, fun q way => ?_,
    fun q below => ?_, fun f is => ?_⟩
  · refine outside _ ?_
    rcases (Path.prefix_iff can.1).mp way with rfl | higher
    · exact List.prefix_refl _
    · exact q.parent_above.trans higher
  · show (s.files.remove o).isFile q = false
    rcases (Path.prefix_iff can.1).mp way with rfl | higher
    · cases fixed : FileTree.isFixed q with
      | true => exact FileTree.isFile_of_directory (FileTree.get?_of_isFixed _ fixed)
      | false => rw [FileTree.isFile, FileTree.get?_remove s.files q fixed, Path.isWithin_self]; rfl
    · exact FileTree.isFile_of_directory (outside q higher)
  · obtain ⟨n, ns, is⟩ := List.exists_cons_of_ne_nil can.1
    obtain ⟨m, ms, is'⟩ := List.exists_cons_of_ne_nil below
    have free : FileTree.isFixed (o ++ q) = false := by
      rw [FileTree.isFixed, Path.names_append, is, is']
      simp
    show (s.files.remove o).get? (o ++ q) = _
    rw [FileTree.get?_remove s.files o free, if_pos (Path.isWithin_append can.1 q)]
  · obtain ⟨was, outside⟩ := Option.mem_filter_iff.mp is
    rw [Bool.not_eq_true'] at outside
    exact ⟨(ready.log f was).1, outside⟩

theorem stage {u : FileTree} (ready : Ready keep o s) (named : o.names ≠ [])
    (cleared : Cleared keep o s s') (made : s'.files.ensureDirectory o = .ok u)
    (directories : s'.files.DirectoriesAt o u) :
    Stage keep s.files o [] { s' with files := u } := by
  have there (q : Path) (way : q.names <+: o.names) (kept : keep q = true) :
      s'.files.get? q ≠ none := by
    rw [FileTree.get?_of_isFixed _ (ready.above q way kept)]
    exact Option.some_ne_none _
  refine ⟨named, ready.apart, (FileTree.sameOn_makeDirectories there made).trans cleared.same,
    fun q way => ?_, fun q => ?_, AllFit.nil, cleared.log⟩
  · show u.get? q = _
    rw [directories, if_pos way]
  · show u.get? (o ++ q) = _
    rw [directories, contents_nil]
    by_cases none : q.names = []
    · rw [Path.append_eq_self o none, if_pos (List.prefix_refl _), if_pos none]
    · rw [if_neg, if_neg none, cleared.below q none]
      intro way
      have := way.length_le
      have := List.length_pos_iff.mpr none
      rw [Path.names_append, List.length_append] at *
      omega

/-- The output directory can be emptied or made. -/
theorem reset_ok (ready : Ready keep o s) (can : CanReset o s.files) :
    ∃ s', reset o s = (s', .ok ()) ∧ Stage keep s.files o [] s' := by
  obtain ⟨s', done, cleared⟩ : ∃ s', clear o s = (s', .ok ()) ∧ Cleared keep o s s' := by
    rcases FileTree.get?_cases s.files o with free | file | there
    · exact ⟨s, by rw [clear, free], ready.cleared_of_free can free⟩
    · rw [can.2 o (List.prefix_refl _)] at file
      contradiction
    · refine ⟨s.remove o, ?_, ready.cleared_of_directory can there⟩
      have other : o.names.isEmpty = false := by simpa using can.1
      rw [clear, there]
      dsimp only
      rw [other, if_neg Bool.false_ne_true]
  obtain ⟨u, made, directories⟩ := FileTree.ensureDirectory_ok cleared.rooted cleared.clear
  exact ⟨_, by rw [reset, done]; dsimp only; rw [made], ready.stage can.1 cleared made directories⟩

/-- An output directory that cannot be emptied or made ends the run. -/
theorem reset_error (ready : Ready keep o s) (other : ¬CanReset o s.files) :
    ∃ s' cause, reset o s = (s', .error (.resetFailed o cause)) := by
  rcases FileTree.get?_cases s.files o with free | file | there
  · have named := FileTree.names_ne_nil_of_free free
    simp only [CanReset, named, ne_eq, not_false_eq_true, true_and, not_forall,
      Bool.not_eq_false] at other
    obtain ⟨q, way, file⟩ := other
    obtain ⟨refusal, refused⟩ := FileTree.ensureDirectory_error ready.rootedAlong way file
    exact ⟨s, _, by rw [reset, clear, free]; dsimp only; rw [refused]⟩
  · obtain ⟨bytes, there⟩ := FileTree.isFile_iff.mp file
    exact ⟨s, _, by rw [reset, clear, there]⟩
  · -- The one directory that cannot be removed is the working directory.
    have unnamed : o.names = [] := by
      by_contra named
      refine other ⟨named, fun q way => ?_⟩
      exact FileTree.isFile_of_directory (ready.rootedAlong.directories there way)
    exact ⟨s.remove o, _, by rw [reset, clear, there, unnamed]; rfl⟩

end Ready

end

end Docsite.Site
