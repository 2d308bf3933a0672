import Docsite.Proofs.Site.Generate

/-!
# Docsite.Proofs.Site.Sources

What a run leaves alone.

A run empties the output directory, writes into it, makes the directories that lead there, and adds
to the log file; it does nothing else to the file system.  So paths at which something stands, none
of them in the output directory and none the log file, are left alone by every step of a run, also
by one that fails (`LeavesAlone`).  What is a source of the run makes no difference: the content of
the output directory is removed, whether or not it belongs to the package.
-/

namespace Docsite.Site

open Files (Path FileTree Entry Bytes)

variable {keep : Path → Bool} {t u : FileTree} {o p : Path} {s s' : Session} {r : Request}

/-- The paths of a class are as they were in `t`; something stands at each of them, none is in the
output directory, and none is the log file. -/
structure LeavesAlone (keep : Path → Bool) (t : FileTree) (o : Path) (s : Session) : Prop where
  same : FileTree.SameOn keep s.files t
  there : ∀ q, keep q = true → t.get? q ≠ none
  outside : ∀ q, keep q = true → q.isWithin o = false
  log : ∀ f ∈ s.logFile, keep f.path = false

namespace LeavesAlone

/-- A step that changes nothing at the paths and logs to the same file. -/
theorem step (alone : LeavesAlone keep t o s) (same : FileTree.SameOn keep u s.files) :
    LeavesAlone keep t o { s with files := u } :=
  { alone with same := same.trans alone.same }

theorem there_now (alone : LeavesAlone keep t o s) {q : Path} (kept : keep q = true) :
    s.files.get? q ≠ none := by
  rw [alone.same.get? kept]
  exact alone.there q kept

/-- A place in the output directory is none of the paths. -/
theorem output (alone : LeavesAlone keep t o s) (within : p.isWithin o = true) :
    keep p = false := by
  rw [Bool.eq_false_iff]
  intro kept
  rw [alone.outside p kept] at within
  contradiction

theorem note (alone : LeavesAlone keep t o s) (record : Log.Record) :
    LeavesAlone keep t o (s.note record) := by
  refine { alone with same := ?_ }
  rcases note_files record s with same | ⟨f, is, bytes, same⟩
  · rw [same]
    exact alone.same
  · rw [same]
    exact (FileTree.sameOn_append (alone.log f is) bytes).trans alone.same

theorem noteAll (alone : LeavesAlone keep t o s) (records : List Log.Record) :
    LeavesAlone keep t o (s.noteAll records) := by
  induction records generalizing s with
  | nil => exact alone
  | cons record records ih => exact ih (alone.note record)

/-! ## the documents -/

theorem ensureDirectory (alone : LeavesAlone keep t o s)
    (made : s.files.ensureDirectory p = .ok u) : FileTree.SameOn keep u s.files :=
  FileTree.sameOn_makeDirectories (fun _ _ kept => alone.there_now kept) made

theorem writePage (alone : LeavesAlone keep t o s) (within : p.isWithin o = true) {page : String}
    (written : Site.writePage s.files p page = .ok u) : FileTree.SameOn keep u s.files := by
  obtain ⟨v, made, file⟩ := write_of_writePage written
  exact (FileTree.sameOn_write (alone.output within) file).trans (alone.ensureDirectory made)

theorem convert (alone : LeavesAlone keep t r.output s) (named : r.output.names ≠ []) (j : Job) :
    LeavesAlone keep t r.output (Site.convert r j s).1 := by
  rw [Site.convert]
  cases readSource s.files j.source with
  | error cause => exact alone
  | ok text =>
    dsimp only
    generalize convertSource r.tables j text = page
    have noted := alone.noteAll page.log
    cases page.result with
    | error fault => exact noted
    | ok page =>
      dsimp only
      split
      · exact noted
      · next written =>
        exact (noted.step (noted.writePage (Path.isWithin_append named _) written)).note _

theorem convertAll (alone : LeavesAlone keep t r.output s) (named : r.output.names ≠ [])
    (js : List Job) (report : Report) :
    LeavesAlone keep t r.output (Site.convertAll r js report s).1 := by
  induction js generalizing report s with
  | nil => exact alone
  | cons j js ih =>
    have next := alone.convert named j
    rw [Site.convertAll]
    split
    · next converted =>
      rw [converted] at next
      exact ih next _
    · next converted =>
      rw [converted] at next
      split
      · exact ih (next.note _) _
      · exact next

/-! ## the output directory -/

theorem clear (alone : LeavesAlone keep t o s) : LeavesAlone keep t o (Site.clear o s).1 := by
  rw [Site.clear]
  split
  · exact alone
  · exact alone
  · refine { alone with same := ?_, log := fun f is => ?_ }
    · exact (FileTree.sameOn_remove alone.outside s.files).trans alone.same
    · exact alone.log f (Option.mem_filter_iff.mp is).1

theorem reset (alone : LeavesAlone keep t o s) : LeavesAlone keep t o (Site.reset o s).1 := by
  have cleared := alone.clear
  rw [Site.reset]
  split
  · next failed =>
    rw [failed] at cleared
    exact cleared
  · next done =>
    rw [done] at cleared
    split
    · exact cleared
    · next made => exact cleared.step (cleared.ensureDirectory made)

/-! ## the images -/

theorem copyFile (alone : LeavesAlone keep t o s) {image destination : Path}
    (within : destination.isWithin o = true)
    (inside : (destination.child image.name).isWithin o = true)
    (copied : Site.copyFile s.files image destination = .ok u) :
    FileTree.SameOn keep u s.files := by
  rw [Site.copyFile] at copied
  split at copied
  · contradiction
  · split at copied
    · contradiction
    · next v written =>
      obtain rfl := Except.ok.inj copied
      refine FileTree.sameOn_write (alone.output ?_) written
      split
      · exact inside
      · exact within

theorem copyImages (alone : LeavesAlone keep t o s) (named : o.names ≠ [])
    (ps copied : List Path) : LeavesAlone keep t o (Site.copyImages o ps copied s).1 := by
  induction ps generalizing copied s with
  | nil => exact alone
  | cons p ps ih =>
    rw [Site.copyImages]
    dsimp only
    split
    · exact alone
    · next done =>
      have within : (o.child p.name).isWithin o = true := Path.isWithin_append named ⟨[p.name]⟩
      have inside : ((o.child p.name).child p.name).isWithin o = true :=
        isWithin_trans (Path.isWithin_append (by simp [Path.child]) ⟨[p.name]⟩) within
      exact ih ((alone.step (alone.copyFile within inside done)).note _) _

/-! ## a run -/

end LeavesAlone

/-- The working directory is not made anew. -/
theorem names_ne_nil_of_reset (done : reset o s = (s', .ok ())) : o.names ≠ [] := by
  intro unnamed
  have there : s.files.get? o = some .directory :=
    FileTree.get?_of_isFixed _ (by rw [FileTree.isFixed, unnamed]; rfl)
  rw [reset, clear, there, unnamed] at done
  cases done

/-- A run leaves the paths alone, whether it ends with a report or with a fault. -/
theorem LeavesAlone.generate (alone : LeavesAlone keep t r.output s) :
    LeavesAlone keep t r.output (Site.generate r s).1 := by
  rw [Site.generate]
  split
  · exact alone
  · have emptied := (alone.note (startRecord r (jobs s.files r.source))).reset
    dsimp only
    split
    · next failed =>
      rw [failed] at emptied
      exact emptied
    · next s₁ done =>
      rw [done] at emptied
      have named := names_ne_nil_of_reset done
      have converted := emptied.convertAll named (jobs s.files r.source) {}
      split
      · next failed =>
        rw [failed] at converted
        exact converted
      · next s₂ report done =>
        rw [done] at converted
        have copied := converted.copyImages named (images s₂.files r.source) []
        split
        · next failed =>
          rw [failed] at copied
          exact copied
        · next done =>
          rw [done] at copied
          exact copied.note _

end Docsite.Site
