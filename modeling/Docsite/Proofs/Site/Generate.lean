import Docsite.Proofs.Site.Package

/-!
# Docsite.Proofs.Site.Generate

A whole run, put together from its parts.

What a run relies on is that the package and the output directory are apart (`Apart`).  It then ends
at once if the output directory cannot be emptied (`Ready.generate_error`), and else goes on from an
empty one (`Ready.generate_eq`); where all pages fit and all images can be copied, it ends with both
in place (`Stage.finish_convertAll`).
-/

namespace Docsite.Site

open Files (Path FileTree Entry Bytes)

variable {r : Request} {s s' : Session} {t : FileTree} {keep : Path → Bool}
  {removed : List Path} {ws ws' : List (Path × Bytes)}

/-- Neither the package nor the output directory holds the other, the log file is a file, but no
document and no image, and what stands in the file system stands in directories. -/
structure Apart (r : Request) (s : Session) : Prop where
  source : r.source.isWithin r.output = false
  output : r.output.isWithin r.source = false
  log : ∀ f ∈ s.logFile, s.files.isFile f.path = true ∧
    (∀ j ∈ jobs s.files r.source, j.source ≠ f.path) ∧ f.path ∉ images s.files r.source
  rooted : ∀ p, s.files.get? p ≠ none → s.files.get? p.parent = some .directory

/-- It is enough to look at the entries. -/
theorem rooted_of_entries
    (all : ∀ q ∈ t.entries.map Prod.fst, t.get? q.parent = some .directory) (p : Path)
    (there : t.get? p ≠ none) : t.get? p.parent = some .directory := by
  cases fixed : FileTree.isFixed p with
  | true =>
    refine FileTree.get?_of_isFixed t ?_
    rw [FileTree.isFixed, Bool.or_eq_true, beq_iff_eq, beq_iff_eq] at fixed
    rcases fixed with is | is <;> rw [FileTree.isFixed, Path.parent, is] <;> rfl
  | false => exact all p (mem_entries_of_has (Option.isSome_iff_ne_none.mpr there) fixed)

/-- Is the path one of the package, and left as it is?  The log file is not, wherever it stands. -/
def inPackage (r : Request) (s : Session) (p : Path) : Bool :=
  p.isWithin r.source && !s.logFile.any (·.path == p)

theorem inPackage_iff {p : Path} : inPackage r s p = true ↔
    p.isWithin r.source = true ∧ ∀ f ∈ s.logFile, f.path ≠ p := by
  cases is : s.logFile <;> simp [inPackage, is]

theorem inPackage_of_log {f : LogFile} (is : f ∈ s.logFile) : inPackage r s f.path = false := by
  rw [Bool.eq_false_iff, ne_eq, inPackage_iff]
  exact fun kept => kept.2 f is rfl

namespace Apart

/-- Nothing of the package is in the output directory. -/
theorem outside {p : Path} (apart : Apart r s) (within : p.isWithin r.source = true) :
    p.isWithin r.output = false := by
  rw [Bool.eq_false_iff]
  intro within'
  have source := apart.source
  have output := apart.output
  rw [Path.isWithin_iff] at within within'
  rw [Bool.eq_false_iff, ne_eq, Path.isWithin_iff] at source output
  rcases List.prefix_or_prefix_of_prefix within.1 within'.1 with h | h
  · exact output ⟨h, within'.2.symm.trans within.2⟩
  · exact source ⟨h, within.2.symm.trans within'.2⟩

/-- Nothing of the package is on the way to the output directory, but perhaps the working
directory. -/
theorem above {p : Path} (apart : Apart r s) (way : p.names <+: r.output.names)
    (within : p.isWithin r.source = true) : FileTree.isFixed p = true := by
  have output := apart.output
  rw [Path.isWithin_iff] at within
  rw [Bool.eq_false_iff, ne_eq, Path.isWithin_iff] at output
  by_cases named : p.names = []
  · rw [FileTree.isFixed, named]
    rfl
  · refine absurd ⟨within.1.trans way, ?_⟩ output
    rw [Path.isAbsolute_eq_of_above named way, within.2]

/-- A document stays as it is. -/
theorem document {j : Job} (apart : Apart r s) (mem : j ∈ jobs s.files r.source) :
    inPackage r s j.source = true :=
  inPackage_iff.mpr
    ⟨(within_of_mem_jobs mem).1, fun f is => ((apart.log f is).2.1 j mem).symm⟩

/-- An image stays as it is. -/
theorem image {p : Path} (apart : Apart r s) (image : IsImage r.source p) :
    inPackage r s p = true := by
  refine inPackage_iff.mpr ⟨image.within, ?_⟩
  rintro f is rfl
  obtain ⟨file, -, other⟩ := apart.log f is
  obtain ⟨bytes, there⟩ := FileTree.isFile_iff.mp file
  have free : FileTree.isFixed f.path = false :=
    FileTree.isFixed_of_get?_ne (t := s.files) (by rw [there]; simp)
  refine other (mem_images.mpr ⟨mem_entries_of_has ?_ free, image⟩)
  rw [FileTree.has, there]
  rfl

/-- A run can begin. -/
theorem ready (apart : Apart r s) : Ready (inPackage r s) r.output s where
  apart _ kept := apart.outside (inPackage_iff.mp kept).1
  above _ way kept := apart.above way (inPackage_iff.mp kept).1
  rooted _ q _ := apart.rooted q
  log f is := ⟨inPackage_of_log is, (apart.log f is).1⟩

/-- A run without some of the documents can begin. -/
theorem ready_without (apart : Apart r s) (named : r.output.names ≠ [])
    (documents : ∀ p ∈ removed, ∃ j ∈ jobs s.files r.source, j.source = p) :
    Ready (fun q => inPackage r s q && !removed.contains q) r.output
      { s with files := s.files.without removed } := by
  have inside (p : Path) (mem : p ∈ removed) : p.isWithin r.source = true := by
    obtain ⟨j, is, rfl⟩ := documents p mem
    exact (within_of_mem_jobs is).1
  have same (q p : Path) (way : q.names <+: (r.output ++ p).names) :
      (s.files.without removed).get? q = s.files.get? q := by
    refine FileTree.get?_without (or_iff_not_imp_left.mpr fun mem => ?_)
    have within := inside q (not_not.mp mem)
    rcases Path.prefix_append way with higher | ⟨x, rfl, -⟩
    · exact apart.above higher within
    · have outside := apart.outside within
      rw [Path.isWithin_append named] at outside
      contradiction
  refine ⟨fun q kept => ?_, fun q way kept => ?_, fun p q way there => ?_, fun f is => ?_⟩
  · rw [Bool.and_eq_true] at kept
    exact apart.ready.apart q kept.1
  · rw [Bool.and_eq_true] at kept
    exact apart.ready.above q way kept.1
  · show (s.files.without removed).get? q.parent = _
    rw [same _ p (q.parent_above.trans way)]
    refine apart.rooted q ?_
    rw [← same q p way]
    exact there
  · obtain ⟨file, document, -⟩ := apart.log f is
    have other : f.path ∉ removed := by
      intro mem
      obtain ⟨j, is, same⟩ := documents _ mem
      exact document j is same
    have outside : inPackage r s f.path = false := inPackage_of_log is
    refine ⟨by rw [outside, Bool.false_and], ?_⟩
    rw [FileTree.isFile, FileTree.get?_without (.inl other)]
    exact file

end Apart

/-! ## the parts of a run -/

/-- What is left to do when the documents have been converted. -/
def finish (r : Request) : Session × Except Fault Report → Session × Except Fault Report
  | (s, .error fault) => (s, .error fault)
  | (s, .ok report) =>
    match copyImages r.output (images s.files r.source) [] s with
    | (s, .error fault) => (s, .error fault)
    | (s, .ok copied) =>
      (s.note (endRecord { report with copied := copied }), .ok { report with copied := copied })

theorem generate_eq (there : s.files.isDirectory r.source = true)
    (done : reset r.output (s.note (startRecord r (jobs s.files r.source))) = (s', .ok ())) :
    generate r s = finish r (convertAll r (jobs s.files r.source) {} s') := by
  rw [generate, there]
  simp only [done, Bool.not_true, Bool.false_eq_true, if_false]
  generalize convertAll r (jobs s.files r.source) {} s' = converted
  obtain ⟨s₁, result⟩ := converted
  cases result <;> rfl

theorem generate_reset_error {fault : Fault} (there : s.files.isDirectory r.source = true)
    (failed : reset r.output (s.note (startRecord r (jobs s.files r.source))) =
      (s', .error fault)) :
    generate r s = (s', .error fault) := by
  rw [generate, there]
  simp only [failed, Bool.not_true, Bool.false_eq_true, if_false]

theorem Ready.generate_eq (ready : Ready keep r.output s) (can : CanReset r.output s.files)
    (there : s.files.isDirectory r.source = true) :
    ∃ s', generate r s = finish r (convertAll r (jobs s.files r.source) {} s') ∧
      Stage keep s.files r.output [] s' := by
  have can' := (canReset_note (startRecord r (jobs s.files r.source)) s).mpr can
  obtain ⟨s₁, done, stage⟩ := (ready.note _).reset_ok can'
  exact ⟨s₁, Site.generate_eq there done, stage.rebase (ready.sameOn_note _)⟩

theorem Ready.generate_error (ready : Ready keep r.output s) (cannot : ¬CanReset r.output s.files)
    (there : s.files.isDirectory r.source = true) :
    ∃ s' cause, generate r s = (s', .error (.resetFailed r.output cause)) := by
  have cannot' := mt (canReset_note (startRecord r (jobs s.files r.source)) s).mp cannot
  obtain ⟨s₁, cause, failed⟩ := (ready.note _).reset_error cannot'
  exact ⟨s₁, cause, generate_reset_error there failed⟩

/-- A run that does not end at once has an empty output directory to begin with. -/
theorem Apart.begun (apart : Apart r s) (there : s.files.isDirectory r.source = true)
    (begins : ∀ cause, (generate r s).2 ≠ .error (.resetFailed r.output cause)) :
    CanReset r.output s.files ∧
      ∃ s', generate r s = finish r (convertAll r (jobs s.files r.source) {} s') ∧
        Stage (inPackage r s) s.files r.output [] s' := by
  have can : CanReset r.output s.files := by
    by_contra cannot
    obtain ⟨s₁, cause, failed⟩ := apart.ready.generate_error cannot there
    exact begins cause (by rw [failed])
  exact ⟨can, apart.ready.generate_eq can there⟩

namespace Stage

/-- The images are copied if all of them can be. -/
theorem finish_ok (stage : Stage keep t r.output ws s) (report : Report)
    (kept : ∀ p, IsImage r.source p → keep p = true)
    (can : copies t ws (images t r.source) = some ws') :
    ∃ s', finish r (s, .ok report) = (s', .ok { report with
        copied := (images t r.source).map fun p => r.output.child p.name }) ∧
      Stage keep t r.output ws' s' := by
  have own (p : Path) (mem : p ∈ images t r.source) : keep p = true :=
    kept p (mem_images.mp mem).2
  obtain ⟨s₁, done, next⟩ := stage.copyImages_ok [] own can
  rw [finish, images_congr stage.same kept]
  simp only [done, List.nil_append]
  exact ⟨_, rfl, next.note _⟩

theorem finish_error (stage : Stage keep t r.output ws s) (report : Report)
    (kept : ∀ p, IsImage r.source p → keep p = true)
    (cannot : copies t ws (images t r.source) = none) :
    ∃ s' p d cause, finish r (s, .ok report) = (s', .error (.copyFailed p d cause)) := by
  have own (p : Path) (mem : p ∈ images t r.source) : keep p = true ∧ t.get? p ≠ none :=
    ⟨kept p (mem_images.mp mem).2, get?_of_mem_images mem⟩
  obtain ⟨s₁, p, d, cause, failed⟩ := stage.copyImages_error [] own cannot
  rw [finish, images_congr stage.same kept]
  simp only [failed]
  exact ⟨s₁, p, d, cause, rfl⟩

end Stage

theorem copyImages_fault {o : Path} {ps copied : List Path} {fault : Fault}
    (failed : copyImages o ps copied s = (s', .error fault)) : fault.faultClass = .outputWrite := by
  induction ps generalizing copied s with
  | nil => nomatch (Prod.mk.inj failed).2
  | cons p ps ih =>
    rw [copyImages] at failed
    dsimp only at failed
    split at failed
    · obtain rfl := Except.error.inj (Prod.mk.inj failed).2
      rfl
    · exact ih failed

theorem writesSucceed_of_finish {result : Session × Except Fault Report}
    (succeed : WritesSucceed (finish r result).2) : WritesSucceed result.2 := by
  obtain ⟨s, result⟩ := result
  cases result with
  | error fault => exact succeed
  | ok report =>
    rw [finish] at succeed
    split at succeed
    · next failed => exact absurd (copyImages_fault failed) succeed
    · exact succeed

/-- A run that has ended well has converted the documents. -/
theorem ok_of_finish {result : Session × Except Fault Report} {report : Report}
    (done : finish r result = (s', .ok report)) : ∃ s₁ report', result = (s₁, .ok report') := by
  obtain ⟨s₁, result⟩ := result
  cases result with
  | ok report' => exact ⟨s₁, report', rfl⟩
  | error fault => cases (Prod.mk.inj done).2

/-- If no write fails then all images can be copied. -/
theorem Stage.copies_of_writesSucceed {js : List Job} (stage : Stage keep t r.output [] s)
    (kept : ∀ j ∈ js, keep j.source = true ∧ t.get? j.source ≠ none)
    (pngs : ∀ p, IsImage r.source p → keep p = true)
    (going : r.keepGoing = true ∨ faults r.tables t js = [])
    (fit : AllFit (pages r.tables t js))
    (succeed : WritesSucceed (finish r (Site.convertAll r js {} s)).2) :
    ∃ ws', copies t (pages r.tables t js) (images t r.source) = some ws' := by
  obtain ⟨s₁, run, next⟩ := stage.convertAll [] {} kept fit going
  rw [List.append_nil, Site.convertAll] at run
  rw [run] at succeed
  rw [← Option.ne_none_iff_exists']
  intro cannot
  obtain ⟨s₂, p, d, cause, failed⟩ := next.finish_error (Report.extend {} r t js) pngs cannot
  rw [failed] at succeed
  exact succeed rfl

/-- A run from an empty output directory: the pages of the documents that have one, and behind them
the images. -/
theorem Stage.finish_convertAll {js : List Job} (stage : Stage keep t r.output [] s)
    (kept : ∀ j ∈ js, keep j.source = true ∧ t.get? j.source ≠ none)
    (pngs : ∀ p, IsImage r.source p → keep p = true)
    (going : r.keepGoing = true ∨ faults r.tables t js = [])
    (fit : AllFit (pages r.tables t js))
    (can : copies t (pages r.tables t js) (images t r.source) = some ws') :
    ∃ s', finish r (Site.convertAll r js {} s) = (s', .ok {
        written := (pages r.tables t js).map (r.output ++ ·.1)
        copied := (images t r.source).map fun p => r.output.child p.name
        failures := faults r.tables t js }) ∧
      Stage keep t r.output ws' s' := by
  obtain ⟨s₁, run, next⟩ := stage.convertAll [] {} kept fit going
  obtain ⟨s₂, done, last⟩ := next.finish_ok (Report.extend {} r t js) pngs can
  rw [List.append_nil, Site.convertAll] at run
  refine ⟨s₂, ?_, last⟩
  rw [run, done]
  simp [Report.extend]

end Docsite.Site
