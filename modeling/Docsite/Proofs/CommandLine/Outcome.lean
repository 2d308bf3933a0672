import Docsite.CommandLine.Run
import Docsite.Proofs.Site.Course
import Mathlib.Order.Bounds.Basic

/-!
# Docsite.Proofs.CommandLine.Outcome

What a run tells its caller.

The program runs with the log file that is asked for, or stops because it cannot be opened; what a
run then ends in is up to its course.  Faults reach the caller by two routes: the one that stops the
run, and those that the run has kept.  Either way the exit code tells, and the program says that it
has succeeded just when every stage has (`run_outcome`).
-/

namespace Docsite.CommandLine

open Files (Path FileTree)
open Site (Session Report Attempted Copied Begun jobs images)

variable {a : Arguments} {w : Surroundings} {t : FileTree} {s : Session} {report : Report}
  {fault : Fault} {failures : List (Path × Fault)} {outcome : Except Fault (List (Path × Fault))}

/-! ## exit codes -/

/-- No fault passes for success. -/
theorem exitCode_ne_zero (fault : Fault) : fault.exitCode ≠ 0 := by
  rw [Fault.exitCode]
  cases fault.faultClass <;> decide

/-- The exit code for failures is the greatest of theirs. -/
theorem isGreatest_exitCode (some : failures ≠ []) :
    IsGreatest {code | ∃ failure ∈ failures, failure.2.exitCode = code}
      ((failures.map fun (_, fault) => fault.exitCode).foldl max 0) := by
  obtain ⟨failure, rest, rfl⟩ := List.exists_cons_of_ne_nil some
  have greatest : ((failure :: rest).map fun (_, fault) => fault.exitCode).max? =
      .some ((rest.map fun (_, fault) => fault.exitCode).foldl max failure.2.exitCode) :=
    List.max?_cons'
  rw [List.map_cons, List.foldl_cons, Nat.zero_max]
  obtain ⟨mem, above⟩ := List.max?_eq_some_iff.mp greatest
  exact ⟨List.mem_map.mp mem, fun code is => above code (List.mem_map.mpr is)⟩

/-! ## the course of a run -/

/-- The site that the arguments ask for. -/
def request (a : Arguments) : Site.Request where
  output := .ofString a.outputDir
  source := .ofString a.source
  keepGoing := a.keepGoing

/-- No log file is asked for, or it is opened and the session logs to it. -/
inductive LogOpened (a : Arguments) (w : Surroundings) (t : FileTree) : Session → Prop
  | unasked :
      (∀ name ∈ a.logFile, name = "") →
      LogOpened a w t { files := t }
  | opened {name : String} {files : FileTree} :
      name ∈ a.logFile →
      name ≠ "" →
      t.openForAppend (.ofString name) = .ok files →
      LogOpened a w t
        (({ files := files, logFile := some ⟨.ofString name, layout a w, leastLevel a⟩ } :
          Session).note ⟨.debug, .commandLine, "Logging to file: " ++ name⟩)

/-- The stages of a run with the arguments, and what it ends in. -/
inductive Course (a : Arguments) (w : Surroundings) (t : FileTree) :
    Except Fault (List (Path × Fault)) → Prop
  | logRefused {name : String} {refusal : FileRefusal} :
      name ∈ a.logFile →
      name ≠ "" →
      t.openForAppend (.ofString name) = .error refusal →
      Course a w t
        (.error (.logFile name (.onPath refusal (absolute w (.ofString name)))))
  | begun {s : Session} {outcome : Except Fault (List (Path × Fault))} :
      LogOpened a w t s →
      Site.Course (request a) s outcome →
      Course a w t outcome

/-- Every stage succeeds: the log file, if one is asked for, is opened, the source is a directory,
the output directory is made anew, every document is converted and written, and every image is
copied. -/
def Succeeds (a : Arguments) (w : Surroundings) (t : FileTree) : Prop :=
  ∃ s s₁ s₂ s₃, LogOpened a w t s ∧ Begun (request a) s s₁ ∧
    Attempted (request a) (jobs s.files (request a).source) s₁ [] s₂ ∧
    Copied (request a).output (images s₂.files (request a).source) s₂ s₃

theorem succeeds_iff : Succeeds a w t ↔ Course a w t (.ok []) := by
  constructor
  · rintro ⟨s, s₁, s₂, s₃, opened, begun, attempted, copied⟩
    exact .begun opened (.finished begun attempted copied)
  · intro course
    cases course with
    | begun opened course =>
      cases course with
      | finished begun attempted copied =>
        exact ⟨_, _, _, _, opened, begun, attempted, copied⟩

/-- Only a run that is to keep going ends with failures. -/
theorem Course.keepGoing (course : Course a w t (.ok failures)) (some : failures ≠ []) :
    a.keepGoing = true := by
  cases course with
  | begun _ course => exact course.keepGoing some

theorem start_of_named {name : String} (asked : a.logFile = some name) (named : name ≠ "") :
    start a w t =
      match t.openForAppend (.ofString name) with
      | .error refusal =>
        ({ files := t }, .error (.logFile name (.onPath refusal (absolute w (.ofString name)))))
      | .ok files =>
        ((({ files := files, logFile := some ⟨.ofString name, layout a w, leastLevel a⟩ } :
          Session).note ⟨.debug, .commandLine, "Logging to file: " ++ name⟩), .ok ()) := by
  rw [start, asked]
  split
  · contradiction
  · next is => exact absurd (Option.some.inj is) named
  · next is =>
    obtain rfl := Option.some.inj is
    rfl

theorem LogOpened.start (opened : LogOpened a w t s) : start a w t = (s, .ok ()) := by
  cases opened with
  | unasked none =>
    rw [CommandLine.start]
    split
    · rfl
    · rfl
    · next name named asked => exact absurd (none name asked) named
  | opened asked named opened =>
    rw [start_of_named asked named, opened]

/-- A run ends in what its course ends in. -/
theorem Course.perform (course : Course a w t outcome) :
    (perform a w t).2.map Report.failures = outcome := by
  cases course with
  | logRefused asked named refused =>
    rw [CommandLine.perform, start_of_named asked named, refused]
    rfl
  | begun opened course =>
    rw [CommandLine.perform, opened.start]
    exact course.generate

/-- Every run has a course. -/
theorem exists_course (a : Arguments) (w : Surroundings) (t : FileTree) :
    ∃ outcome, Course a w t outcome := by
  have runs {s : Session} (opened : LogOpened a w t s) : ∃ outcome, Course a w t outcome := by
    obtain ⟨outcome, course⟩ := Site.exists_course (request a) s
    exact ⟨outcome, .begun opened course⟩
  by_cases unasked : ∀ name ∈ a.logFile, name = ""
  · exact runs (.unasked unasked)
  · push Not at unasked
    obtain ⟨name, asked, named⟩ := unasked
    cases opened : t.openForAppend (.ofString name) with
    | error refusal => exact ⟨_, .logRefused asked named opened⟩
    | ok files => exact runs (.opened asked named opened)

/-- A run takes its one course. -/
theorem course_iff : Course a w t outcome ↔ (perform a w t).2.map Report.failures = outcome := by
  constructor
  · exact Course.perform
  · rintro rfl
    obtain ⟨outcome, course⟩ := exists_course a w t
    rw [course.perform]
    exact course

/-! ## what the caller is told -/

/-- A run that is stopped by a fault. -/
theorem conclude_of_stopped (course : Course a w t (.error fault)) :
    (conclude a w t).exitCode = fault.exitCode ∧ (conclude a w t).stdout = "" := by
  have ends := course.perform
  rw [conclude]
  split
  · next stopped =>
    rw [stopped] at ends
    obtain rfl := Except.error.inj ends
    exact ⟨rfl, rfl⟩
  · next done =>
    rw [done] at ends
    contradiction

/-- A run that comes to its end with failures. -/
theorem conclude_of_failures (course : Course a w t (.ok failures)) (some : failures ≠ []) :
    IsGreatest {code | ∃ failure ∈ failures, failure.2.exitCode = code}
      (conclude a w t).exitCode ∧ (conclude a w t).stdout = "" := by
  have ends := course.perform
  rw [conclude]
  split
  · next stopped =>
    rw [stopped] at ends
    contradiction
  · next done =>
    rw [done] at ends
    obtain rfl := Except.ok.inj ends
    rw [Report.summary?, List.isEmpty_eq_false_iff.mpr some]
    exact ⟨isGreatest_exitCode some, rfl⟩

/-- A run that comes to its end without any. -/
theorem conclude_of_success (course : Course a w t (.ok [])) :
    (conclude a w t).exitCode = 0 ∧ (conclude a w t).stdout = successMessage ++ "\n" := by
  have ends := course.perform
  rw [conclude]
  split
  · next stopped =>
    rw [stopped] at ends
    contradiction
  · next done =>
    rw [done] at ends
    have none : _ = [] := Except.ok.inj ends
    rw [Report.summary?, none]
    exact ⟨rfl, rfl⟩

/-- **Success is told just when every stage has succeeded.**  If so, the exit code is zero and the
success message is printed.  If not, nothing is printed to the standard output, and the exit code,
which is not zero, is that of the fault that stopped the run, or, the run keeping going and nothing
else having failed, the greatest of those of the documents that failed. -/
theorem run_outcome (args : List String) (a : Arguments) (w : Surroundings) (t : FileTree)
    (accepted : read args = .run a) :
    ((run args w t).exitCode = 0 ∧ (run args w t).stdout = successMessage ++ "\n" ↔
      Succeeds a w t) ∧
    (¬Succeeds a w t →
      (run args w t).exitCode ≠ 0 ∧ (run args w t).stdout = "" ∧
      ((∃ fault, Course a w t (.error fault) ∧ (run args w t).exitCode = fault.exitCode) ∨
        (a.keepGoing = true ∧ ∃ failures, failures ≠ [] ∧ Course a w t (.ok failures) ∧
          IsGreatest {code | ∃ failure ∈ failures, failure.2.exitCode = code}
            (run args w t).exitCode))) := by
  have concludes : run args w t = conclude a w t := by rw [run, accepted]
  rw [concludes]
  have stopped : ¬Succeeds a w t →
      (conclude a w t).exitCode ≠ 0 ∧ (conclude a w t).stdout = "" ∧
      ((∃ fault, Course a w t (.error fault) ∧ (conclude a w t).exitCode = fault.exitCode) ∨
        (a.keepGoing = true ∧ ∃ failures, failures ≠ [] ∧ Course a w t (.ok failures) ∧
          IsGreatest {code | ∃ failure ∈ failures, failure.2.exitCode = code}
            (conclude a w t).exitCode)) := by
    intro fails
    obtain ⟨outcome, course⟩ := exists_course a w t
    cases outcome with
    | error fault =>
      obtain ⟨code, out⟩ := conclude_of_stopped course
      exact ⟨by rw [code]; exact exitCode_ne_zero fault, out, .inl ⟨fault, course, code⟩⟩
    | ok failures =>
      have some : failures ≠ [] := by
        rintro rfl
        exact fails (succeeds_iff.mpr course)
      obtain ⟨greatest, out⟩ := conclude_of_failures course some
      have positive : (conclude a w t).exitCode ≠ 0 := by
        obtain ⟨failure, -, same⟩ := greatest.1
        rw [← same]
        exact exitCode_ne_zero failure.2
      exact ⟨positive, out, .inr ⟨course.keepGoing some, failures, some, course, greatest⟩⟩
  refine ⟨⟨fun told => ?_, fun succeeds => conclude_of_success (succeeds_iff.mp succeeds)⟩, stopped⟩
  by_contra fails
  exact (stopped fails).1 told.1

/-- A package with a document that has a title and one that has none. -/
def untitled : FileTree := ⟨[
  (⟨["pkg"]⟩, .directory),
  (⟨["pkg", "a.md"]⟩, .file (Files.Utf8.encode "# A\n".toList)),
  (⟨["pkg", "b.md"]⟩, .file (Files.Utf8.encode "B\n".toList))]⟩

/-- Keeping going, the run comes to its end with a failure, and the exit code is that of the
document without a title; where there is no such document, the same command line succeeds. -/
theorem run_outcome_untitled :
    let args := ["site", "--source", "pkg", "--keep-going"]
    let a : Arguments := { outputDir := "site", source := "pkg", keepGoing := true }
    let w : Surroundings := { workingDirectory := "/", time := "" }
    read args = .run a ∧
      (¬Succeeds a w untitled ∧ (run args w untitled).exitCode = 6 ∧
        ∃ failures, Course a w untitled (.ok failures) ∧
          IsGreatest {code | ∃ failure ∈ failures, failure.2.exitCode = code} 6) ∧
      Succeeds a w (untitled.without [⟨["pkg", "b.md"]⟩]) := by
  intro args a w
  have accepted : read args = .run a := by
    simp [args, a, read, words?, word?, flagNames, Progress.read, List.lookup_cons, Flag.takesValue,
      Progress.takePlain, Progress.takeFlag, Progress.takeValue?, Progress.finish]
  have ended : (perform a w untitled).2.isOk = true ∧ (conclude a w untitled).exitCode = 6 ∧
      (conclude a w (untitled.without [⟨["pkg", "b.md"]⟩])).exitCode = 0 := by
    simp only [conclude, perform, start, Site.generate, jobs, Site.rootJobs, Site.docsJobs,
      Site.ruleJobs, images, FileTree.list, FileTree.listAll, Path.mergeSort_eq_insertionSort]
    decide +kernel
  have concludes (t : FileTree) : run args w t = conclude a w t := by rw [run, accepted]
  rw [← concludes, ← concludes] at ended
  obtain ⟨isOk, code, code'⟩ := ended
  obtain ⟨succeeds, fails⟩ := run_outcome args a w untitled accepted
  have failed : ¬Succeeds a w untitled := by
    intro all
    have zero := (succeeds.mpr all).1
    rw [code] at zero
    contradiction
  have all : Succeeds a w (untitled.without [⟨["pkg", "b.md"]⟩]) := by
    by_contra fails'
    exact ((run_outcome args a w _ accepted).2 fails').1 code'
  refine ⟨accepted, ⟨failed, code, ?_⟩, all⟩
  obtain ⟨-, -, ⟨fault, course, -⟩ | ⟨-, failures, -, course, greatest⟩⟩ := fails failed
  · have ends := course.perform
    cases result : (perform a w untitled).2 with
    | error fault =>
      rw [result] at isOk
      contradiction
    | ok report =>
      rw [result] at ends
      contradiction
  · rw [code] at greatest
    exact ⟨failures, course, greatest⟩

end Docsite.CommandLine
