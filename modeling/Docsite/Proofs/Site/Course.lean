import Docsite.Proofs.Site.Generate

/-!
# Docsite.Proofs.Site.Course

The course that a run takes.

A run goes through stages: the package is looked for, the output directory is made anew, the
documents are converted one after the other, the images are copied.  `Course` says what happens at
each of them, and in what the run then ends, without the program's loops.  A run takes the course
that `Course` allows, and there is no other (`course_iff`).
-/

namespace Docsite.Site

open Files (Path FileTree)

/-! ## the stages -/

/-- Documents are attempted in order.  Each is converted and written, or, if the run is to keep
going, it is among the failures and the next one is turned to. -/
inductive Attempted (r : Request) : List Job → Session → List (Path × Fault) → Session → Prop
  | nil (s : Session) : Attempted r [] s [] s
  | converted {j : Job} {js : List Job} {s s₁ s' : Session} {destination : Path}
      {failures : List (Path × Fault)} :
      convert r j s = (s₁, .ok destination) →
      Attempted r js s₁ failures s' →
      Attempted r (j :: js) s failures s'
  | skipped {j : Job} {js : List Job} {s s₁ s' : Session} {fault : Fault}
      {failures : List (Path × Fault)} :
      r.keepGoing = true →
      convert r j s = (s₁, .error fault) →
      Attempted r js
        (s₁.note ⟨.error, .generator, "Skipping " ++ j.source.toString ++ ": " ++ fault.message⟩)
        failures s' →
      Attempted r (j :: js) s ((j.source, fault) :: failures) s'

/-- Images are copied in order, all of them. -/
inductive Copied (o : Path) : List Path → Session → Session → Prop
  | nil (s : Session) : Copied o [] s s
  | cons {p : Path} {ps : List Path} {s s' : Session} {files : FileTree} :
      copyFile s.files p (o.child p.name) = .ok files →
      Copied o ps
        (({ s with files := files } : Session).note ⟨.debug, .generator,
          "Copied asset: " ++ p.toString ++ " -> " ++ (o.child p.name).toString⟩) s' →
      Copied o (p :: ps) s s'

/-- The package is there, and the output directory has been made anew. -/
structure Begun (r : Request) (s s' : Session) : Prop where
  source : s.files.isDirectory r.source = true
  output : reset r.output (s.note (startRecord r (jobs s.files r.source))) = (s', .ok ())

/-- The stages of a run, and what it ends in: the fault that stops it, or the failures that it has
kept. -/
inductive Course (r : Request) (s : Session) : Except Fault (List (Path × Fault)) → Prop
  | sourceMissing :
      s.files.isDirectory r.source = false →
      Course r s (.error (.sourceMissing r.source))
  | resetFailed {s₁ : Session} {fault : Fault} :
      s.files.isDirectory r.source = true →
      reset r.output (s.note (startRecord r (jobs s.files r.source))) = (s₁, .error fault) →
      Course r s (.error fault)
  | documentFailed {s₁ s₂ s₃ : Session} {before after : List Job} {j : Job} {fault : Fault} :
      Begun r s s₁ →
      r.keepGoing = false →
      jobs s.files r.source = before ++ j :: after →
      Attempted r before s₁ [] s₂ →
      convert r j s₂ = (s₃, .error fault) →
      Course r s (.error fault)
  | copyFailed {s₁ s₂ s₃ : Session} {failures : List (Path × Fault)} {before after : List Path}
      {p : Path} {cause : Cause} :
      Begun r s s₁ →
      Attempted r (jobs s.files r.source) s₁ failures s₂ →
      images s₂.files r.source = before ++ p :: after →
      Copied r.output before s₂ s₃ →
      copyFile s₃.files p (r.output.child p.name) = .error cause →
      Course r s (.error (.copyFailed p (r.output.child p.name) cause))
  | finished {s₁ s₂ s₃ : Session} {failures : List (Path × Fault)} :
      Begun r s s₁ →
      Attempted r (jobs s.files r.source) s₁ failures s₂ →
      Copied r.output (images s₂.files r.source) s₂ s₃ →
      Course r s (.ok failures)

variable {r : Request} {s s' : Session} {js : List Job} {o : Path} {ps : List Path}
  {failures : List (Path × Fault)} {outcome : Except Fault (List (Path × Fault))}

/-- Only a run that is to keep going has failures. -/
theorem Attempted.keepGoing (attempted : Attempted r js s failures s') (some : failures ≠ []) :
    r.keepGoing = true := by
  induction attempted with
  | nil => contradiction
  | converted _ _ ih => exact ih some
  | skipped keeps => exact keeps

/-! ## the stages lead the run -/

/-- Documents that are attempted are converted before the others. -/
theorem Attempted.convertAll (attempted : Attempted r js s failures s') (rest : List Job)
    (report : Report) :
    ∃ report', convertAll r (js ++ rest) report s = convertAll r rest report' s' ∧
      report'.failures = report.failures ++ failures := by
  induction attempted generalizing report with
  | nil => exact ⟨report, rfl, (List.append_nil _).symm⟩
  | converted done _ ih =>
    rw [List.cons_append, Site.convertAll, done]
    exact ih _
  | @skipped j _ _ _ _ fault _ keeps failed _ ih =>
    obtain ⟨report', run, kept⟩ :=
      ih { report with failures := report.failures ++ [(j.source, fault)] }
    refine ⟨report', ?_, ?_⟩
    · rw [List.cons_append, Site.convertAll, failed]
      dsimp only
      rw [if_pos keeps, run]
    · rw [kept, List.append_assoc]
      rfl

/-- Images that are copied are copied before the others. -/
theorem Copied.copyImages (copied : Copied o ps s s') (rest done : List Path) :
    ∃ done', copyImages o (ps ++ rest) done s = copyImages o rest done' s' := by
  induction copied generalizing done with
  | nil => exact ⟨done, rfl⟩
  | cons copied _ ih =>
    obtain ⟨done', run⟩ := ih (done ++ [_])
    refine ⟨done', ?_⟩
    rw [List.cons_append, Site.copyImages]
    dsimp only
    rw [copied]
    exact run

/-- A run ends in what its course ends in. -/
theorem Course.generate (course : Course r s outcome) :
    (generate r s).2.map Report.failures = outcome := by
  cases course with
  | sourceMissing missing =>
    rw [Site.generate, missing]
    rfl
  | resetFailed there failed =>
    rw [generate_reset_error there failed]
    rfl
  | @documentFailed s₁ s₂ s₃ before after j fault begun strict documents attempted failed =>
    obtain ⟨report, run, -⟩ := attempted.convertAll (j :: after) {}
    rw [generate_eq begun.source begun.output, documents, run, convertAll, failed]
    dsimp only
    rw [strict, if_neg Bool.false_ne_true, finish]
    rfl
  | @copyFailed s₁ s₂ s₃ failures before after p cause begun attempted listed copied failed =>
    obtain ⟨report, run, -⟩ := attempted.convertAll [] {}
    obtain ⟨done, stops⟩ := copied.copyImages (p :: after) []
    rw [List.append_nil, convertAll] at run
    rw [copyImages] at stops
    dsimp only at stops
    rw [failed] at stops
    rw [generate_eq begun.source begun.output, run, finish, listed, stops]
    rfl
  | finished begun attempted copied =>
    obtain ⟨report, run, kept⟩ := attempted.convertAll [] {}
    obtain ⟨done, ends⟩ := copied.copyImages [] []
    rw [List.append_nil, convertAll] at run
    rw [List.append_nil, copyImages] at ends
    rw [generate_eq begun.source begun.output, run, finish, ends]
    exact congrArg Except.ok kept

/-! ## the run goes through the stages -/

/-- The documents are all attempted, or the run is stopped by one of them. -/
theorem attempted_or_stopped (r : Request) (js : List Job) (s : Session) :
    (∃ failures s', Attempted r js s failures s') ∨
      r.keepGoing = false ∧ ∃ before j after s₁ s₂ fault, js = before ++ j :: after ∧
        Attempted r before s [] s₁ ∧ convert r j s₁ = (s₂, .error fault) := by
  induction js generalizing s with
  | nil => exact .inl ⟨[], s, .nil s⟩
  | cons j js ih =>
    rcases turn : convert r j s with ⟨s₁, result⟩
    cases result with
    | ok destination =>
      obtain ⟨failures, s', attempted⟩ | ⟨strict, before, k, after, s₂, s₃, fault, is, attempted,
        failed⟩ := ih s₁
      · exact .inl ⟨failures, s', .converted turn attempted⟩
      · exact .inr ⟨strict, j :: before, k, after, s₂, s₃, fault, by rw [is]; rfl,
          .converted turn attempted, failed⟩
    | error fault =>
      cases keeps : r.keepGoing with
      | false => exact .inr ⟨rfl, [], j, js, s, s₁, fault, rfl, .nil _, turn⟩
      | true =>
        obtain ⟨failures, s', attempted⟩ | ⟨strict, -⟩ := ih (s₁.note
          ⟨.error, .generator, "Skipping " ++ j.source.toString ++ ": " ++ fault.message⟩)
        · exact .inl ⟨_, s', .skipped keeps turn attempted⟩
        · rw [keeps] at strict
          contradiction

/-- The images are all copied, or the run is stopped by one of them. -/
theorem copied_or_stopped (o : Path) (ps : List Path) (s : Session) :
    (∃ s', Copied o ps s s') ∨
      ∃ before p after s₁ cause, ps = before ++ p :: after ∧ Copied o before s s₁ ∧
        copyFile s₁.files p (o.child p.name) = .error cause := by
  induction ps generalizing s with
  | nil => exact .inl ⟨s, .nil s⟩
  | cons p ps ih =>
    cases turn : copyFile s.files p (o.child p.name) with
    | error cause => exact .inr ⟨[], p, ps, s, cause, rfl, .nil _, turn⟩
    | ok files =>
      obtain ⟨s', copied⟩ | ⟨before, q, after, s₁, cause, is, copied, failed⟩ := ih
        (({ s with files := files } : Session).note ⟨.debug, .generator,
          "Copied asset: " ++ p.toString ++ " -> " ++ (o.child p.name).toString⟩)
      · exact .inl ⟨s', .cons turn copied⟩
      · exact .inr ⟨p :: before, q, after, s₁, cause, by rw [is]; rfl, .cons turn copied, failed⟩

/-- Every run has a course. -/
theorem exists_course (r : Request) (s : Session) : ∃ outcome, Course r s outcome := by
  cases there : s.files.isDirectory r.source with
  | false => exact ⟨_, .sourceMissing there⟩
  | true =>
    rcases output : reset r.output (s.note (startRecord r (jobs s.files r.source)))
      with ⟨s₁, result⟩
    cases result with
    | error fault => exact ⟨_, .resetFailed there output⟩
    | ok =>
      have begun : Begun r s s₁ := ⟨there, output⟩
      obtain ⟨failures, s₂, attempted⟩ | ⟨strict, before, j, after, s₂, s₃, fault, documents,
        attempted, failed⟩ := attempted_or_stopped r (jobs s.files r.source) s₁
      · obtain ⟨s₃, copied⟩ | ⟨before, p, after, s₃, cause, listed, copied, failed⟩ :=
          copied_or_stopped r.output (images s₂.files r.source) s₂
        · exact ⟨_, .finished begun attempted copied⟩
        · exact ⟨_, .copyFailed begun attempted listed copied failed⟩
      · exact ⟨_, .documentFailed begun strict documents attempted failed⟩

/-- A run takes its one course. -/
theorem course_iff : Course r s outcome ↔ (generate r s).2.map Report.failures = outcome := by
  constructor
  · exact Course.generate
  · rintro rfl
    obtain ⟨outcome, course⟩ := exists_course r s
    rw [course.generate]
    exact course

/-- Only a run that is to keep going ends with failures. -/
theorem Course.keepGoing (course : Course r s (.ok failures)) (some : failures ≠ []) :
    r.keepGoing = true := by
  cases course with
  | finished _ attempted _ => exact attempted.keepGoing some

end Docsite.Site
