import Docsite.Proofs.Site.Generate

/-!
# Docsite.Proofs.Site.Failures

Documents that fail, and what becomes of the others.

A run that keeps going leaves out the documents that have no page, and does with the others what it
would have done without them; a run that does not ends at the first of them (`generate_failures`).
-/

namespace Docsite.Site

open Files (Path FileTree Entry Bytes)

variable {tables : Tables} {t : FileTree} {js : List Job}

/-! ## leaving out documents that have no page -/

theorem pages_filter (drop : Path → Bool)
    (fail : ∀ j ∈ js, drop j.source = true → ∃ fault, draft tables t j = .error fault) :
    pages tables t (js.filter fun j => !drop j.source) = pages tables t js := by
  induction js with
  | nil => rfl
  | cons j js ih =>
    obtain ⟨own, fail⟩ := List.forall_mem_cons.mp fail
    cases dropped : drop j.source with
    | false =>
      rw [List.filter_cons_of_pos (by simp [dropped])]
      cases drafted : draft tables t j with
      | ok page => rw [pages_cons_ok drafted, pages_cons_ok drafted, ih fail]
      | error fault => rw [pages_cons_error drafted, pages_cons_error drafted, ih fail]
    | true =>
      obtain ⟨fault, failed⟩ := own dropped
      rw [List.filter_cons_of_neg (by simp [dropped]), ih fail, pages_cons_error failed]

theorem faults_filter (tables : Tables) (t : FileTree) (js : List Job) (drop : Path → Bool) :
    faults tables t (js.filter fun j => !drop j.source) =
      (faults tables t js).filter fun f => !drop f.1 := by
  induction js with
  | nil => rfl
  | cons j js ih =>
    cases dropped : drop j.source with
    | false =>
      rw [List.filter_cons_of_pos (by simp [dropped])]
      cases drafted : draft tables t j with
      | ok page => rw [faults_cons_ok drafted, faults_cons_ok drafted, ih]
      | error fault =>
        rw [faults_cons_error drafted, faults_cons_error drafted,
          List.filter_cons_of_pos (by simp [dropped]), ih]
    | true =>
      rw [List.filter_cons_of_neg (by simp [dropped]), ih]
      cases drafted : draft tables t j with
      | ok page => rw [faults_cons_ok drafted]
      | error fault =>
        rw [faults_cons_error drafted, List.filter_cons_of_neg (by simp [dropped])]

/-- What is written are the documents that have a page. -/
theorem map_pages (tables : Tables) (t : FileTree) (js : List Job) (o : Path) :
    (pages tables t js).map (o ++ ·.1) =
      (js.filter fun j => (draft tables t j).isOk).map (o ++ ·.output) := by
  induction js with
  | nil => rfl
  | cons j js ih =>
    cases drafted : draft tables t j with
    | ok page =>
      rw [pages_cons_ok drafted, List.filter_cons_of_pos (by rw [drafted]; rfl), List.map_cons,
        List.map_cons, ih]
    | error fault =>
      rw [pages_cons_error drafted,
        List.filter_cons_of_neg (by rw [drafted]; exact Bool.false_ne_true), ih]

/-- What is reported is a document that has no page. -/
theorem of_mem_faults {p : Path} (mem : p ∈ (faults tables t js).map Prod.fst) :
    ∃ j ∈ js, j.source = p ∧ ∃ fault, draft tables t j = .error fault := by
  obtain ⟨⟨q, fault⟩, is, rfl⟩ := List.mem_map.mp mem
  obtain ⟨j, mem', failed⟩ := List.mem_filterMap.mp is
  cases drafted : draft tables t j with
  | ok page =>
    rw [drafted] at failed
    contradiction
  | error fault' =>
    rw [drafted, Option.some.injEq, Prod.mk.injEq] at failed
    exact ⟨j, mem', failed.1, fault', drafted⟩

section

variable {source p : Path} {j : Job} {removed : List Path}
  (listed : ∀ p ∈ removed, p ∈ (faults tables t (jobs t source)).map Prod.fst)

include listed

/-- The documents that are reported are Markdown files below the package. -/
theorem within_of_listed (mem : p ∈ removed) :
    p.isWithin source = true ∧ p ≠ source ∧ hasEnding ".md" p = true := by
  obtain ⟨j, is, rfl, -⟩ := of_mem_faults (listed p mem)
  obtain ⟨within, other, -, ends⟩ := within_of_mem_jobs is
  exact ⟨within, other, ends⟩

/-- The documents that are reported have no page. -/
theorem fault_of_listed (mem : j ∈ jobs t source) (dropped : removed.contains j.source = true) :
    ∃ fault, draft tables t j = .error fault := by
  obtain ⟨k, mem', same, failed⟩ := of_mem_faults (listed j.source (by simpa using dropped))
  rwa [eq_of_source_eq mem mem' same.symm]

/-- No image is reported. -/
theorem not_listed_of_image (ends : hasEnding ".png" p = true) : p ∉ removed := by
  intro mem
  have markdown := (within_of_listed listed mem).2.2
  rw [not_markdown_of_image ends] at markdown
  contradiction

end

/-! ## the two runs -/

variable {r : Request} {s s' : Session}

theorem CanReset.without {o : Path} (can : CanReset o t) (removed : List Path) :
    CanReset o (t.without removed) := by
  refine ⟨can.1, fun q way => ?_⟩
  rw [Bool.eq_false_iff]
  intro file
  have file := FileTree.isFile_of_without file
  rw [can.2 q way] at file
  contradiction

/-- A run without some of the documents that have no page. -/
theorem Apart.generate_without {ws' : List (Path × Bytes)} {removed : List Path}
    (apart : Apart r s) (there : s.files.isDirectory r.source = true)
    (can : CanReset r.output s.files) (keeps : r.keepGoing = true)
    (fit : AllFit (pages r.tables s.files (jobs s.files r.source)))
    (copied : copies s.files (pages r.tables s.files (jobs s.files r.source))
      (images s.files r.source) = some ws')
    (listed : ∀ p ∈ removed,
      p ∈ (faults r.tables s.files (jobs s.files r.source)).map Prod.fst) :
    ∃ s', generate r { s with files := s.files.without removed } = (s', .ok {
        written := (pages r.tables s.files (jobs s.files r.source)).map (r.output ++ ·.1)
        copied := (images s.files r.source).map fun p => r.output.child p.name
        failures := (faults r.tables s.files (jobs s.files r.source)).filter
          fun f => !removed.contains f.1 }) ∧
      ∀ p, s'.files.get? (r.output ++ p) = contents ws' p := by
  have ready := apart.ready_without can.1 fun p mem => by
    obtain ⟨j, is, same, -⟩ := of_mem_faults (listed p mem)
    exact ⟨j, is, same⟩
  have there' : (s.files.without removed).isDirectory r.source = true := by
    have other : r.source ∉ removed := fun mem => (within_of_listed listed mem).2.1 rfl
    rwa [FileTree.isDirectory, FileTree.get?_without (.inl other)]
  obtain ⟨s₁, run, stage⟩ := ready.generate_eq (can.without removed) there'
  have stage := stage.rebase ((FileTree.sameOn_without s.files removed).weaken fun q kept =>
    ((Bool.and_eq_true _ _).mp kept).2)
  rw [jobs_without] at run
  have pngs (p : Path) (image : IsImage r.source p) :
      (inPackage r s p && !removed.contains p) = true := by
    rw [apart.image image, Bool.true_and, Bool.not_eq_true', ← Bool.not_eq_true,
      List.contains_iff_mem]
    exact not_listed_of_image listed image.ends
  have kept (j : Job)
      (mem : j ∈ (jobs s.files r.source).filter fun j => !removed.contains j.source) :
      (inPackage r s j.source && !removed.contains j.source) = true ∧
        s.files.get? j.source ≠ none := by
    obtain ⟨mem, other⟩ := List.mem_filter.mp mem
    exact ⟨by rw [apart.document mem, other]; rfl, (within_of_mem_jobs mem).2.2.1⟩
  have same := pages_filter removed.contains fun j => fault_of_listed listed (j := j)
  obtain ⟨s₂, done, last⟩ := stage.finish_convertAll kept pngs (.inl keeps)
    (by rw [same]; exact fit) (by rw [same]; exact copied)
  refine ⟨s₂, ?_, last.view⟩
  rw [run, done, same, faults_filter]

/-- **A document that fails does not affect the others.**  All writes succeeding, a run that keeps
going reports just the documents that have no page, in order, and writes the others; without some of
those documents it writes and copies the same, to the same effect.  A run that does not keep going
ends with the fault of the first of them, with the pages of those before it written and nothing
else. -/
theorem generate_failures (r : Request) (s : Session) (apart : Apart r s)
    (there : s.files.isDirectory r.source = true) (succeed : WritesSucceed (generate r s).2) :
    (r.keepGoing = true →
      ∃ s' report, generate r s = (s', .ok report) ∧
        report.failures = faults r.tables s.files (jobs s.files r.source) ∧
        report.written = ((jobs s.files r.source).filter fun j =>
          (draft r.tables s.files j).isOk).map (r.output ++ ·.output) ∧
        ∀ removed : List Path, (∀ p ∈ removed, p ∈ report.failures.map Prod.fst) →
          ∃ s'' report', generate r { s with files := s.files.without removed } =
              (s'', .ok report') ∧
            report'.failures = report.failures.filter (fun f => !removed.contains f.1) ∧
            report'.written = report.written ∧ report'.copied = report.copied ∧
            ∀ p, s''.files.get? (r.output ++ p) = s'.files.get? (r.output ++ p)) ∧
    (r.keepGoing = false →
      ∀ before j after fault, jobs s.files r.source = before ++ j :: after →
        (∀ k ∈ before, ∃ page, draft r.tables s.files k = .ok page) →
        draft r.tables s.files j = .error fault →
        ∃ s', generate r s = (s', .error fault) ∧
          ∀ p, s'.files.get? (r.output ++ p) =
            contents (pages r.tables s.files before) p) := by
  have kept (j : Job) (mem : j ∈ jobs s.files r.source) :
      inPackage r s j.source = true ∧ s.files.get? j.source ≠ none :=
    ⟨apart.document mem, (within_of_mem_jobs mem).2.2.1⟩
  obtain ⟨can, s₁, run, stage⟩ := apart.begun there fun cause failed => by
    rw [failed] at succeed
    exact succeed rfl
  rw [run] at succeed ⊢
  have converts := writesSucceed_of_finish succeed
  constructor
  · intro keeps
    have fit : AllFit (pages r.tables s.files (jobs s.files r.source)) := by
      refine stage.allFit_of_writesSucceed [] {} kept (.inl keeps) ?_
      rw [List.append_nil]
      exact converts
    obtain ⟨ws', copied⟩ := stage.copies_of_writesSucceed kept (fun _ => apart.image)
      (.inl keeps) fit succeed
    obtain ⟨s₂, done, last⟩ := stage.finish_convertAll kept (fun _ => apart.image)
      (.inl keeps) fit copied
    refine ⟨s₂, _, done, rfl, map_pages _ _ _ _, fun removed listed => ?_⟩
    obtain ⟨s₃, done', view⟩ := apart.generate_without there can keeps fit copied listed
    exact ⟨s₃, _, done', rfl, rfl, rfl, fun p => by rw [view, last.view]⟩
  · intro strict before j after fault is good failed
    -- The documents before `j` are a run that meets no fault, so it is the same however faults
    -- are treated.
    rw [is] at kept converts ⊢
    have clean := faults_eq_nil.mpr good
    have fit := stage.allFit_of_writesSucceed _ _ (fun k mem => kept k (List.mem_append_left _ mem))
      (.inr clean) converts
    obtain ⟨s₂, run', next⟩ := stage.convertAll (j :: after) {}
      (fun k mem => kept k (List.mem_append_left _ mem)) fit (.inr clean)
    obtain ⟨own, there⟩ := kept j (by simp)
    obtain ⟨s₃, failed', last⟩ := next.convert_error own there failed
    refine ⟨s₃, ?_, last.view⟩
    rw [run', convertAll, failed']
    dsimp only
    rw [strict, if_neg Bool.false_ne_true, finish]

/-- A package with a document that is no text between two that are documents, and an image. -/
def undecodable : Session where
  files := ⟨[
    (⟨["pkg"]⟩, .directory),
    (⟨["pkg", "README.md"]⟩, .file (Files.Utf8.encode "# A".toList)),
    (⟨["pkg", "bad.md"]⟩, .file [0x23, 0xFF]),
    (⟨["pkg", "c.md"]⟩, .file (Files.Utf8.encode "# C".toList)),
    (⟨["pkg", "logo.png"]⟩, .file [0x89, 0x50])]⟩

/-- A request for the site of that package. -/
def undecodableRequest (keepGoing : Bool) : Request where
  output := ⟨["site"]⟩
  source := ⟨["pkg"]⟩
  keepGoing := keepGoing

/-- Going on, the document is reported and the others are as if it were not there; else it ends the
run, and the document behind it is not written. -/
theorem generate_failures_undecodable :
    let fault : Fault := .unreadable ⟨["pkg", "bad.md"]⟩ (.decoding ⟨0xFF, 1, 1, .invalidStart⟩)
    (∃ s report, generate (undecodableRequest true) undecodable = (s, .ok report) ∧
      report.failures = [(⟨["pkg", "bad.md"]⟩, fault)] ∧
      report.written = [⟨["site", "index.md"]⟩, ⟨["site", "c.md"]⟩] ∧
      ∃ s' report', generate (undecodableRequest true)
          { undecodable with files := undecodable.files.without [⟨["pkg", "bad.md"]⟩] } =
            (s', .ok report') ∧
        report'.failures = [] ∧ report'.written = report.written ∧
        report'.copied = report.copied ∧
        ∀ p, s'.files.get? (⟨["site"]⟩ ++ p) = s.files.get? (⟨["site"]⟩ ++ p)) ∧
    ∃ s, generate (undecodableRequest false) undecodable = (s, .error fault) ∧
      s.files.get? ⟨["site", "index.md"]⟩ = some (.file (Files.Utf8.encode
        "---\ntitle: A\nsidebar_label: A\n---\n\n# A\n".toList)) ∧
      s.files.get? ⟨["site", "c.md"]⟩ = none := by
  intro fault
  have documents : jobs undecodable.files ⟨["pkg"]⟩ =
      [⟨⟨["pkg", "README.md"]⟩, ⟨["index.md"]⟩, .root⟩, ⟨⟨["pkg", "bad.md"]⟩, ⟨["bad.md"]⟩, .root⟩,
        ⟨⟨["pkg", "c.md"]⟩, ⟨["c.md"]⟩, .root⟩] := by
    simp only [jobs, rootJobs, docsJobs, ruleJobs, FileTree.list, FileTree.listAll,
      Path.mergeSort_eq_insertionSort]
    decide +kernel
  have apart (keepGoing : Bool) : Apart (undecodableRequest keepGoing) undecodable :=
    ⟨by cases keepGoing <;> decide, by cases keepGoing <;> decide,
      fun f named => absurd named (Option.not_mem_none f), rooted_of_entries (by decide +kernel)⟩
  have succeed (keepGoing : Bool) :
      WritesSucceed (generate (undecodableRequest keepGoing) undecodable).2 := by
    have result : (generate (undecodableRequest keepGoing) undecodable).2 =
        if keepGoing then .ok {
          written := [⟨["site", "index.md"]⟩, ⟨["site", "c.md"]⟩]
          copied := [⟨["site", "logo.png"]⟩]
          failures := [(⟨["pkg", "bad.md"]⟩, fault)] }
        else .error fault := by
      simp only [generate, jobs, rootJobs, docsJobs, ruleJobs, images, FileTree.list,
        FileTree.listAll, Path.mergeSort_eq_insertionSort]
      cases keepGoing <;> decide +kernel
    rw [result]
    cases keepGoing <;> simp [WritesSucceed, fault, Fault.faultClass]
  constructor
  · obtain ⟨s, report, done, failures, written, without⟩ :=
      (generate_failures _ undecodable (apart true) rfl (succeed true)).1 rfl
    have failed : report.failures = [(⟨["pkg", "bad.md"]⟩, fault)] := by
      rw [failures, show (undecodableRequest true).source = ⟨["pkg"]⟩ from rfl, documents]
      decide +kernel
    have wrote : report.written = [⟨["site", "index.md"]⟩, ⟨["site", "c.md"]⟩] := by
      rw [written, show (undecodableRequest true).source = ⟨["pkg"]⟩ from rfl, documents]
      decide +kernel
    obtain ⟨s', report', done', failures', same⟩ :=
      without [⟨["pkg", "bad.md"]⟩] (by rw [failed]; decide)
    refine ⟨s, report, done, failed, wrote, s', report', done', ?_, same⟩
    rw [failures', failed]
    decide
  · have good : ∀ k ∈ [(⟨⟨["pkg", "README.md"]⟩, ⟨["index.md"]⟩, .root⟩ : Job)],
        ∃ page, draft {} undecodable.files k = .ok page := by
      rw [← faults_eq_nil]
      decide +kernel
    obtain ⟨s, done, view⟩ :=
      (generate_failures _ undecodable (apart false) rfl (succeed false)).2 rfl [_] _ [_] fault
        documents good (by decide +kernel)
    refine ⟨s, done, (view ⟨["index.md"]⟩).trans ?_, (view ⟨["c.md"]⟩).trans ?_⟩ <;>
      decide +kernel

end Docsite.Site
