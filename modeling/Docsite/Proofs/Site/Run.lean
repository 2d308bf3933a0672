import Docsite.Proofs.Conversion
import Docsite.Proofs.Files.Utf8
import Docsite.Proofs.Site.Contents

/-!
# Docsite.Proofs.Site.Run

A run over the documents and the images of a package, from stage to stage.

A document has a page or a fault, whatever became of the other documents (`draft`).  One document
takes a run to the next stage with its page, or leaves it where it is (`Stage.convert_ok`,
`Stage.convert_error`), so a run over documents ends with the pages of all that have one
(`Stage.convertAll`).  Images are copied behind them (`Stage.copyImages_ok`).  Pages are text again
for whoever reads them (`readSource_of_draft`).
-/

namespace Docsite.Site

open Files (Path FileTree Entry Bytes)

/-! ## what a run should do -/

/-- The page of a document of the package, or what is wrong with the document. -/
def draft (tables : Tables) (t : FileTree) (j : Job) : Except Fault String :=
  match readSource t j.source with
  | .error cause => .error (.unreadable j.source cause)
  | .ok text => (convertSource tables j text).result

/-- The pages of the documents that have one, with their places. -/
def pages (tables : Tables) (t : FileTree) (js : List Job) : List (Path × Bytes) :=
  js.filterMap fun j =>
    match draft tables t j with
    | .ok page => some (j.output, Files.Utf8.encode page.toList)
    | .error _ => none

/-- The documents that have no page, each with what is wrong with it. -/
def faults (tables : Tables) (t : FileTree) (js : List Job) : List (Path × Fault) :=
  js.filterMap fun j =>
    match draft tables t j with
    | .ok _ => none
    | .error fault => some (j.source, fault)

/-- A report with what a run over documents adds to it. -/
def Report.extend (report : Report) (r : Request) (t : FileTree) (js : List Job) : Report :=
  { report with
    written := report.written ++ (pages r.tables t js).map (r.output ++ ·.1)
    failures := report.failures ++ faults r.tables t js }

/-- Nothing in the result of a run is the fault of the output directory. -/
def WritesSucceed : Except Fault Report → Prop
  | .error fault => fault.faultClass ≠ .outputWrite
  | .ok report => ∀ f ∈ report.failures, f.2.faultClass ≠ .outputWrite

variable {tables : Tables} {t : FileTree} {j : Job} {js rest : List Job} {page : String}
  {fault : Fault}

/-- A document with a page can be read, and its text has the page. -/
theorem text_of_draft (drafted : draft tables t j = .ok page) :
    ∃ text, readSource t j.source = .ok text ∧
      (convertSource tables j text).result = .ok page := by
  rw [draft] at drafted
  cases readable : readSource t j.source with
  | error cause =>
    rw [readable] at drafted
    exact nomatch drafted
  | ok text =>
    rw [readable] at drafted
    exact ⟨text, rfl, drafted⟩

/-- A page that is written is read with line feeds for its line endings. -/
theorem readSource_of_writePage {u : FileTree} {p : Path} (written : writePage t p page = .ok u) :
    readSource u p = .ok (.ofList (Text.normalizeNewlines page.toList)) := by
  obtain ⟨v, -, file⟩ := write_of_writePage written
  simp only [readSource, FileTree.read_of_write file, Files.Utf8.decode_encode]

/-- **What is written is read.**  Where the page of a document is written, whatever stood there and
whatever characters are in it, the page is read back as it is: it has no line endings but line
feeds, and its bytes are the text again. -/
theorem readSource_of_draft {u v : FileTree} {p : Path} (drafted : draft tables t j = .ok page)
    (written : writePage u p page = .ok v) : readSource v p = .ok page := by
  obtain ⟨text, -, converted⟩ := text_of_draft drafted
  rw [readSource_of_writePage written,
    Text.normalizeNewlines_of_notMem (Conversion.return_notMem_run converted), String.ofList_toList]

/-- A document with a fault cannot be read, or its text has the fault. -/
theorem fault_of_draft (failed : draft tables t j = .error fault) :
    (∃ cause, readSource t j.source = .error cause ∧ fault = .unreadable j.source cause) ∨
      ∃ text, readSource t j.source = .ok text ∧
        (convertSource tables j text).result = .error fault := by
  rw [draft] at failed
  cases readable : readSource t j.source with
  | error cause =>
    rw [readable] at failed
    exact .inl ⟨cause, rfl, (Except.error.inj failed).symm⟩
  | ok text =>
    rw [readable] at failed
    exact .inr ⟨text, rfl, failed⟩

theorem pages_cons_ok (drafted : draft tables t j = .ok page) :
    pages tables t (j :: js) =
      (j.output, Files.Utf8.encode page.toList) :: pages tables t js := by
  rw [pages, List.filterMap_cons_some (by rw [drafted])]
  rfl

theorem pages_cons_error (failed : draft tables t j = .error fault) :
    pages tables t (j :: js) = pages tables t js := by
  rw [pages, List.filterMap_cons_none (by rw [failed])]
  rfl

theorem faults_cons_ok (drafted : draft tables t j = .ok page) :
    faults tables t (j :: js) = faults tables t js := by
  rw [faults, List.filterMap_cons_none (by rw [drafted])]
  rfl

theorem faults_cons_error (failed : draft tables t j = .error fault) :
    faults tables t (j :: js) = (j.source, fault) :: faults tables t js := by
  rw [faults, List.filterMap_cons_some (by rw [failed])]
  rfl

/-- Documents that all have a page. -/
theorem faults_eq_nil :
    faults tables t js = [] ↔ ∀ j ∈ js, ∃ page, draft tables t j = .ok page := by
  rw [faults, List.filterMap_eq_nil_iff]
  refine forall₂_congr fun j _ => ?_
  cases draft tables t j <;> simp

/-! ## one document -/

variable {keep : Path → Bool} {ws : List (Path × Bytes)} {r : Request} {report : Report}
  {s s' : Session}

namespace Stage

/-- A file of the package is read as it was. -/
theorem read {p : Path} (stage : Stage keep t o ws s) (kept : keep p = true)
    (there : t.get? p ≠ none) : s.files.read p = t.read p := by
  rw [FileTree.read, FileTree.read, stage.same.get? kept]
  split
  · rfl
  · rfl
  · next none => exact absurd none there

theorem readSource (stage : Stage keep t o ws s) (kept : keep j.source = true)
    (there : t.get? j.source ≠ none) :
    Site.readSource s.files j.source = Site.readSource t j.source := by
  rw [Site.readSource, stage.read kept there, Site.readSource]

theorem convert_error (stage : Stage keep t r.output ws s) (kept : keep j.source = true)
    (there : t.get? j.source ≠ none) (failed : draft r.tables t j = .error fault) :
    ∃ s', convert r j s = (s', .error fault) ∧ Stage keep t r.output ws s' := by
  rw [convert, stage.readSource kept there]
  obtain ⟨cause, unreadable, rfl⟩ | ⟨text, readable, failed⟩ := fault_of_draft failed
  · exact ⟨s, by rw [unreadable], stage⟩
  · refine ⟨_, ?_, stage.noteAll (convertSource r.tables j text).log⟩
    simp only [readable, failed]

theorem convert_ok (stage : Stage keep t r.output ws s) (kept : keep j.source = true)
    (there : t.get? j.source ≠ none) (drafted : draft r.tables t j = .ok page)
    (fits : Fits ws j.output) :
    ∃ s', convert r j s = (s', .ok (r.output ++ j.output)) ∧
      Stage keep t r.output (ws ++ [(j.output, Files.Utf8.encode page.toList)]) s' := by
  obtain ⟨text, readable, drafted⟩ := text_of_draft drafted
  obtain ⟨u, written, next⟩ :=
    (stage.noteAll (convertSource r.tables j text).log).writePage_ok fits page
  refine ⟨_, ?_, next.note ⟨.debug, .generator,
    "Wrote " ++ j.source.toString ++ " -> " ++ (r.output ++ j.output).toString⟩⟩
  rw [convert, stage.readSource kept there]
  simp only [readable, drafted, written]

theorem convert_refused (stage : Stage keep t r.output ws s) (kept : keep j.source = true)
    (there : t.get? j.source ≠ none) (drafted : draft r.tables t j = .ok page)
    (other : ¬Fits ws j.output) :
    ∃ s' cause, convert r j s = (s', .error (.writeFailed (r.output ++ j.output) cause)) := by
  obtain ⟨text, readable, drafted⟩ := text_of_draft drafted
  obtain ⟨cause, refused⟩ :=
    (stage.noteAll (convertSource r.tables j text).log).writePage_error other page
  refine ⟨s.noteAll (convertSource r.tables j text).log, cause, ?_⟩
  rw [convert, stage.readSource kept there]
  simp only [readable, drafted, refused]

/-! ## all documents -/

/-- A run over documents that fit ends with their pages, and the others are in the report. -/
theorem convertAll (stage : Stage keep t r.output ws s) (rest : List Job) (report : Report)
    (kept : ∀ j ∈ js, keep j.source = true ∧ t.get? j.source ≠ none)
    (fit : AllFit (ws ++ pages r.tables t js))
    (going : r.keepGoing = true ∨ faults r.tables t js = []) :
    ∃ s', Site.convertAll r (js ++ rest) report s =
        Site.convertAll r rest (report.extend r t js) s' ∧
      Stage keep t r.output (ws ++ pages r.tables t js) s' := by
  -- A fault leaves the run at its stage, a page takes it to the next one: in either case the
  -- other documents are a run of their own from there.
  induction js generalizing ws s report with
  | nil => exact ⟨s, by simp [Report.extend, pages, faults], by simpa [pages] using stage⟩
  | cons j js ih =>
    obtain ⟨⟨own, there⟩, kept⟩ := List.forall_mem_cons.mp kept
    cases drafted : draft r.tables t j with
    | error fault =>
      rw [pages_cons_error drafted] at fit ⊢
      rw [faults_cons_error drafted] at going
      have keeps : r.keepGoing = true := going.resolve_right (List.cons_ne_nil _ _)
      obtain ⟨s₁, failed, next⟩ := stage.convert_error own there drafted
      obtain ⟨s₂, run, last⟩ := ih (next.note _)
        { report with failures := report.failures ++ [(j.source, fault)] } kept fit (.inl keeps)
      refine ⟨s₂, ?_, last⟩
      rw [List.cons_append, Site.convertAll, failed]
      dsimp only
      rw [if_pos keeps, run]
      simp [Report.extend, pages_cons_error drafted, faults_cons_error drafted]
    | ok page =>
      rw [pages_cons_ok drafted] at fit ⊢
      rw [faults_cons_ok drafted] at going
      obtain ⟨s₁, written, next⟩ := stage.convert_ok own there drafted fit.fits
      obtain ⟨s₂, run, last⟩ := ih next
        { report with written := report.written ++ [r.output ++ j.output] } kept
        (by simpa using fit) going
      refine ⟨s₂, ?_, by simpa using last⟩
      rw [List.cons_append, Site.convertAll, written]
      dsimp only
      rw [run]
      simp [Report.extend, pages_cons_ok drafted, faults_cons_ok drafted]

end Stage

/-- A run that keeps going keeps the faults that are in the report. -/
theorem writesSucceed_report (report : Report) (keeps : r.keepGoing = true)
    (succeed : WritesSucceed (convertAll r js report s).2) :
    ∀ f ∈ report.failures, f.2.faultClass ≠ .outputWrite := by
  induction js generalizing report s with
  | nil => exact succeed
  | cons j js ih =>
    rw [convertAll] at succeed
    split at succeed
    · next s₁ p _ => exact ih { report with written := report.written ++ [p] } succeed
    · rw [if_pos keeps] at succeed
      exact fun f mem => ih _ succeed f (List.mem_append_left _ mem)

/-- A page that is refused shows in the result. -/
theorem not_writesSucceed_of_refused {cause : Cause} {p : Path}
    (refused : convert r j s = (s', .error (.writeFailed p cause))) :
    ¬WritesSucceed (convertAll r (j :: js) report s).2 := by
  rw [convertAll, refused]
  dsimp only
  split
  · next keeps =>
    intro succeed
    exact writesSucceed_report _ keeps succeed (j.source, .writeFailed p cause) (by simp) rfl
  · exact fun succeed => succeed rfl

namespace Stage

/-- If no page is refused then all of them fit. -/
theorem allFit_of_writesSucceed (stage : Stage keep t r.output ws s) (rest : List Job)
    (report : Report) (kept : ∀ j ∈ js, keep j.source = true ∧ t.get? j.source ≠ none)
    (going : r.keepGoing = true ∨ faults r.tables t js = [])
    (succeed : WritesSucceed (Site.convertAll r (js ++ rest) report s).2) :
    AllFit (ws ++ pages r.tables t js) := by
  induction js generalizing ws s report with
  | nil => simpa [pages] using stage.fit
  | cons j js ih =>
    obtain ⟨⟨own, there⟩, kept⟩ := List.forall_mem_cons.mp kept
    rw [List.cons_append] at succeed
    cases drafted : draft r.tables t j with
    | error fault =>
      rw [pages_cons_error drafted]
      rw [faults_cons_error drafted] at going
      have keeps : r.keepGoing = true := going.resolve_right (List.cons_ne_nil _ _)
      obtain ⟨s₁, failed, next⟩ := stage.convert_error own there drafted
      rw [Site.convertAll, failed] at succeed
      dsimp only at succeed
      rw [if_pos keeps] at succeed
      exact ih (next.note _) _ kept (.inl keeps) succeed
    | ok page =>
      rw [pages_cons_ok drafted]
      rw [faults_cons_ok drafted] at going
      by_cases fits : Fits ws j.output
      · obtain ⟨s₁, written, next⟩ := stage.convert_ok own there drafted fits
        rw [Site.convertAll, written] at succeed
        simpa using ih next _ kept going succeed
      · obtain ⟨s₁, cause, refused⟩ := stage.convert_refused own there drafted fits
        exact absurd succeed (not_writesSucceed_of_refused refused)

/-- A run that stops at the first fault and does not stop has written the pages of all documents. -/
theorem convertAll_strict {report' : Report} (stage : Stage keep t r.output ws s)
    (kept : ∀ j ∈ js, keep j.source = true ∧ t.get? j.source ≠ none)
    (strict : r.keepGoing = false)
    (done : Site.convertAll r js report s = (s', .ok report')) :
    (∀ j ∈ js, ∃ page, draft r.tables t j = .ok page) ∧ report' = report.extend r t js ∧
      Stage keep t r.output (ws ++ pages r.tables t js) s' := by
  induction js generalizing ws s report with
  | nil =>
    obtain ⟨rfl, same⟩ := Prod.mk.inj done
    obtain rfl := Except.ok.inj same
    exact ⟨by simp, by simp [Report.extend, pages, faults], by simpa [pages] using stage⟩
  | cons j js ih =>
    obtain ⟨⟨own, there⟩, kept⟩ := List.forall_mem_cons.mp kept
    rw [Site.convertAll] at done
    cases drafted : draft r.tables t j with
    | error fault =>
      obtain ⟨s₁, failed, -⟩ := stage.convert_error own there drafted
      rw [failed] at done
      dsimp only at done
      rw [strict, if_neg Bool.false_ne_true] at done
      nomatch (Prod.mk.inj done).2
    | ok page =>
      by_cases fits : Fits ws j.output
      · obtain ⟨s₁, written, next⟩ := stage.convert_ok own there drafted fits
        rw [written] at done
        obtain ⟨all, is, last⟩ := ih next kept done
        refine ⟨List.forall_mem_cons.mpr ⟨⟨page, drafted⟩, all⟩, ?_, ?_⟩
        · rw [is]
          simp [Report.extend, pages_cons_ok drafted, faults_cons_ok drafted]
        · simpa [pages_cons_ok drafted] using last
      · obtain ⟨s₁, cause, refused⟩ := stage.convert_refused own there drafted fits
        rw [refused] at done
        dsimp only at done
        rw [strict, if_neg Bool.false_ne_true] at done
        nomatch (Prod.mk.inj done).2

end Stage

/-! ## images -/

/-- Where an image goes: to the root of the site, or into a directory that has its name. -/
def imagePlace (ws : List (Path × Bytes)) (p : Path) : Path :=
  if contents ws ⟨[p.name]⟩ = some .directory then ⟨[p.name, p.name]⟩ else ⟨[p.name]⟩

/-- What has been written when images have been copied, if all of them can be. -/
def copies (t : FileTree) : List (Path × Bytes) → List Path → Option (List (Path × Bytes))
  | ws, [] => some ws
  | ws, p :: ps =>
    match t.get? p with
    | some (.file bytes) =>
      if contents ws (imagePlace ws p) = some .directory then none
      else copies t (ws ++ [(imagePlace ws p, bytes)]) ps
    | _ => none

variable {o p : Path} {ps copied : List Path} {bytes : Bytes} {ws' : List (Path × Bytes)}

theorem imagePlace_holder (all : AllFit ws) (p : Path) :
    contents ws (imagePlace ws p).parent = some .directory := by
  rw [imagePlace]
  split
  · next there => exact there
  · exact all.root

namespace Stage

theorem fits_of_holder (stage : Stage keep t o ws s)
    (holder : contents ws p.parent = some .directory)
    (free : contents ws p ≠ some .directory) : Fits ws p := by
  refine ⟨free, fun q way bytes file => ?_⟩
  rw [← stage.view] at holder file
  have way : (o ++ q).names <+: (o ++ p.parent).names :=
    (List.prefix_append_right_inj _).mpr way
  rw [(stage.rootedAlong _).directories holder way, Option.some.injEq] at file
  contradiction

theorem target_eq (stage : Stage keep t o ws s) (p : Path) :
    (if s.files.isDirectory (o.child p.name) then (o.child p.name).child p.name
      else o.child p.name) = o ++ imagePlace ws p := by
  have same : s.files.isDirectory (o.child p.name) =
      decide (contents ws ⟨[p.name]⟩ = some .directory) := by
    rw [Bool.eq_iff_iff, FileTree.isDirectory_iff, decide_eq_true_iff, ← stage.view]
    rfl
  rw [same, imagePlace]
  by_cases there : contents ws ⟨[p.name]⟩ = some .directory
  · rw [if_pos there, if_pos (by simpa using there)]
    exact congrArg Files.Path.mk (List.append_assoc _ _ _)
  · rw [if_neg there, if_neg (by simpa using there)]
    rfl

theorem copyFile_ok (stage : Stage keep t o ws s) (kept : keep p = true)
    (file : t.get? p = some (.file bytes))
    (free : contents ws (imagePlace ws p) ≠ some .directory) :
    ∃ u, copyFile s.files p (o.child p.name) = .ok u ∧
      Stage keep t o (ws ++ [(imagePlace ws p, bytes)]) { s with files := u } := by
  have fits := stage.fits_of_holder (imagePlace_holder stage.fit p) free
  have named := stage.fit.names_ne_nil fits
  have readable : s.files.read p = .ok bytes := by
    rw [stage.read kept (by rw [file]; exact Option.some_ne_none _), FileTree.read, file]
  have holder : s.files.get? (o ++ imagePlace ws p).parent = some .directory := by
    rw [Path.parent_append o named, stage.view]
    exact imagePlace_holder stage.fit p
  obtain ⟨written, at_⟩ := FileTree.write_ok (stage.rootedAlong (imagePlace ws p)) holder
    (by rw [stage.view]; exact free) bytes
  refine ⟨_, ?_, stage.wrote fits at_ (FileTree.sameOn_set (stage.outside _) _ _)⟩
  rw [copyFile, stage.target_eq]
  simp only [readable, written]

theorem copyFile_error (stage : Stage keep t o ws s) (kept : keep p = true)
    (there : t.get? p ≠ none)
    (other : t.isFile p = false ∨ contents ws (imagePlace ws p) = some .directory) :
    ∃ cause, copyFile s.files p (o.child p.name) = .error cause := by
  rw [copyFile, stage.target_eq, stage.read kept there, FileTree.read]
  rcases FileTree.get?_cases t p with none | file | directory
  · exact absurd none there
  · obtain ⟨bytes, is⟩ := FileTree.isFile_iff.mp file
    have taken : s.files.get? (o ++ imagePlace ws p) = some .directory := by
      rw [stage.view]
      exact other.resolve_left (by rw [file]; decide)
    simp only [is, FileTree.write_error taken]
    exact ⟨_, rfl⟩
  · simp only [directory]
    exact ⟨_, rfl⟩

/-- A run over images that can be copied ends with their copies. -/
theorem copyImages_ok (stage : Stage keep t o ws s) (copied : List Path)
    (kept : ∀ p ∈ ps, keep p = true) (can : copies t ws ps = some ws') :
    ∃ s', copyImages o ps copied s = (s', .ok (copied ++ ps.map fun p => o.child p.name)) ∧
      Stage keep t o ws' s' := by
  induction ps generalizing ws copied s with
  | nil =>
    obtain rfl := Option.some.inj can
    exact ⟨s, by simp [copyImages], stage⟩
  | cons p ps ih =>
    obtain ⟨own, kept⟩ := List.forall_mem_cons.mp kept
    rw [copies] at can
    split at can
    · next bytes file =>
      split at can
      · contradiction
      · next free =>
        obtain ⟨u, done, next⟩ := stage.copyFile_ok own file free
        obtain ⟨s₂, run, last⟩ := ih (next.note ⟨.debug, .generator,
            "Copied asset: " ++ p.toString ++ " -> " ++ (o.child p.name).toString⟩)
          (copied ++ [o.child p.name]) kept can
        refine ⟨s₂, ?_, last⟩
        rw [copyImages]
        simp only [done]
        rw [run]
        simp
    · contradiction

/-- A run over images that cannot all be copied ends with a fault of the output directory. -/
theorem copyImages_error (stage : Stage keep t o ws s) (copied : List Path)
    (kept : ∀ p ∈ ps, keep p = true ∧ t.get? p ≠ none) (cannot : copies t ws ps = none) :
    ∃ s' p d cause, copyImages o ps copied s = (s', .error (.copyFailed p d cause)) := by
  induction ps generalizing ws copied s with
  | nil => contradiction
  | cons p ps ih =>
    obtain ⟨⟨own, there⟩, kept⟩ := List.forall_mem_cons.mp kept
    rw [copyImages]
    by_cases can : t.isFile p = true ∧ contents ws (imagePlace ws p) ≠ some .directory
    · obtain ⟨bytes, file⟩ := FileTree.isFile_iff.mp can.1
      obtain ⟨u, done, next⟩ := stage.copyFile_ok own file can.2
      rw [copies, file] at cannot
      simp only [can.2, if_false] at cannot
      simp only [done]
      exact ih (next.note _) _ kept cannot
    · obtain ⟨cause, refused⟩ := stage.copyFile_error own there (by
        rw [not_and_or, Bool.not_eq_true, not_not] at can
        exact can)
      simp only [refused]
      exact ⟨s, p, _, cause, rfl⟩

end Stage

end Docsite.Site
