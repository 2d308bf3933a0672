import Docsite.Proofs.Site.Generate
import Docsite.Proofs.Site.Pages

/-!
# Docsite.Proofs.Site.Output

What the output directory holds when a run has ended well.

Of the documents that go to one page the last is the one that stays (`LastPage`), and the images are
beside the pages, since no page has the name of an image or stands below one (`generate_contents`).
-/

namespace Docsite.Site

open Files (Path FileTree Entry Bytes)

/-- The bytes are the page of the last document that goes to the place. -/
def LastPage (tables : Tables) (t : FileTree) (js : List Job) (p : Path) (bytes : Bytes) : Prop :=
  ∃ before j after page, js = before ++ j :: after ∧ j.output = p ∧
    (∀ k ∈ after, k.output ≠ p) ∧ draft tables t j = .ok page ∧
    bytes = Files.Utf8.encode page.toList

/-- The images that are files, with their places at the root of the site. -/
def imageFiles (t : FileTree) (ps : List Path) : List (Path × Bytes) :=
  ps.filterMap fun p =>
    match t.get? p with
    | some (.file bytes) => some (⟨[p.name]⟩, bytes)
    | _ => none

variable {tables : Tables} {t : FileTree} {js : List Job} {ws ws' : List (Path × Bytes)}
  {p q : Path} {ps : List Path} {bytes : Bytes} {source : Path} {j : Job}

/-! ## the last file at a place -/

theorem lookup_reverse_iff : ws.reverse.lookup p = some bytes ↔
    ∃ before after, ws = before ++ (p, bytes) :: after ∧ ∀ w ∈ after, w.1 ≠ p := by
  rw [List.lookup_eq_some_iff]
  constructor
  · rintro ⟨after, before, is, other⟩
    refine ⟨before.reverse, after.reverse, ?_, fun w mem same => ?_⟩
    · rw [← List.reverse_reverse ws, is]
      simp
    · have := other w (List.mem_reverse.mp mem)
      simp [same] at this
  · rintro ⟨before, after, rfl, other⟩
    refine ⟨after.reverse, before.reverse, by simp, fun w mem => ?_⟩
    rw [bne_iff_ne]
    exact fun same => other w (List.mem_reverse.mp mem) same.symm

/-- The page of a document that has one. -/
def pageBytes (tables : Tables) (t : FileTree) (j : Job) : Bytes :=
  match draft tables t j with
  | .ok page => Files.Utf8.encode page.toList
  | .error _ => []

theorem pages_eq_map (all : ∀ j ∈ js, ∃ page, draft tables t j = .ok page) :
    pages tables t js = js.map fun j => (j.output, pageBytes tables t j) := by
  induction js with
  | nil => rfl
  | cons j js ih =>
    obtain ⟨⟨page, drafted⟩, all⟩ := List.forall_mem_cons.mp all
    rw [pages_cons_ok drafted, ih all, List.map_cons, pageBytes, drafted]

theorem lookup_pages_iff (all : ∀ j ∈ js, ∃ page, draft tables t j = .ok page) :
    (pages tables t js).reverse.lookup p = some bytes ↔ LastPage tables t js p bytes := by
  rw [lookup_reverse_iff, pages_eq_map all]
  constructor
  · rintro ⟨before, after, is, other⟩
    obtain ⟨before, behind, rfl, rfl, rest⟩ := List.map_eq_append_iff.mp is
    obtain ⟨j, after, rfl, own, rfl⟩ := List.map_eq_cons_iff.mp rest
    obtain ⟨output, rfl⟩ := Prod.mk.inj own
    obtain ⟨page, drafted⟩ := all j (by simp)
    refine ⟨before, j, after, page, rfl, output, fun k mem => ?_, drafted, ?_⟩
    · exact other _ (List.mem_map_of_mem mem)
    · rw [pageBytes, drafted]
  · rintro ⟨before, j, after, page, rfl, rfl, other, drafted, rfl⟩
    refine ⟨before.map fun k => (k.output, pageBytes tables t k),
      after.map fun k => (k.output, pageBytes tables t k), ?_, List.forall_mem_map.mpr other⟩
    rw [List.map_append, List.map_cons, pageBytes, drafted]

theorem contents_file_iff :
    contents ws p = some (.file bytes) ↔ ws.reverse.lookup p = some bytes := by
  rw [contents]
  split
  · next there => simp [there]
  · next none =>
    rw [none]
    split <;> simp

/-- A directory has been made for a file below it. -/
theorem of_contents_directory (there : contents ws p = some .directory) :
    p.names = [] ∨ ∃ w ∈ ws, p.names <+: w.1.names ∧ w.1 ≠ p := by
  rw [contents] at there
  split at there
  · simp at there
  · next free =>
    split at there
    · next made =>
      refine made.imp_right ?_
      rintro ⟨w, mem, below⟩
      refine ⟨w, mem, below, fun same => ?_⟩
      rw [List.lookup_eq_none_iff] at free
      have := free w (List.mem_reverse.mpr mem)
      simp [same] at this
    · contradiction

/-! ## images beside the pages -/

/-- No file stands below a place that has the name of an image. -/
def ClearOfImages (ws : List (Path × Bytes)) : Prop :=
  ∀ w ∈ ws, ∀ n : String, ".png".toList <:+ n.toList → [n] <+: w.1.names → w.1 = ⟨[n]⟩

theorem imagePlace_eq (clear : ClearOfImages ws) (ends : hasEnding ".png" p = true) :
    imagePlace ws p = ⟨[p.name]⟩ := by
  rw [hasEnding, List.isSuffixOf_iff_suffix] at ends
  refine if_neg fun there => ?_
  rcases of_contents_directory there with none | ⟨w, mem, below, other⟩
  · contradiction
  · exact other (clear w mem p.name ends below)

/-- Images that can all be copied are files, and stand at the root of the site. -/
theorem copies_eq (clear : ClearOfImages ws) (ends : ∀ p ∈ ps, hasEnding ".png" p = true)
    (can : copies t ws ps = some ws') :
    (∀ p ∈ ps, t.isFile p = true) ∧ ws' = ws ++ imageFiles t ps := by
  induction ps generalizing ws with
  | nil =>
    obtain rfl := Option.some.inj can
    exact ⟨by simp, (List.append_nil _).symm⟩
  | cons p ps ih =>
    obtain ⟨own, ends⟩ := List.forall_mem_cons.mp ends
    rw [copies, imagePlace_eq clear own] at can
    split at can
    · next bytes file =>
      split at can
      · contradiction
      · have clear' : ClearOfImages (ws ++ [(⟨[p.name]⟩, bytes)]) := by
          intro w mem n _ below
          rcases List.mem_append.mp mem with mem | mem
          · exact clear w mem n ‹_› below
          · obtain rfl := List.mem_singleton.mp mem
            exact congrArg Files.Path.mk (below.eq_of_length rfl).symm
        obtain ⟨all, is⟩ := ih clear' ends can
        refine ⟨List.forall_mem_cons.mpr ⟨FileTree.isFile_iff.mpr ⟨bytes, file⟩, all⟩, ?_⟩
        rw [is, List.append_assoc, imageFiles, imageFiles,
          List.filterMap_cons_some (by rw [file])]
        rfl
    · contradiction

theorem mem_imageFiles : (q, bytes) ∈ imageFiles t ps ↔
    ∃ p ∈ ps, q = ⟨[p.name]⟩ ∧ t.get? p = some (.file bytes) := by
  rw [imageFiles, List.mem_filterMap]
  refine exists_congr fun p => and_congr_right fun _ => ?_
  split
  · next old file => simp [file, eq_comm]
  · next other =>
    simp only [reduceCtorEq, false_iff, not_and]
    exact fun _ file => other bytes file

theorem ruleOutput_below (p : Path) : ∃ names, (ruleOutput p).names = "user-guide" :: names := by
  have text : ("user-guide/rules/" ++ p.toString).toList =
      "user-guide".toList ++ '/' :: ("rules/".toList ++ p.toString.toList) := by
    simp
  have other : ¬ '/' :: "README.md".toList <+: '/' :: ("rules/".toList ++ p.toString.toList) := by
    simp
  rw [ruleOutput, text, show "/README.md".toList = '/' :: "README.md".toList from rfl,
    Text.replaceFirst_skip (by simp), Text.replaceFirst_cons other, Path.ofString,
    String.toList_ofList, Text.splitAt_append (by simp)]
  exact ⟨_, rfl⟩

/-- A page neither has the name of an image nor stands below one. -/
theorem not_begins_with_image {n : String} (mem : j ∈ jobs t source)
    (plain : ∀ n ∈ (j.source.relativeTo source).names, ¬ ".png".toList <:+ n.toList)
    (png : ".png".toList <:+ n.toList) : ¬[n] <+: j.output.names := by
  intro begins
  cases group : j.group with
  | root =>
    have markdown := (within_of_mem_jobs mem).2.2.2
    rw [hasEnding, List.isSuffixOf_iff_suffix] at markdown
    rw [(of_mem_root mem group).2] at begins
    obtain rfl := List.singleton_inj.mp (begins.eq_of_length rfl)
    have ends := Text.suffix_replaceFirst (show "README.md".toList ≠ [] by simp)
      (show ".md".toList <:+ "README.md".toList by decide)
      (show ".md".toList <:+ "index.md".toList by decide) (Nat.le_refl _) markdown
    rw [← String.toList_ofList (l := Text.replaceFirst _ _ _)] at ends
    exact absurd (List.suffix_of_suffix_length_le ends png (by decide)) (by decide)
  | docs =>
    refine plain n ?_ png
    have relative : j.source.relativeTo source = ⟨"docs" :: j.output.names⟩ := by
      rw [source_of_docs mem group]
      simp [Path.relativeTo, Path.child]
    rw [relative]
    exact List.mem_cons_of_mem _ (begins.subset List.mem_cons_self)
  | rule =>
    obtain ⟨rest, -, -, output⟩ := of_mem_rule mem group
    obtain ⟨names, is⟩ := ruleOutput_below rest
    -- The name would be `user-guide`.
    rw [output, is] at begins
    obtain rfl := (List.cons_prefix_cons.mp begins).1
    exact absurd png (by decide)

theorem eq_of_name_eq (mem : p ∈ images t source) (mem' : q ∈ images t source)
    (same : p.name = q.name) : p = q := by
  have image := (mem_images.mp mem).2
  have image' := (mem_images.mp mem').2
  rw [eq_child image.named, image.parent, same, eq_child image'.named, image'.parent]
  simp

theorem mem_of_lookup_reverse (there : ws.reverse.lookup p = some bytes) : (p, bytes) ∈ ws := by
  obtain ⟨before, after, rfl, -⟩ := lookup_reverse_iff.mp there
  simp

/-- Behind files at other places, files at places of their own all stay. -/
theorem lookup_append_iff (apart : ∀ w ∈ ws, ∀ v ∈ ws', w.1 ≠ v.1)
    (alone : ∀ v ∈ ws', ∀ v' ∈ ws', v.1 = v'.1 → v.2 = v'.2) :
    (ws ++ ws').reverse.lookup p = some bytes ↔
      ws.reverse.lookup p = some bytes ∨ (p, bytes) ∈ ws' := by
  -- Looking from the back, the files of `ws'` come first; any two of them at one place are equal,
  -- so it does not matter which of them is found.
  rw [List.reverse_append, List.lookup_append]
  cases there : ws'.reverse.lookup p with
  | none =>
    have absent : (p, bytes) ∉ ws' := by
      intro mem
      have := List.lookup_eq_none_iff.mp there _ (List.mem_reverse.mpr mem)
      simp at this
    simp [absent]
  | some old =>
    have mem := mem_of_lookup_reverse there
    simp only [Option.some_or, Option.some.injEq]
    constructor
    · rintro rfl
      exact .inr mem
    · rintro (file | mem')
      · exact absurd rfl (apart (p, bytes) (mem_of_lookup_reverse file) (p, old) mem)
      · exact alone _ mem _ mem' rfl

/-- The directories that there are hold the files. -/
theorem Stage.directory_iff {keep : Path → Bool} {o : Path} {s : Session}
    (stage : Stage keep t o ws s) : s.files.get? (o ++ p) = some .directory ↔
      p.names = [] ∨ ∃ w ∈ ws, p.names <+: w.1.parent.names := by
  constructor
  · intro there
    rw [stage.view] at there
    rcases of_contents_directory there with none | ⟨w, mem, below, other⟩
    · exact .inl none
    · by_cases named : w.1.names = []
      · exact .inl (List.prefix_nil.mp (named ▸ below))
      · exact .inr ⟨w, mem, ((Path.prefix_iff named).mp below).resolve_left other.symm⟩
  · rintro (none | ⟨w, mem, below⟩)
    · rw [Path.append_eq_self o none]
      exact stage.above _ (List.prefix_refl _)
    · have file : contents ws w.1 ≠ none := by
        obtain ⟨bytes, there⟩ : ∃ bytes, ws.reverse.lookup w.1 = some bytes := by
          rw [← Option.isSome_iff_exists, List.lookup_isSome_iff]
          exact ⟨w, List.mem_reverse.mpr mem, beq_self_eq_true _⟩
        rw [contents_file_iff.mpr there]
        exact Option.some_ne_none _
      have holder := stage.fit.rooted file
      rw [← stage.view] at holder
      exact (stage.rootedAlong _).directories holder ((List.prefix_append_right_inj _).mpr below)

/-! ## the order of the documents -/

/-- Documents in the order of their places in the package. -/
def Sorted (js : List Job) : Prop := js.Pairwise fun j k => j.source.le k.source = true

theorem sorted_map (ps : List Path) (choose : Path → Bool) (job : Path → Job)
    (own : ∀ p, (job p).source = p) : Sorted (((ps.mergeSort Path.le).filter choose).map job) := by
  rw [Sorted, List.pairwise_map]
  simp only [own]
  exact (Path.sorted_mergeSort ps).filter choose

/-- In each group the documents are in order. -/
theorem sorted_groups (t : FileTree) (source : Path) :
    Sorted (rootJobs t source) ∧ Sorted (docsJobs t source) ∧ Sorted (ruleJobs t source) :=
  ⟨sorted_map _ _ _ fun _ => rfl, sorted_map _ _ _ fun _ => rfl, sorted_map _ _ _ fun _ => rfl⟩

/-! ## a run that has ended well -/

variable {r : Request} {s s' : Session} {report : Report}

theorem clearOfImages_pages
    (plain : ∀ j ∈ jobs t source, ∀ n ∈ (j.source.relativeTo source).names,
      ¬ ".png".toList <:+ n.toList)
    (all : ∀ j ∈ jobs t source, ∃ page, draft tables t j = .ok page) :
    ClearOfImages (pages tables t (jobs t source)) := by
  intro w mem n png below
  rw [pages_eq_map all] at mem
  obtain ⟨j, is, rfl⟩ := List.mem_map.mp mem
  exact absurd below (not_begins_with_image is (plain j is) png)

/-- No page goes to the place of an image. -/
theorem pages_ne_image {w v : Path × Bytes}
    (plain : ∀ j ∈ jobs t source, ∀ n ∈ (j.source.relativeTo source).names,
      ¬ ".png".toList <:+ n.toList)
    (all : ∀ j ∈ jobs t source, ∃ page, draft tables t j = .ok page)
    (mem : w ∈ pages tables t (jobs t source)) (mem' : v ∈ imageFiles t (images t source)) :
    w.1 ≠ v.1 := by
  rw [pages_eq_map all] at mem
  obtain ⟨j, is, rfl⟩ := List.mem_map.mp mem
  obtain ⟨q, is', place, -⟩ := mem_imageFiles.mp (show (v.1, v.2) ∈ _ from mem')
  have png := (mem_images.mp is').2.ends
  rw [hasEnding, List.isSuffixOf_iff_suffix] at png
  intro same
  refine not_begins_with_image is (plain j is) png ?_
  have output : j.output = ⟨[q.name]⟩ := same.trans place
  simp only [output, List.prefix_refl]

/-- An image has its place for itself. -/
theorem imageFiles_alone {v v' : Path × Bytes} (mem : v ∈ imageFiles t (images t source))
    (mem' : v' ∈ imageFiles t (images t source)) (same : v.1 = v'.1) : v.2 = v'.2 := by
  obtain ⟨q, is, place, file⟩ := mem_imageFiles.mp (show (v.1, v.2) ∈ _ from mem)
  obtain ⟨q', is', place', file'⟩ := mem_imageFiles.mp (show (v'.1, v'.2) ∈ _ from mem')
  have name : q.name = q'.name := by simpa using place.symm.trans (same.trans place')
  rw [eq_of_name_eq is is' name, file', Option.some.injEq, Entry.file.injEq] at file
  exact file.symm

/-- Directories are made for pages only. -/
theorem exists_below_iff (all : ∀ j ∈ js, ∃ page, draft tables t j = .ok page) :
    (p.names = [] ∨ ∃ w ∈ pages tables t js ++ imageFiles t ps, p.names <+: w.1.parent.names) ↔
      p.names = [] ∨ ∃ j ∈ js, p.names <+: j.output.parent.names := by
  refine or_congr_right' fun named => ?_
  rw [pages_eq_map all]
  constructor
  · rintro ⟨w, mem, below⟩
    rcases List.mem_append.mp mem with mem | mem
    · obtain ⟨j, is, rfl⟩ := List.mem_map.mp mem
      exact ⟨j, is, below⟩
    · obtain ⟨q, -, place, -⟩ := mem_imageFiles.mp (show (w.1, w.2) ∈ _ from mem)
      rw [place] at below
      exact absurd (List.prefix_nil.mp below) named
  · rintro ⟨j, is, below⟩
    exact ⟨_, List.mem_append_left _ (List.mem_map_of_mem is), below⟩

/-- A run that stops at the first fault, and has not stopped. -/
theorem Apart.stage_of_generate (apart : Apart r s) (strict : r.keepGoing = false)
    (done : generate r s = (s', .ok report)) :
    (∀ j ∈ jobs s.files r.source, ∃ page, draft r.tables s.files j = .ok page) ∧
      ∃ ws', copies s.files (pages r.tables s.files (jobs s.files r.source))
          (images s.files r.source) = some ws' ∧
        Stage (inPackage r s) s.files r.output ws' s' ∧
        report.written = (jobs s.files r.source).map (r.output ++ ·.output) ∧
        report.copied = (images s.files r.source).map (fun q => r.output.child q.name) ∧
        report.failures = [] := by
  have there : s.files.isDirectory r.source = true := by
    by_contra other
    rw [generate, if_pos (by simpa using other)] at done
    cases (Prod.mk.inj done).2
  obtain ⟨-, s₁, run, stage⟩ := apart.begun there fun cause failed => by
    rw [done] at failed
    cases failed
  rw [run] at done
  obtain ⟨s₂, report', converted⟩ := ok_of_finish done
  obtain ⟨all, rfl, next⟩ := stage.convertAll_strict (fun j mem =>
    ⟨apart.document mem, (within_of_mem_jobs mem).2.2.1⟩) strict converted
  rw [converted] at done
  refine ⟨all, ?_⟩
  cases copied : copies s.files ([] ++ pages r.tables s.files (jobs s.files r.source))
      (images s.files r.source) with
  | none =>
    obtain ⟨s₃, p, d, cause, failed⟩ := next.finish_error _ (fun _ => apart.image) copied
    rw [failed] at done
    cases (Prod.mk.inj done).2
  | some ws' =>
    obtain ⟨s₃, finished, last⟩ := next.finish_ok _ (fun _ => apart.image) copied
    rw [finished] at done
    obtain ⟨rfl, same⟩ := Prod.mk.inj done
    obtain rfl := Except.ok.inj same
    refine ⟨ws', copied, last, ?_, rfl, ?_⟩
    · simp [Report.extend, pages_eq_map all]
    · simp [Report.extend, faults_eq_nil.mpr all]

/-- **What a run that has ended well leaves behind.**  At each place of the output directory is the
page of the last document that goes there, or an image, and besides only the directories above the
pages; the documents come group by group, in order, and all of them are in the report. -/
theorem generate_contents (apart : Apart r s)
    (plain : ∀ j ∈ jobs s.files r.source, ∀ n ∈ (j.source.relativeTo r.source).names,
      ¬ ".png".toList <:+ n.toList)
    (strict : r.keepGoing = false) (done : generate r s = (s', .ok report)) :
    (∀ p bytes, s'.files.get? (r.output ++ p) = some (.file bytes) ↔
      LastPage r.tables s.files (jobs s.files r.source) p bytes ∨
        ∃ q ∈ images s.files r.source, p = ⟨[q.name]⟩ ∧ s.files.get? q = some (.file bytes)) ∧
    (∀ p, s'.files.get? (r.output ++ p) = some .directory ↔
      p.names = [] ∨ ∃ j ∈ jobs s.files r.source, p.names <+: j.output.parent.names) ∧
    (∀ j ∈ jobs s.files r.source, ∃ page, draft r.tables s.files j = .ok page) ∧
    (∀ q ∈ images s.files r.source, s.files.isFile q = true) ∧
    report.written = (jobs s.files r.source).map (r.output ++ ·.output) ∧
    report.failures = [] ∧
    jobs s.files r.source =
      rootJobs s.files r.source ++ docsJobs s.files r.source ++ ruleJobs s.files r.source ∧
    Sorted (rootJobs s.files r.source) ∧ Sorted (docsJobs s.files r.source) ∧
    Sorted (ruleJobs s.files r.source) := by
  obtain ⟨all, ws', copied, stage, written, -, failures⟩ := apart.stage_of_generate strict done
  have clear := clearOfImages_pages plain all
  obtain ⟨files, rfl⟩ := copies_eq clear (fun q mem => (mem_images.mp mem).2.ends) copied
  refine ⟨fun p bytes => ?_, fun p => ?_, all, files, written, failures, rfl,
    sorted_groups s.files r.source⟩
  · rw [stage.view, contents_file_iff, lookup_append_iff, lookup_pages_iff all, mem_imageFiles]
    · exact fun w mem v mem' => pages_ne_image plain all mem mem'
    · exact fun v mem v' mem' => imageFiles_alone mem mem'
  · rw [stage.directory_iff]
    exact exists_below_iff all

/-- A package with two documents for one page, one below `docs/`, an image and the log file, and an
output directory with a page of an earlier run. -/
def indexedTwice : Session where
  files := ⟨[
    (⟨["pkg"]⟩, .directory),
    (⟨["pkg", "index.md"]⟩, .file (Files.Utf8.encode "# Index".toList)),
    (⟨["pkg", "README.md"]⟩, .file (Files.Utf8.encode "# Readme".toList)),
    (⟨["pkg", "docs"]⟩, .directory),
    (⟨["pkg", "docs", "guide"]⟩, .directory),
    (⟨["pkg", "docs", "guide", "start.md"]⟩, .file (Files.Utf8.encode "# Start".toList)),
    (⟨["pkg", "logo.png"]⟩, .file [0x89, 0x50]),
    (⟨["pkg", "run.log"]⟩, .file []),
    (⟨["site"]⟩, .directory),
    (⟨["site", "stale.md"]⟩, .file [])]⟩
  logFile := some { path := ⟨["pkg", "run.log"]⟩, layout := .brief, least := .info }

/-- The index stays, the page of the earlier run does not. -/
theorem generate_contents_indexedTwice :
    let r : Request := { output := ⟨["site"]⟩, source := ⟨["pkg"]⟩ }
    ∃ s' report, generate r indexedTwice = (s', .ok report) ∧
      s'.files.get? ⟨["site", "index.md"]⟩ = some (.file (Files.Utf8.encode
        "---\ntitle: Index\nsidebar_label: Index\n---\n\n# Index\n".toList)) ∧
      s'.files.get? ⟨["site", "logo.png"]⟩ = some (.file [0x89, 0x50]) ∧
      s'.files.get? ⟨["site", "guide"]⟩ = some .directory ∧
      (∀ bytes, s'.files.get? ⟨["site", "stale.md"]⟩ ≠ some (.file bytes)) ∧
      report.written =
        [⟨["site", "index.md"]⟩, ⟨["site", "index.md"]⟩, ⟨["site", "guide", "start.md"]⟩] := by
  intro r
  have documents : jobs indexedTwice.files r.source =
      [⟨⟨["pkg", "README.md"]⟩, ⟨["index.md"]⟩, .root⟩,
        ⟨⟨["pkg", "index.md"]⟩, ⟨["index.md"]⟩, .root⟩,
        ⟨⟨["pkg", "docs", "guide", "start.md"]⟩, ⟨["guide", "start.md"]⟩, .docs⟩] := by
    simp only [jobs, rootJobs, docsJobs, ruleJobs, FileTree.list, FileTree.listAll,
      Path.mergeSort_eq_insertionSort]
    decide +kernel
  have pictures : images indexedTwice.files r.source = [⟨["pkg", "logo.png"]⟩] := by
    simp only [images, FileTree.list, Path.mergeSort_eq_insertionSort]
    decide +kernel
  have result : (generate r indexedTwice).2 = .ok {
      written := [⟨["site", "index.md"]⟩, ⟨["site", "index.md"]⟩, ⟨["site", "guide", "start.md"]⟩]
      copied := [⟨["site", "logo.png"]⟩] } := by
    simp only [generate, jobs, rootJobs, docsJobs, ruleJobs, images, FileTree.list,
      FileTree.listAll, Path.mergeSort_eq_insertionSort]
    decide +kernel
  have apart : Apart r indexedTwice := by
    refine ⟨by decide, by decide, fun f is => ?_, rooted_of_entries (by decide +kernel)⟩
    obtain rfl := Option.some.inj is
    rw [documents, pictures]
    decide +kernel
  have plain : ∀ j ∈ jobs indexedTwice.files r.source,
      ∀ n ∈ (j.source.relativeTo r.source).names, ¬ ".png".toList <:+ n.toList := by
    rw [documents]
    decide +kernel
  obtain ⟨files, directories, -⟩ := generate_contents apart plain rfl (Prod.ext rfl result)
  refine ⟨_, _, Prod.ext rfl result, ?_, ?_, ?_, fun bytes there => ?_, rfl⟩
  · exact (files ⟨["index.md"]⟩ _).mpr (.inl ⟨[_], _, [_], _, documents, rfl, by decide,
      by decide +kernel, rfl⟩)
  · refine (files ⟨["logo.png"]⟩ _).mpr (.inr ⟨⟨["pkg", "logo.png"]⟩, ?_, rfl, rfl⟩)
    rw [pictures]
    exact List.mem_singleton_self _
  · refine (directories ⟨["guide"]⟩).mpr (.inr ?_)
    rw [documents]
    decide
  · rcases (files ⟨["stale.md"]⟩ bytes).mp there with ⟨before, j, after, page, is, output, -⟩ |
      ⟨q, mem, place, -⟩
    · have other : ∀ j ∈ jobs indexedTwice.files r.source, j.output ≠ ⟨["stale.md"]⟩ := by
        rw [documents]
        decide
      exact other j (by simp [is]) output
    · rw [pictures] at mem
      obtain rfl := List.mem_singleton.mp mem
      contradiction

end Docsite.Site
