import Docsite.Proofs.Link.Rewrite
import Docsite.Proofs.Site.Discover

/-!
# Docsite.Proofs.Link.Target

Where the rewritten links of the site lead.

A reader follows a link from the folder of the page that it stands on (`resolve`).  Links between
the documents of a package are followed here to the page that they lead to, and this is held
against the page that the document goes to: they agree for links to rules, into the user guide
and to the changes (`rewrite_reaches`), and for links into `docs/` just as long as no index is
linked to (`rewrite_index`), since an index there keeps its name and the links to it do not.
-/

namespace Docsite.Link

open Files (Path FileTree)
open Site (GoesTo jobs ruleOutput rootOutput hasEnding isExcluded)

/-! ## following links -/

/-- Where a piece of a link leads from a folder. -/
def enter (names : List String) (piece : List Char) : List String :=
  if piece = [] ∨ piece = ['.'] then names
  else if piece = ['.', '.'] then names.dropLast
  else names ++ [.ofList piece]

/-- Where a path leads from a folder. -/
def follow (names : List String) (path : List Char) : List String :=
  (Text.splitAt '/' path).foldl enter names

/-- The page that a link leads to from a folder of the site, and the fragment behind it. -/
def resolve (folder : Path) (link : String) : Path × String :=
  let path := link.toList.takeWhile (· != '#')
  let start := if path.head? = some '/' then [] else folder.names
  (⟨follow start path⟩, .ofList (link.toList.dropWhile (· != '#')))

variable {c : Char} {f s w : List Char} {names : List String}

theorem enter_of_mem (mem : c ∈ w) (other : c ≠ '.') : enter names w = names ++ [.ofList w] := by
  rw [enter, if_neg, if_neg]
  · rintro rfl
    simp [other] at mem
  · rintro (rfl | rfl) <;> simp [other] at mem

theorem follow_name (name : IsName w) (s : List Char) :
    follow names (w ++ '/' :: s) = follow (names ++ [.ofList w]) s := by
  obtain ⟨c, cs, rfl⟩ := List.exists_cons_of_ne_nil name.some
  have other : c ≠ '.' := by
    rintro rfl
    exact name.notMem (c := '.') (by decide) List.mem_cons_self
  rw [follow, Text.splitAt_append (name.notMem (by decide)), List.foldl_cons,
    enter_of_mem List.mem_cons_self other, follow]

theorem follow_page (absent : '/' ∉ w) :
    follow names (w ++ ".md".toList) = names ++ [.ofList (w ++ ".md".toList)] := by
  have mem : 'm' ∈ w ++ ".md".toList := by simp
  rw [follow, Text.splitAt_of_notMem (by simp [absent]), List.foldl_cons, List.foldl_nil,
    enter_of_mem mem (by decide)]

theorem follow_up (s : List Char) : follow names ("../".toList ++ s) = follow names.dropLast s := by
  have cut : "../".toList ++ s = "..".toList ++ '/' :: s := by simp
  rw [follow, cut, Text.splitAt_append (by simp), List.foldl_cons, follow]
  simp [enter]

/-- Steps up from a folder that is as deep lead to the root of the site. -/
theorem follow_steps {n : Nat} (deep : names.length = n) (s : List Char) :
    follow names (steps n ++ s) = follow [] s := by
  induction n generalizing names with
  | zero => rw [List.length_eq_zero_iff.mp deep, steps_zero, List.nil_append]
  | succ n ih =>
    rw [steps_succ, List.append_assoc, follow_up]
    exact ih (by rw [List.length_dropLast, deep, Nat.add_sub_cancel])

/-- A link that does not begin at the root of the site is followed from the folder. -/
theorem resolve_eq {folder : Path} {path : List Char} (relative : ¬ ['/'] <+: path)
    (absent : '#' ∉ path) (fragment : IsFragment f) :
    resolve folder (.ofList (path ++ f)) = (⟨follow folder.names path⟩, .ofList f) := by
  have plain : ∀ c ∈ path, (c != '#') = true := by
    intro c mem
    rw [bne_iff_ne]
    rintro rfl
    exact absent mem
  have behind : f.takeWhile (· != '#') = [] ∧ f.dropWhile (· != '#') = f := by
    obtain rfl | ⟨s, rfl, -⟩ := fragment <;> simp
  have start : path.head? ≠ some '/' := by
    cases path with
    | nil => simp
    | cons c cs =>
      rw [List.head?_cons, ne_eq, Option.some.injEq]
      rintro rfl
      exact relative (List.prefix_append ['/'] cs)
  rw [resolve, String.toList_ofList, List.takeWhile_append_of_pos plain,
    List.dropWhile_append_of_pos plain, behind.1, behind.2, List.append_nil]
  simp only [if_neg start]

/-! ## the pages of documents -/

/-- The page of a rule. -/
def rulePage (rule : String) : Path := ⟨["user-guide", "rules", rule ++ ".md"]⟩

theorem toString_relative {name : String} (relative : name ≠ "/") :
    Path.toString ⟨name :: names⟩ = "/".intercalate (name :: names) := by
  unfold Path.toString
  split
  · simp_all
  · simp_all
  · rfl

theorem ruleOutput_index {r : String} (name : IsName r.toList) :
    ruleOutput ⟨[r, "README.md"]⟩ = rulePage r := by
  have relative : r ≠ "/" := by
    rintro rfl
    exact absurd name (by decide)
  have slash : '/' ∉ r.toList := name.notMem (by decide)
  have rules : IsName "rules".toList := by decide
  have text : ("user-guide/rules/" ++ Path.toString ⟨[r, "README.md"]⟩).toList =
      "user-guide".toList ++ '/' :: ("rules".toList ++ '/' :: (r.toList ++
        ("/README.md".toList ++ []))) := by
    simp [toString_relative relative, String.intercalate_cons_cons]
  have cut : Text.splitAt '/' ("user-guide".toList ++ '/' :: ("rules".toList ++
      '/' :: (r.toList ++ (".md".toList ++ [])))) =
        ["user-guide".toList, "rules".toList, r.toList ++ ".md".toList] := by
    rw [Text.splitAt_append (by simp), Text.splitAt_append (by simp),
      Text.splitAt_of_notMem (by simp [slash]), List.append_nil]
  have kept : ∀ w ∈ ["user-guide".toList, "rules".toList, r.toList ++ ".md".toList],
      (!w.isEmpty && w != ['.']) = true := by
    have long : r.toList ++ ['.', 'm', 'd'] ≠ ['.'] := fun h => by
      simpa using congrArg List.length h
    simp [long]
  rw [ruleOutput, text, replaceFirst_readme_skip (by simp), replaceFirst_readme_folder rules,
    replaceFirst_readme_folder name, Text.replaceFirst_append (by simp), Path.ofString,
    String.toList_ofList, cut, List.filter_eq_self.mpr kept, rulePage]
  simp

/-- The path of a page in folders is not empty, and has letters of names and slashes only. -/
theorem path_of_names {folders : List String} {page : String}
    (named : ∀ n ∈ folders ++ [page], IsName n.toList) :
    ("/".intercalate (folders ++ [page])).toList ≠ [] ∧
      ∀ c ∈ ("/".intercalate (folders ++ [page])).toList, (isNameChar c || c == '/') = true := by
  induction folders with
  | nil =>
    have name := named page (by simp)
    simp only [List.nil_append, String.intercalate_singleton]
    exact ⟨name.some, fun c mem => by rw [name.chars c mem, Bool.true_or]⟩
  | cons n folders ih =>
    have name := named n (by simp)
    have rest := ih fun n mem => named n (List.mem_cons_of_mem _ mem)
    rw [List.cons_append, String.intercalate_cons_of_ne_nil (by simp), String.toList_append,
      String.toList_append]
    refine ⟨by simp, fun c mem => ?_⟩
    obtain (mem | mem) | mem := List.mem_append.mp mem |>.imp_left List.mem_append.mp
    · rw [name.chars c mem, Bool.true_or]
    · obtain rfl : c = '/' := by simpa using mem
      rfl
    · exact rest.2 c mem

/-- From a folder the path of a page leads through its folders to the page. -/
theorem follow_path {folders : List String} {page : String}
    (named : ∀ n ∈ folders ++ [page], IsName n.toList) :
    follow names (("/".intercalate (folders ++ [page])).toList ++ ".md".toList) =
      names ++ (folders ++ [page ++ ".md"]) := by
  induction folders generalizing names with
  | nil =>
    have slash : '/' ∉ page.toList := (named page (by simp)).notMem (by decide)
    rw [List.nil_append, String.intercalate_singleton, follow_page slash, List.nil_append,
      ← String.toList_append, String.ofList_toList]
  | cons n folders ih =>
    have cut : ("/".intercalate (n :: (folders ++ [page]))).toList ++ ".md".toList =
        n.toList ++ '/' :: (("/".intercalate (folders ++ [page])).toList ++ ".md".toList) := by
      rw [String.intercalate_cons_of_ne_nil (by simp)]
      simp
    rw [List.cons_append, cut, follow_name (named n (by simp)),
      ih fun n mem => named n (List.mem_cons_of_mem _ mem), String.ofList_toList]
    simp

/-! ## links between documents -/

section

variable {r f : String}

theorem rewrite_docs_rule (name : IsName r.toList) (fragment : IsFragment f.toList) :
    Group.docs.rewrite ("../../lib/rules/" ++ r ++ "/README.md" ++ f) =
      "/" ++ (rulePage r).toString ++ f := by
  have text : ("../../lib/rules/" ++ r ++ "/README.md" ++ f).toList =
      "../../lib/rules/".toList ++ (r.toList ++ ("/README.md".toList ++ f.toList)) := by
    simp
  have page : "/" ++ (rulePage r).toString ++ f = "/user-guide/rules/" ++ (r ++ (".md" ++ f)) := by
    rw [rulePage, toString_relative (by decide), String.intercalate_cons_of_ne_nil (by simp),
      String.intercalate_cons_of_ne_nil (by simp), String.intercalate_singleton,
      ← String.toList_inj]
    simp
  rw [Group.rewrite, text, rewriteDocs_rule name fragment, page, ← String.toList_inj]
  simp

theorem resolve_rule_sibling (name : IsName r.toList) (fragment : IsFragment f.toList) :
    resolve ⟨["user-guide", "rules"]⟩ (Group.rule.rewrite ("../" ++ r ++ "/README.md" ++ f)) =
      (rulePage r, f) := by
  have text : ("../" ++ r ++ "/README.md" ++ f).toList =
      "../".toList ++ (r.toList ++ ("/README.md".toList ++ f.toList)) := by
    simp
  have absent : '#' ∉ r.toList ++ ".md".toList := by simp [name.notMem (c := '#') (by decide)]
  have page : (rulePage r).names =
      ["user-guide", "rules"] ++ [.ofList (r.toList ++ ".md".toList)] := by
    simp [rulePage]
  rw [Group.rewrite, text, rewriteRule_sibling name fragment, ← List.append_assoc,
    resolve_eq (name.not_begins (by decide) [] _) absent fragment,
    follow_page (name.notMem (by decide)), ← page, String.ofList_toList]

theorem resolve_rule_userGuide {folders : List String} {page : String}
    (named : ∀ n ∈ folders ++ [page], IsName n.toList) (fragment : IsFragment f.toList) :
    resolve ⟨["user-guide", "rules"]⟩ (Group.rule.rewrite
      ("../../../docs/user-guide/" ++ "/".intercalate (folders ++ [page]) ++ ".md" ++ f)) =
      (⟨"user-guide" :: (folders ++ [page ++ ".md"])⟩, f) := by
  obtain ⟨q, is⟩ : ∃ q, "/".intercalate (folders ++ [page]) = q := ⟨_, rfl⟩
  obtain ⟨some, path⟩ := path_of_names named
  have leads : follow ["user-guide"]
      (("/".intercalate (folders ++ [page])).toList ++ ".md".toList) =
        ["user-guide"] ++ (folders ++ [page ++ ".md"]) :=
    follow_path named
  rw [is] at some path leads ⊢
  have text : ("../../../docs/user-guide/" ++ q ++ ".md" ++ f).toList =
      "../../../docs/user-guide/".toList ++ (q.toList ++ (".md".toList ++ f.toList)) := by
    simp
  have absent : '#' ∉ "../".toList ++ (q.toList ++ ".md".toList) := by
    have : '#' ∉ q.toList := fun mem => absurd (path '#' mem) (by decide)
    simp [this]
  have cut : "../".toList ++ (q.toList ++ (".md".toList ++ f.toList)) =
      ("../".toList ++ (q.toList ++ ".md".toList)) ++ f.toList := by
    simp
  rw [Group.rewrite, text, rewriteRule_userGuide path some fragment, cut,
    resolve_eq (by simp) absent fragment, follow_up, String.ofList_toList]
  exact congrArg (fun names => (Files.Path.mk names, f)) leads

theorem resolve_docs_changelog (fragment : IsFragment f.toList) {k : Nat} {folder : Path}
    (some : 1 ≤ k) (deep : folder.names.length = k) :
    resolve folder (Group.docs.rewrite
      (String.join (List.replicate (k + 1) "../") ++ "CHANGELOG.md" ++ f)) =
      (⟨["CHANGELOG.md"]⟩, f) := by
  obtain ⟨n, rfl⟩ : ∃ n, k = n + 1 := ⟨k - 1, by omega⟩
  have text : (String.join (List.replicate (n + 2) "../") ++ "CHANGELOG.md" ++ f).toList =
      steps (n + 2) ++ ("CHANGELOG.md".toList ++ f.toList) := by
    rw [String.toList_append, String.toList_append, String.toList_join, List.append_assoc, steps,
      List.flatMap_replicate]
  have absent : '#' ∉ steps (n + 1) ++ ("CHANGELOG".toList ++ ".md".toList) := by
    simp [notMem_steps (c := '#') (by decide) (by decide)]
  have cut : steps (n + 1) ++ ("CHANGELOG.md".toList ++ f.toList) =
      (steps (n + 1) ++ ("CHANGELOG".toList ++ ".md".toList)) ++ f.toList := by
    simp
  rw [Group.rewrite, text, rewriteDocs_changelog fragment, cut,
    resolve_eq (by simp) absent fragment, follow_steps deep, follow_page (by simp),
    String.ofList_toList]
  simp

end

/-- **Links between the documents lead to the pages of the documents.**  For a rule, the links to
it from documents under `docs/` and from other rules; for a page of the user guide, at any depth,
the links from rules; and from any folder below the root, the links to the changes. -/
theorem rewrite_reaches (t : FileTree) (source : Path) (f : String)
    (fragment : IsFragment f.toList) :
    (∀ r : String, IsName r.toList →
      let document := (source.child "lib").child "rules" ++ ⟨[r, "README.md"]⟩
      (t.has document = true → GoesTo t source document (rulePage r)) ∧
      Group.docs.rewrite ("../../lib/rules/" ++ r ++ "/README.md" ++ f) =
        "/" ++ (rulePage r).toString ++ f ∧
      resolve ⟨["user-guide", "rules"]⟩ (Group.rule.rewrite ("../" ++ r ++ "/README.md" ++ f)) =
        (rulePage r, f)) ∧
    (∀ (folders : List String) (page : String), (∀ n ∈ folders ++ [page], IsName n.toList) →
      page ≠ "toc" →
      let output : Path := ⟨"user-guide" :: (folders ++ [page ++ ".md"])⟩
      (t.has (source.child "docs" ++ output) = true →
        GoesTo t source (source.child "docs" ++ output) output) ∧
      resolve ⟨["user-guide", "rules"]⟩ (Group.rule.rewrite
        ("../../../docs/user-guide/" ++ "/".intercalate (folders ++ [page]) ++ ".md" ++ f)) =
        (output, f)) ∧
    ∀ (k : Nat) (folder : Path), 1 ≤ k → folder.names.length = k →
      (t.has (source.child "CHANGELOG.md") = true →
        GoesTo t source (source.child "CHANGELOG.md") ⟨["CHANGELOG.md"]⟩) ∧
      resolve folder (Group.docs.rewrite
        (String.join (List.replicate (k + 1) "../") ++ "CHANGELOG.md" ++ f)) =
        (⟨["CHANGELOG.md"]⟩, f) := by
  refine ⟨fun r name => ?_, fun folders page named other => ?_, fun k folder some deep => ?_⟩
  · refine ⟨fun has => ?_, rewrite_docs_rule name fragment, resolve_rule_sibling name fragment⟩
    rw [← ruleOutput_index name]
    have markdown : hasEnding ".md" ⟨[r, "README.md"]⟩ = true := by
      rw [hasEnding, show Path.name ⟨[r, "README.md"]⟩ = "README.md" from rfl]
      decide
    exact Site.goesTo_rule has (by simp) markdown
  · refine ⟨fun has => ?_, resolve_rule_userGuide named fragment⟩
    have named : Path.name ⟨"user-guide" :: (folders ++ [page ++ ".md"])⟩ = page ++ ".md" :=
      Path.name_child ⟨"user-guide" :: folders⟩ (page ++ ".md")
    refine Site.goesTo_docs has (by simp) ?_ ?_
    · rw [hasEnding, named, List.isSuffixOf_iff_suffix, String.toList_append]
      exact List.suffix_append _ _
    · rw [isExcluded, named, beq_eq_false_iff_ne]
      exact fun is => other ((String.append_left_inj ".md").mp is)
  · refine ⟨fun has => ?_, resolve_docs_changelog fragment some deep⟩
    have output : rootOutput ⟨["CHANGELOG.md"]⟩ = ⟨["CHANGELOG.md"]⟩ := by decide
    rw [← output]
    exact Site.goesTo_root has (by rw [hasEnding, Path.name_child]; decide)

/-- A package with a rule, a page of the user guide and the changes. -/
def smallPackage : FileTree :=
  ⟨[(⟨["pkg", "lib", "rules", "color-named", "README.md"]⟩, .file []),
    (⟨["pkg", "docs", "user-guide", "usage", "options.md"]⟩, .file []),
    (⟨["pkg", "CHANGELOG.md"]⟩, .file [])]⟩

theorem rewrite_reaches_smallPackage :
    GoesTo smallPackage ⟨["pkg"]⟩ ⟨["pkg", "lib", "rules", "color-named", "README.md"]⟩
      ⟨["user-guide", "rules", "color-named.md"]⟩ ∧
    Group.docs.rewrite "../../lib/rules/color-named/README.md#rules" =
      "/user-guide/rules/color-named.md#rules" ∧
    GoesTo smallPackage ⟨["pkg"]⟩ ⟨["pkg", "docs", "user-guide", "usage", "options.md"]⟩
      ⟨["user-guide", "usage", "options.md"]⟩ ∧
    resolve ⟨["user-guide", "rules"]⟩
      (Group.rule.rewrite "../../../docs/user-guide/usage/options.md#rules") =
        (⟨["user-guide", "usage", "options.md"]⟩, "#rules") ∧
    GoesTo smallPackage ⟨["pkg"]⟩ ⟨["pkg", "CHANGELOG.md"]⟩ ⟨["CHANGELOG.md"]⟩ ∧
    resolve ⟨["user-guide", "usage"]⟩ (Group.docs.rewrite "../../../CHANGELOG.md#rules") =
      (⟨["CHANGELOG.md"]⟩, "#rules") := by
  have fragment : IsFragment "#rules".toList := .inr ⟨"rules".toList, by decide⟩
  have named : ∀ n ∈ ["usage"] ++ ["options"], IsName n.toList := by
    intro n mem
    obtain rfl | rfl : n = "usage" ∨ n = "options" := by simpa using mem
    · decide
    · decide
  obtain ⟨rules, guide, changes⟩ := rewrite_reaches smallPackage ⟨["pkg"]⟩ "#rules" fragment
  have rule := rules "color-named" (by decide)
  have page := guide ["usage"] "options" named (by decide)
  have change := changes 2 ⟨["user-guide", "usage"]⟩ (by decide) rfl
  refine ⟨rule.1 (by decide), rule.2.1, page.1 (by decide), page.2, change.1 (by decide), change.2⟩

/-! ## links to an index under docs -/

theorem resolve_docs_section {d folder : String} (name : IsName d.toList) :
    resolve ⟨[folder]⟩ (Group.docs.rewrite ("../" ++ d ++ "/README.md")) =
      (⟨[d ++ ".md"]⟩, "") := by
  have text : ("../" ++ d ++ "/README.md").toList =
      "../".toList ++ (d.toList ++ ("/README.md".toList ++ [])) := by
    simp
  have absent : '#' ∉ "../".toList ++ (d.toList ++ ".md".toList) := by
    simp [name.notMem (c := '#') (by decide)]
  have cut : "../".toList ++ (d.toList ++ (".md".toList ++ [])) =
      ("../".toList ++ (d.toList ++ ".md".toList)) ++ [] := by
    simp
  rw [Group.rewrite, text, rewriteDocs_section name (.inl rfl), cut,
    resolve_eq (by simp) absent (.inl rfl), follow_up, follow_page (name.notMem (by decide))]
  simp

theorem rewrite_root_docs (s : String) :
    Group.root.rewrite ("docs/" ++ s) = "/" ++ s ↔ ¬ "README.md".toList <:+: s.toList := by
  have slash : ¬ "README.md".toList <+: '/' :: s.toList := by simp
  have inside : "README.md".toList <:+: '/' :: s.toList ↔ "README.md".toList <:+: s.toList := by
    rw [List.infix_cons_iff, or_iff_right slash]
  have kept : Text.replaceFirst "README.md".toList "index.md".toList ('/' :: s.toList) =
      '/' :: s.toList ↔ ¬ "README.md".toList <:+: '/' :: s.toList :=
    Text.replaceFirst_eq_self_iff (by simp) (by decide)
  rw [Group.rewrite, String.toList_append, rewriteRoot_docs, ← inside, ← kept, ← String.toList_inj]
  simp

/-- **Links into `docs/` lead to the page unless it is an index.**  A link from a root document
leads to its page just if the path of the page has no `README.md` in it; a link from another section
to the index of a section leads to a page named as the section, while the index keeps its
name. -/
theorem rewrite_index (t : FileTree) (source : Path) :
    (∀ j ∈ jobs t source, j.group = .docs →
      j.source = source.child "docs" ++ j.output ∧
      (Group.root.rewrite ("docs/" ++ j.output.toString) = "/" ++ j.output.toString ↔
        ¬ "README.md".toList <:+: j.output.toString.toList)) ∧
    ∀ d folder : String, IsName d.toList →
      t.has (source.child "docs" ++ ⟨[d, "README.md"]⟩) = true →
      GoesTo t source (source.child "docs" ++ ⟨[d, "README.md"]⟩) ⟨[d, "README.md"]⟩ ∧
      resolve ⟨[folder]⟩ (Group.docs.rewrite ("../" ++ d ++ "/README.md")) =
        (⟨[d ++ ".md"]⟩, "") := by
  constructor
  · exact fun j mem group => ⟨Site.source_of_docs mem group, rewrite_root_docs _⟩
  · intro d folder name has
    have named : Path.name ⟨[d, "README.md"]⟩ = "README.md" := rfl
    refine ⟨Site.goesTo_docs has (by simp) ?_ ?_, resolve_docs_section name⟩
    · rw [hasEnding, named]
      decide
    · rw [isExcluded, named]
      decide

/-- A package with an index of its documents, and with one of a section. -/
def indexedPackage : FileTree :=
  ⟨[(⟨["pkg", "docs", "README.md"]⟩, .file []),
    (⟨["pkg", "docs", "developer-guide", "README.md"]⟩, .file [])]⟩

theorem rewrite_index_indexedPackage :
    ⟨⟨["pkg", "docs", "README.md"]⟩, ⟨["README.md"]⟩, .docs⟩ ∈ jobs indexedPackage ⟨["pkg"]⟩ ∧
    (Group.root.rewrite ("docs/" ++ Path.toString ⟨["README.md"]⟩) =
        "/" ++ Path.toString ⟨["README.md"]⟩ ↔
      ¬ "README.md".toList <:+: (Path.toString ⟨["README.md"]⟩).toList) ∧
    GoesTo indexedPackage ⟨["pkg"]⟩ ⟨["pkg", "docs", "developer-guide", "README.md"]⟩
      ⟨["developer-guide", "README.md"]⟩ ∧
    resolve ⟨["user-guide"]⟩ (Group.docs.rewrite "../developer-guide/README.md") =
      (⟨["developer-guide.md"]⟩, "") := by
  have mem : ⟨⟨["pkg", "docs", "README.md"]⟩, ⟨["README.md"]⟩, .docs⟩ ∈
      jobs indexedPackage ⟨["pkg"]⟩ :=
    Site.mem_jobs_docs (by decide) (by decide) (by decide) (by decide)
  obtain ⟨pages, sections⟩ := rewrite_index indexedPackage ⟨["pkg"]⟩
  exact ⟨mem, (pages _ mem rfl).2,
    sections "developer-guide" "user-guide" (by decide) (by decide)⟩

/-- The links to an index do not lead to its page. -/
theorem rewrite_misses_index :
    GoesTo indexedPackage ⟨["pkg"]⟩ ⟨["pkg", "docs", "README.md"]⟩ ⟨["README.md"]⟩ ∧
    Group.root.rewrite "docs/README.md" ≠ "/" ++ Path.toString ⟨["README.md"]⟩ ∧
    GoesTo indexedPackage ⟨["pkg"]⟩ ⟨["pkg", "docs", "developer-guide", "README.md"]⟩
      ⟨["developer-guide", "README.md"]⟩ ∧
    (resolve ⟨["user-guide"]⟩ (Group.docs.rewrite "../developer-guide/README.md")).1 ≠
      ⟨["developer-guide", "README.md"]⟩ := by
  refine ⟨?_, by decide, ?_, by decide⟩
  · exact Site.goesTo_docs (by decide) (by decide) (by decide) (by decide)
  · exact Site.goesTo_docs (by decide) (by decide) (by decide) (by decide)

end Docsite.Link
