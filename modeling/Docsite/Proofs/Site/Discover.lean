import Docsite.Site.Discover

/-!
# Docsite.Proofs.Site.Discover

Where the documents of a package go.

The three groups of documents stand in places that have no path in common, so the place of a
document alone decides on its page (`output_eq_pageOf`): a document at the root of the package
stays there (`goesTo_root`), one below `docs/` keeps its path (`goesTo_docs`), and one below
`lib/rules/` goes to the page of its rule (`goesTo_rule`).
-/

namespace Docsite.Site

open Files (Path FileTree)

variable {t : FileTree} {source rest : Path} {j : Job}

/-- The package has the document, and wherever the document is listed it goes to the page. -/
def GoesTo (t : FileTree) (source p page : Path) : Prop :=
  (∃ j ∈ jobs t source, j.source = p) ∧ ∀ j ∈ jobs t source, j.source = p → j.output = page

/-! ## paths in a file tree -/

/-- What is there is one of the entries, unless it is always there. -/
theorem mem_entries_of_has {p : Path} (has : t.has p = true)
    (free : FileTree.isFixed p = false) : p ∈ t.entries.map Prod.fst := by
  rw [FileTree.has, FileTree.get?, free, if_neg Bool.false_ne_true, List.lookup_isSome_iff] at has
  obtain ⟨entry, mem, same⟩ := has
  rw [beq_iff_eq] at same
  exact List.mem_map.mpr ⟨entry, mem, same.symm⟩

theorem mem_list {p d : Path} :
    p ∈ t.list d ↔ p ∈ t.entries.map Prod.fst ∧ p.names ≠ [] ∧ p.parent = d := by
  simp [FileTree.list, List.mem_filter]

theorem mem_listAll {p d : Path} :
    p ∈ t.listAll d ↔ p ∈ t.entries.map Prod.fst ∧ p.isWithin d = true ∧ p ≠ d := by
  simp [FileTree.listAll, List.mem_filter]

/-- A path within a directory is the directory's with the rest behind it. -/
theorem append_relativeTo {p d : Path} (within : p.isWithin d = true) :
    d ++ p.relativeTo d = p := by
  rw [Path.isWithin, Bool.and_eq_true, List.isPrefixOf_iff_prefix] at within
  obtain ⟨rest, names⟩ := within.1
  cases p
  simp only at names
  subst names
  exact congrArg Files.Path.mk (by simp [Path.relativeTo])

/-- A path below a directory that has a name is no place where a directory always stands. -/
theorem isFixed_below (d : Path) (name : String) (some : rest.names ≠ []) :
    FileTree.isFixed (d.child name ++ rest) = false := by
  have long : 2 ≤ (d.child name ++ rest).names.length := by
    have := List.length_pos_iff.mpr some
    simp only [Path.names_append, Path.child, List.length_append, List.length_singleton]
    omega
  rw [FileTree.isFixed, Bool.or_eq_false_iff, beq_eq_false_iff_ne, beq_eq_false_iff_ne]
  constructor <;> intro is <;> simp [is] at long

theorem listed_below {d : Path} {name : String} (has : t.has (d.child name ++ rest) = true)
    (some : rest.names ≠ []) : d.child name ++ rest ∈ t.listAll (d.child name) := by
  refine mem_listAll.mpr ⟨mem_entries_of_has has (isFixed_below d name some), ?_, ?_⟩
  · exact Path.isWithin_append (by simp [Path.child]) rest
  · intro same
    have names := congrArg Path.names same
    simp [some] at names

theorem name_below (d : Path) (some : rest.names ≠ []) : (d ++ rest).name = rest.name := by
  obtain ⟨names⟩ := rest
  obtain ⟨front, last, rfl⟩ := List.eq_nil_or_concat names |>.resolve_left some
  simp [Path.name, ← List.append_assoc]

/-! ## pages -/

/-- The page of the document at a place in the package. -/
def pageOf (relative : Path) : Path :=
  match relative.names with
  | [name] => rootOutput ⟨[name]⟩
  | "docs" :: rest => ⟨rest⟩
  | "lib" :: "rules" :: rest => ruleOutput ⟨rest⟩
  | _ => relative

/-- The place of a document alone decides on its page. -/
theorem output_eq_pageOf (mem : j ∈ jobs t source) :
    j.output = pageOf (j.source.relativeTo source) := by
  simp only [jobs, List.mem_append, rootJobs, docsJobs, ruleJobs, List.mem_map,
    List.mem_filter, mem_list, mem_listAll] at mem
  obtain (⟨p, ⟨⟨-, some, rfl⟩, -⟩, rfl⟩ | ⟨p, ⟨⟨-, within, other⟩, -⟩, rfl⟩) |
    ⟨p, ⟨⟨-, within, -⟩, -⟩, rfl⟩ := mem
  · obtain ⟨names⟩ := p
    obtain ⟨front, last, rfl⟩ := List.eq_nil_or_concat names |>.resolve_left some
    simp [Path.parent, Path.relativeTo, pageOf]
  · rw [← append_relativeTo within] at other ⊢
    generalize p.relativeTo (source.child "docs") = rest at other ⊢
    obtain ⟨_ | ⟨name, names⟩⟩ := rest
    · exact absurd (congrArg Files.Path.mk (List.append_nil _)) other
    · simp [Path.relativeTo, Path.child, pageOf]
  · rw [← append_relativeTo within]
    generalize p.relativeTo ((source.child "lib").child "rules") = rest
    simp [Path.relativeTo, Path.child, pageOf]

/-- A document of the group under `docs/` is one below that folder, and keeps its path there. -/
theorem source_of_docs (mem : j ∈ jobs t source) (group : j.group = .docs) :
    j.source = source.child "docs" ++ j.output := by
  simp only [jobs, List.mem_append, rootJobs, docsJobs, ruleJobs, List.mem_map,
    List.mem_filter, mem_listAll] at mem
  obtain (⟨p, -, rfl⟩ | ⟨p, ⟨⟨-, within, -⟩, -⟩, rfl⟩) | ⟨p, -, rfl⟩ := mem
  · contradiction
  · exact (append_relativeTo within).symm
  · contradiction

theorem goesTo_of_mem (mem : j ∈ jobs t source) : GoesTo t source j.source j.output :=
  ⟨⟨j, mem, rfl⟩, fun k mem' same => by rw [output_eq_pageOf mem', same, output_eq_pageOf mem]⟩

/-- A root document goes to the page of its name. -/
theorem goesTo_root {name : String} (has : t.has (source.child name) = true)
    (markdown : hasEnding ".md" (source.child name) = true) :
    GoesTo t source (source.child name) (rootOutput ⟨[name]⟩) := by
  have free : FileTree.isFixed (source.child name) = false := by
    rw [Bool.eq_false_iff]
    intro fixed
    have names : source.names ++ [name] = ["/"] := by
      simpa [FileTree.isFixed, Path.child] using fixed
    obtain rfl : name = "/" := by simpa using congrArg List.getLast? names
    rw [hasEnding, Path.name_child] at markdown
    exact absurd markdown (by decide)
  have listed : source.child name ∈ t.list source :=
    mem_list.mpr ⟨mem_entries_of_has has free, by simp [Path.child], Path.parent_child source name⟩
  have mem : ⟨source.child name, rootOutput ⟨[name]⟩, .root⟩ ∈ jobs t source := by
    simp only [jobs, rootJobs, List.mem_append, List.mem_map, List.mem_filter]
    have rest : (source.child name).relativeTo source = ⟨[name]⟩ := by
      simp [Path.relativeTo, Path.child]
    exact .inl (.inl ⟨_, ⟨listed, markdown⟩, by rw [rest]⟩)
  exact goesTo_of_mem mem

theorem mem_jobs_docs (has : t.has (source.child "docs" ++ rest) = true) (some : rest.names ≠ [])
    (markdown : hasEnding ".md" rest = true) (page : isExcluded rest = false) :
    ⟨source.child "docs" ++ rest, rest, .docs⟩ ∈ jobs t source := by
  have kept : (hasEnding ".md" (source.child "docs" ++ rest) &&
      !isExcluded (source.child "docs" ++ rest)) = true := by
    rw [hasEnding, isExcluded, name_below _ some, Bool.and_eq_true]
    exact ⟨markdown, by rw [← isExcluded, page]; rfl⟩
  simp only [jobs, docsJobs, List.mem_append, List.mem_map, List.mem_filter]
  exact .inl (.inr ⟨_, ⟨listed_below has some, kept⟩, by rw [Path.relativeTo_append]⟩)

/-- A document below `docs/` keeps its path. -/
theorem goesTo_docs (has : t.has (source.child "docs" ++ rest) = true) (some : rest.names ≠ [])
    (markdown : hasEnding ".md" rest = true) (page : isExcluded rest = false) :
    GoesTo t source (source.child "docs" ++ rest) rest :=
  goesTo_of_mem (mem_jobs_docs has some markdown page)

/-- A document below `lib/rules/` goes to the page of its rule. -/
theorem goesTo_rule (has : t.has ((source.child "lib").child "rules" ++ rest) = true)
    (some : rest.names ≠ []) (markdown : hasEnding ".md" rest = true) :
    GoesTo t source ((source.child "lib").child "rules" ++ rest) (ruleOutput rest) := by
  have kept : hasEnding ".md" ((source.child "lib").child "rules" ++ rest) = true := by
    rw [hasEnding, name_below _ some]
    exact markdown
  have mem : ⟨(source.child "lib").child "rules" ++ rest, ruleOutput rest, .rule⟩ ∈
      jobs t source := by
    simp only [jobs, ruleJobs, List.mem_append, List.mem_map, List.mem_filter]
    exact .inr ⟨_, ⟨listed_below has some, kept⟩, by rw [Path.relativeTo_append]⟩
  exact goesTo_of_mem mem

end Docsite.Site
