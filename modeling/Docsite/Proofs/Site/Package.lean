import Docsite.Proofs.Site.Run

/-!
# Docsite.Proofs.Site.Package

What a run reads of a package.

The documents and the images stand in the package (`within_of_mem_jobs`, `IsImage.within`), so they
are as they were as long as the package is (`images_congr`).  A package without some of its
documents has just the others (`jobs_without`).
-/

namespace Docsite.Site

open Files (Path FileTree)

variable {t u : FileTree} {source p : Path} {j : Job} {keep : Path → Bool}

/-! ## places in the package -/

theorem isWithin_trans {p d e : Path} (h : p.isWithin d = true) (h' : d.isWithin e = true) :
    p.isWithin e = true := by
  rw [Path.isWithin_iff] at *
  exact ⟨h'.1.trans h.1, h.2.trans h'.2⟩

theorem child_isWithin {name : String} (other : name ≠ "/") (p : Path) :
    (p.child name).isWithin p = true := by
  refine Path.isWithin_iff.mpr ⟨List.prefix_append _ _, ?_⟩
  cases h : p.names with
  | nil => simp [Path.isAbsolute, Path.child, h, other]
  | cons n ns => simp [Path.isAbsolute, Path.child, h]

theorem eq_child (named : p.names ≠ []) : p = p.parent.child p.name := by
  obtain ⟨names⟩ := p
  obtain ⟨front, last, rfl⟩ := List.eq_nil_or_concat names |>.resolve_left named
  simp [Path.parent, Path.child, Path.name]

theorem get?_ne_none_of_mem (mem : p ∈ t.entries.map Prod.fst) : t.get? p ≠ none := by
  rw [FileTree.get?]
  split
  · exact Option.some_ne_none _
  · rw [← Option.isSome_iff_ne_none, List.lookup_isSome_iff]
    obtain ⟨entry, is, rfl⟩ := List.mem_map.mp mem
    exact ⟨entry, is, beq_self_eq_true _⟩

/-- A path directly in a directory, with an ending of its name, is below the directory. -/
theorem below_of_parent {ending : String} (other : ¬ending.toList <:+ ['/'])
    (named : p.names ≠ []) (parent : p.parent = source) (ends : hasEnding ending p = true) :
    p.isWithin source = true ∧ p ≠ source := by
  have slash : p.name ≠ "/" := by
    intro is
    rw [hasEnding, is, List.isSuffixOf_iff_suffix] at ends
    exact other ends
  rw [eq_child named, parent]
  refine ⟨child_isWithin slash source, fun same => ?_⟩
  have := congrArg (fun p => p.names.length) same
  simp [Path.child] at this

/-- A document is a Markdown file below the package. -/
theorem within_of_mem_jobs (mem : j ∈ jobs t source) :
    j.source.isWithin source = true ∧ j.source ≠ source ∧ t.get? j.source ≠ none ∧
      hasEnding ".md" j.source = true := by
  have below {d : Path} (inside : d.isWithin source = true)
      (within : j.source.isWithin d = true) (other : j.source ≠ d) : j.source ≠ source := by
    rintro same
    rw [Path.isWithin_iff] at inside within
    rw [same] at within other
    have is := inside.1.eq_of_length_le within.1.length_le
    exact other (congrArg Files.Path.mk is)
  have docs : (source.child "docs").isWithin source = true := child_isWithin (by decide) source
  have rules : ((source.child "lib").child "rules").isWithin source = true :=
    isWithin_trans (child_isWithin (by decide) _) (child_isWithin (by decide) source)
  simp only [jobs, List.mem_append, rootJobs, docsJobs, ruleJobs, List.mem_map,
    List.mem_filter, mem_list, mem_listAll] at mem
  obtain (⟨p, ⟨⟨mem, named, parent⟩, ends⟩, rfl⟩ | ⟨p, ⟨⟨mem, within, other⟩, ends⟩, rfl⟩) |
    ⟨p, ⟨⟨mem, within, other⟩, ends⟩, rfl⟩ := mem
  · obtain ⟨within, other⟩ := below_of_parent (by decide) named parent ends
    exact ⟨within, other, get?_ne_none_of_mem (List.mem_map.mpr mem), ends⟩
  · rw [Bool.and_eq_true] at ends
    exact ⟨isWithin_trans within docs, below docs within other,
      get?_ne_none_of_mem (List.mem_map.mpr mem), ends.1⟩
  · exact ⟨isWithin_trans within rules, below rules within other,
      get?_ne_none_of_mem (List.mem_map.mpr mem), ends⟩

/-- The group of the document at a place in the package. -/
def groupOf (relative : Path) : Link.Group :=
  match relative.names with
  | [_] => .root
  | "docs" :: _ => .docs
  | _ => .rule

/-- The place of a document alone decides on its group. -/
theorem group_eq_groupOf (mem : j ∈ jobs t source) :
    j.group = groupOf (j.source.relativeTo source) := by
  simp only [jobs, List.mem_append, rootJobs, docsJobs, ruleJobs, List.mem_map,
    List.mem_filter, mem_list, mem_listAll] at mem
  obtain (⟨p, ⟨⟨-, named, rfl⟩, -⟩, rfl⟩ | ⟨p, ⟨⟨-, within, other⟩, -⟩, rfl⟩) |
    ⟨p, ⟨⟨-, within, -⟩, -⟩, rfl⟩ := mem
  · rw [eq_child named]
    simp [Path.relativeTo, Path.child, Path.parent, groupOf]
  · rw [← append_relativeTo within] at other ⊢
    generalize p.relativeTo (source.child "docs") = rest at other ⊢
    obtain ⟨_ | ⟨name, names⟩⟩ := rest
    · exact absurd (congrArg Files.Path.mk (List.append_nil _)) other
    · simp [Path.relativeTo, Path.child, groupOf]
  · rw [← append_relativeTo within]
    generalize p.relativeTo ((source.child "lib").child "rules") = rest
    simp [Path.relativeTo, Path.child, groupOf]

/-- A place in the package holds one document. -/
theorem eq_of_source_eq {k : Job} (mem : j ∈ jobs t source) (mem' : k ∈ jobs t source)
    (same : j.source = k.source) : j = k := by
  have output : j.output = k.output := by
    rw [output_eq_pageOf mem, same, output_eq_pageOf mem']
  have group : j.group = k.group := by
    rw [group_eq_groupOf mem, same, group_eq_groupOf mem']
  cases j
  cases k
  simp_all

/-- Is an image expected at a path?  It is at the names with the ending, directly in the package. -/
structure IsImage (source p : Path) : Prop where
  named : p.names ≠ []
  parent : p.parent = source
  ends : hasEnding ".png" p = true

/-- An image is in the package. -/
theorem IsImage.within (image : IsImage source p) : p.isWithin source = true :=
  (below_of_parent (by decide) image.named image.parent image.ends).1

theorem mem_images : p ∈ images t source ↔ p ∈ t.entries.map Prod.fst ∧ IsImage source p := by
  rw [images, List.mem_filter, mem_list]
  exact ⟨fun ⟨⟨mem, named, parent⟩, ends⟩ => ⟨mem, named, parent, ends⟩,
    fun ⟨mem, named, parent, ends⟩ => ⟨⟨mem, named, parent⟩, ends⟩⟩

theorem get?_of_mem_images (mem : p ∈ images t source) : t.get? p ≠ none :=
  get?_ne_none_of_mem (mem_images.mp mem).1

/-- An image is no document. -/
theorem not_markdown_of_image (ends : hasEnding ".png" p = true) : hasEnding ".md" p = false := by
  rw [Bool.eq_false_iff]
  intro ends'
  rw [hasEnding, List.isSuffixOf_iff_suffix] at ends ends'
  exact absurd (List.suffix_of_suffix_length_le ends' ends (by decide)) (by decide)

/-! ## what is left of a package -/

/-- The images are those of any file system that has the same entries in the package. -/
theorem images_congr (same : FileTree.SameOn keep u t)
    (kept : ∀ p, IsImage source p → keep p = true) : images u source = images t source := by
  rw [images, images, FileTree.filter_list, FileTree.filter_list]
  congr 1
  refine same.filter_paths fun p is => ?_
  obtain ⟨ends, named, parent⟩ : hasEnding ".png" p = true ∧ p.names ≠ [] ∧ p.parent = source := by
    simpa using is
  exact kept p ⟨named, parent, ends⟩

/-- Without some documents the others are left. -/
theorem jobs_without (t : FileTree) (source : Path) (removed : List Path) :
    jobs (t.without removed) source =
      (jobs t source).filter fun j => !removed.contains j.source := by
  have through (ps : List Path) (keep : Path → Bool) (job : Path → Job)
      (own : ∀ p, (job p).source = p) :
      ((ps.filter fun q => !removed.contains q).filter keep).map job =
        ((ps.filter keep).map job).filter fun j => !removed.contains j.source := by
    rw [List.filter_map, List.filter_filter, List.filter_filter]
    congr 2
    funext p
    rw [Function.comp, own, Bool.and_comm]
  simp only [jobs, rootJobs, docsJobs, ruleJobs, FileTree.list_without, FileTree.listAll_without,
    List.filter_append]
  rw [through _ _ _ fun _ => rfl, through _ _ _ fun _ => rfl, through _ _ _ fun _ => rfl]

end Docsite.Site
