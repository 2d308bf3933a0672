import Docsite.Proofs.Link.Target
import Docsite.Proofs.Site.Package

/-!
# Docsite.Proofs.Site.Pages

Documents of one group that go to the same page.

A document under `docs/` keeps its path, so no two of that group do.  At the root a piece of the
name is replaced, and among the rules an index is joined to its folder (`ruleOutput_eq`), so there
two documents can: one whose name has the piece, and one that bears the new name already
(`output_clash`).
-/

namespace Docsite.Site

open Files (Path FileTree)

/-! ## an index joined to its folder -/

/-- The names of a path as texts. -/
def words (p : Path) : List (List Char) := p.names.map String.toList

/-- A text that can be the name of a file. -/
def IsFileName (w : List Char) : Prop := w ≠ [] ∧ w ≠ ['.'] ∧ '/' ∉ w

instance (w : List Char) : Decidable (IsFileName w) :=
  inferInstanceAs (Decidable (w ≠ [] ∧ w ≠ ['.'] ∧ '/' ∉ w))

/-- The first name that begins like an index is joined to the one before it. -/
def joinIndex : List (List Char) → List (List Char)
  | a :: b :: rest =>
    if "README.md".toList <+: b then (a ++ (".md".toList ++ b.drop 9)) :: rest
    else a :: joinIndex (b :: rest)
  | ws => ws

variable {a b u v : List Char} {ws xs ys : List (List Char)} {p q : Path}

theorem joinIndex_begun (s : List Char) :
    joinIndex (a :: ("README.md".toList ++ s) :: ws) = (a ++ (".md".toList ++ s)) :: ws := by
  rw [joinIndex, if_pos (List.prefix_append _ _)]
  rfl

theorem joinIndex_other (other : ¬ "README.md".toList <+: b) :
    joinIndex (a :: b :: ws) = a :: joinIndex (b :: ws) := by
  rw [joinIndex, if_neg other]

/-- A name has an index behind it that is joined to it, or it stays. -/
theorem joinIndex_cons (a : List Char) (ws : List (List Char)) :
    (∃ s rest, ws = ("README.md".toList ++ s) :: rest ∧
      joinIndex (a :: ws) = (a ++ (".md".toList ++ s)) :: rest) ∨
    joinIndex (a :: ws) = a :: joinIndex ws := by
  cases ws with
  | nil => exact .inr rfl
  | cons b ws =>
    by_cases index : "README.md".toList <+: b
    · obtain ⟨s, rfl⟩ := index
      exact .inl ⟨s, ws, rfl, joinIndex_begun s⟩
    · exact .inr (joinIndex_other index)

theorem joinIndex_ne_nil (a : List Char) (ws : List (List Char)) : joinIndex (a :: ws) ≠ [] := by
  rcases joinIndex_cons a ws with ⟨s, rest, -, is⟩ | is <;> rw [is] <;> exact List.cons_ne_nil _ _

theorem intercalate_append_cons (u v : List Char) (ws : List (List Char)) :
    ['/'].intercalate ((u ++ v) :: ws) = u ++ ['/'].intercalate (v :: ws) := by
  cases ws with
  | nil => rw [List.intercalate_singleton, List.intercalate_singleton]
  | cons w ws => simp only [List.intercalate_cons_cons, List.append_assoc]

theorem prefix_of_prefix_intercalate (absent : '/' ∉ u)
    (begins : u <+: ['/'].intercalate (b :: ws)) : u <+: b := by
  cases ws with
  | nil => rwa [List.intercalate_singleton] at begins
  | cons w ws =>
    rw [List.intercalate_cons_cons, List.append_assoc] at begins
    rcases List.prefix_or_prefix_of_prefix begins (List.prefix_append _ _) with h | ⟨d, rfl⟩
    · exact h
    · rw [List.prefix_append_right_inj] at begins
      cases d with
      | nil => simp
      | cons c d =>
        obtain rfl : c = '/' := (List.cons_prefix_cons.mp begins).1
        simp at absent

/-- In the text of a path, replacing an index joins it to its folder. -/
theorem replaceFirst_intercalate (absent : ∀ w ∈ ws, '/' ∉ w) :
    Text.replaceFirst "/README.md".toList ".md".toList (['/'].intercalate ws) =
      ['/'].intercalate (joinIndex ws) := by
  induction ws with
  | nil => rfl
  | cons a ws ih =>
    obtain ⟨own, absent⟩ := List.forall_mem_cons.mp absent
    have old : "/README.md".toList = '/' :: "README.md".toList := rfl
    cases ws with
    | nil =>
      rw [List.intercalate_singleton, joinIndex, List.intercalate_singleton,
        Text.replaceFirst_of_notMem (c := '/') (by simp) own]
      simp
    | cons b ws =>
      rw [List.intercalate_cons_cons, List.append_assoc, old, Text.replaceFirst_skip own]
      by_cases index : "README.md".toList <+: b
      · obtain ⟨s, rfl⟩ := index
        rw [joinIndex_begun, intercalate_append_cons, intercalate_append_cons,
          intercalate_append_cons]
        exact congrArg (a ++ ·) (Text.replaceFirst_append (by simp) ".md".toList _)
      · have other : ¬ "/README.md".toList <+: '/' :: ['/'].intercalate (b :: ws) := by
          rw [old, List.cons_prefix_cons]
          exact fun h => index (prefix_of_prefix_intercalate (by simp) h.2)
        rw [joinIndex_other index, List.singleton_append, ← old,
          Text.replaceFirst_cons other, ih absent,
          List.intercalate_cons_of_ne_nil (joinIndex_ne_nil b ws), List.append_assoc,
          List.singleton_append]

theorem IsFileName.join {s : List Char} (name : IsFileName a) (slash : '/' ∉ s) :
    IsFileName (a ++ (".md".toList ++ s)) := by
  refine ⟨by simp, fun is => ?_, ?_⟩
  · have length := congrArg List.length is
    have three : ".md".toList.length = 3 := rfl
    rw [List.length_append, List.length_append, three, List.length_singleton] at length
    omega
  · simp [name.2.2, slash]

theorem isFileName_of_mem_joinIndex (named : ∀ w ∈ ws, IsFileName w) :
    ∀ w ∈ joinIndex ws, IsFileName w := by
  induction ws with
  | nil => exact named
  | cons a ws ih =>
    obtain ⟨own, named⟩ := List.forall_mem_cons.mp named
    rcases joinIndex_cons a ws with ⟨s, rest, rfl, is⟩ | is <;> rw [is]
    · obtain ⟨⟨-, -, slash⟩, named⟩ := List.forall_mem_cons.mp named
      exact List.forall_mem_cons.mpr ⟨own.join (by simpa using slash), named⟩
    · exact List.forall_mem_cons.mpr ⟨own, ih named⟩

/-- A text of names with slashes between them spells the path of those names. -/
theorem ofString_intercalate (some : ws ≠ []) (named : ∀ w ∈ ws, IsFileName w) :
    Path.ofString (.ofList (['/'].intercalate ws)) = ⟨ws.map .ofList⟩ := by
  have start : (['/'].intercalate ws).head? ≠ Option.some '/' := by
    obtain ⟨w, rest, rfl⟩ := List.exists_cons_of_ne_nil some
    obtain ⟨c, cs, rfl⟩ := List.exists_cons_of_ne_nil (named w (by simp)).1
    have slash := (named (c :: cs) (by simp)).2.2
    cases rest with
    | nil => simp_all [List.intercalate_singleton, eq_comm]
    | cons v rest => simp_all [List.intercalate_cons_cons, eq_comm]
  have all : ∀ w ∈ ws, (!w.isEmpty && w != ['.']) = true := by
    intro w mem
    obtain ⟨filled, dot, -⟩ := named w mem
    simp [filled, dot]
  rw [Path.ofString, String.toList_ofList,
    Text.splitAt_intercalate some fun w mem => (named w mem).2.2, List.filter_eq_self.mpr all]
  simp [start]

/-- Where a rule document goes: below `user-guide/rules/`, an index joined to its folder. -/
theorem ruleOutput_eq (some : p.names ≠ []) (named : ∀ w ∈ words p, IsFileName w) :
    ruleOutput p =
      ⟨(joinIndex ("user-guide".toList :: "rules".toList :: words p)).map .ofList⟩ := by
  have text : ("user-guide/rules/" ++ p.toString).toList =
      ['/'].intercalate ("user-guide".toList :: "rules".toList :: words p) := by
    obtain ⟨names⟩ := p
    obtain ⟨n, ns, rfl⟩ := List.exists_cons_of_ne_nil some
    have relative : n ≠ "/" := by
      rintro rfl
      exact (named "/".toList (by simp [words])).2.2 (by simp)
    rw [Link.toString_relative relative, String.toList_append, String.toList_intercalate, words]
    simp [List.intercalate_cons_cons]
  have all : ∀ w ∈ "user-guide".toList :: "rules".toList :: words p, IsFileName w :=
    List.forall_mem_cons.mpr ⟨by decide, List.forall_mem_cons.mpr ⟨by decide, named⟩⟩
  rw [ruleOutput, text, replaceFirst_intercalate fun w mem => (all w mem).2.2,
    ofString_intercalate (joinIndex_ne_nil _ _) (isFileName_of_mem_joinIndex all)]

/-! ## documents that go to the same page -/

/-- One list of names has an index where the other has a name that begins like the page of the
index. -/
def IndexClash (xs ys : List (List Char)) : Prop :=
  ∃ front a s rest u rest', xs = front ++ a :: ("README.md".toList ++ s) :: rest ∧
    ys = front ++ (a ++ (".md".toList ++ u)) :: rest'

/-- One name has the piece that is replaced where the other has what it is replaced by. -/
def NameClash (x y : List Char) : Prop :=
  ∃ a b u, x = a ++ ("README.md".toList ++ b) ∧ y = a ++ ("index.md".toList ++ u)

theorem IndexClash.cons (w : List Char) (clash : IndexClash xs ys) :
    IndexClash (w :: xs) (w :: ys) := by
  obtain ⟨front, a, s, rest, u, rest', rfl, rfl⟩ := clash
  exact ⟨w :: front, a, s, rest, u, rest', rfl, rfl⟩

theorem IndexClash.of_cons {w : List Char} (clash : IndexClash (w :: xs) (w :: ys)) :
    IndexClash xs ys := by
  obtain ⟨front, a, s, rest, u, rest', is, is'⟩ := clash
  cases front with
  | nil =>
    obtain ⟨rfl, -⟩ := List.cons.inj is
    have length := congrArg List.length (List.cons.inj is').1
    have three : ".md".toList.length = 3 := rfl
    rw [List.length_append, List.length_append, three] at length
    omega
  | cons v front =>
    exact ⟨front, a, s, rest, u, rest', (List.cons.inj is).2, (List.cons.inj is').2⟩

/-- Names that are different, and the same when an index is joined. -/
theorem indexClash_of_joinIndex_eq (same : joinIndex xs = joinIndex ys) :
    xs = ys ∨ IndexClash xs ys ∨ IndexClash ys xs := by
  have borderless : Text.Borderless ".md".toList := by decide
  induction xs generalizing ys with
  | nil =>
    cases ys with
    | nil => exact .inl rfl
    | cons c ys => exact absurd same.symm (joinIndex_ne_nil c ys)
  | cons a xs ih =>
    cases ys with
    | nil => exact absurd same (joinIndex_ne_nil a xs)
    | cons c ys =>
      rcases joinIndex_cons a xs with ⟨s, rest, rfl, is⟩ | is <;>
      rcases joinIndex_cons c ys with ⟨s', rest', rfl, is'⟩ | is' <;>
      rw [is, is'] at same <;> obtain ⟨head, tail⟩ := List.cons.inj same
      · -- Both are joined.  As `.md` does not overlap itself, the folders are the same, or one
        -- begins with the page of the other.
        rcases borderless.cut head with ⟨rfl, rfl⟩ | ⟨u, rfl⟩ | ⟨u, rfl⟩
        · exact .inl (by rw [tail])
        · exact .inr (.inl ⟨[], a, s, rest, u, _, rfl, by rw [List.append_assoc]; rfl⟩)
        · exact .inr (.inr ⟨[], c, s', rest', u, _, rfl, by rw [List.append_assoc]; rfl⟩)
      · exact .inr (.inl ⟨[], a, s, rest, s, ys, rfl, by rw [head]; rfl⟩)
      · exact .inr (.inr ⟨[], c, s', rest', s', xs, rfl, by rw [head]; rfl⟩)
      · subst head
        rcases ih tail with rfl | clash | clash
        · exact .inl rfl
        · exact .inr (.inl (clash.cons a))
        · exact .inr (.inr (clash.cons a))

/-- Names that are different, and the same when the piece is replaced. -/
theorem nameClash_of_replaceFirst_eq {x y : List Char}
    (same : Text.replaceFirst "README.md".toList "index.md".toList x =
      Text.replaceFirst "README.md".toList "index.md".toList y) :
    x = y ∨ NameClash x y ∨ NameClash y x := by
  have borderless : Text.Borderless "index.md".toList := by decide
  have found := Text.replaceFirst_cases (show "README.md".toList ≠ [] by simp) "index.md".toList
  rcases found x with is | ⟨a, b, rfl, is⟩ <;> rcases found y with is' | ⟨c, d, rfl, is'⟩ <;>
  rw [is, is'] at same
  · exact .inl same
  · exact .inr (.inr ⟨c, d, d, rfl, same⟩)
  · exact .inr (.inl ⟨a, b, b, rfl, same.symm⟩)
  · rcases borderless.cut same with ⟨rfl, rfl⟩ | ⟨u, rfl⟩ | ⟨u, rfl⟩
    · exact .inl rfl
    · exact .inr (.inl ⟨a, b, _, rfl, by rw [List.append_assoc, List.append_assoc]⟩)
    · exact .inr (.inr ⟨c, d, _, rfl, by rw [List.append_assoc, List.append_assoc]⟩)

theorem IndexClash.append (front : List (List Char)) (clash : IndexClash xs ys) :
    IndexClash (front ++ xs) (front ++ ys) := by
  induction front with
  | nil => exact clash
  | cons w front ih => exact ih.cons w

theorem words_append (p q : Path) : words (p ++ q) = words p ++ words q := List.map_append

theorem words_injective (same : words p = words q) : p = q := by
  obtain ⟨ps⟩ := p
  obtain ⟨qs⟩ := q
  exact congrArg Files.Path.mk ((List.map_inj_right fun _ _ => String.toList_inj.mp).mp same)

variable {t : FileTree} {source : Path} {j k : Job}

/-- A root document stands in the package itself. -/
theorem of_mem_root (mem : j ∈ jobs t source) (group : j.group = .root) :
    j.source = source.child j.source.name ∧ j.output = ⟨[.ofList
      (Text.replaceFirst "README.md".toList "index.md".toList j.source.name.toList)]⟩ := by
  simp only [jobs, List.mem_append, rootJobs, docsJobs, ruleJobs, List.mem_map,
    List.mem_filter, mem_list] at mem
  obtain (⟨p, ⟨⟨-, named, rfl⟩, -⟩, rfl⟩ | ⟨p, -, rfl⟩) | ⟨p, -, rfl⟩ := mem
  · refine ⟨eq_child named, ?_⟩
    have relative : p.relativeTo p.parent = ⟨[p.name]⟩ := by
      rw [eq_child named, Path.parent_child, Path.name_child]
      simp [Path.relativeTo, Path.child]
    rw [relative]
    rfl
  · contradiction
  · contradiction

/-- A rule document stands below `lib/rules/`. -/
theorem of_mem_rule (mem : j ∈ jobs t source) (group : j.group = .rule) :
    ∃ rest : Path, rest.names ≠ [] ∧ j.source = (source.child "lib").child "rules" ++ rest ∧
      j.output = ruleOutput rest := by
  simp only [jobs, List.mem_append, rootJobs, docsJobs, ruleJobs, List.mem_map,
    List.mem_filter, mem_listAll] at mem
  obtain (⟨p, -, rfl⟩ | ⟨p, -, rfl⟩) | ⟨p, ⟨⟨-, within, other⟩, -⟩, rfl⟩ := mem
  · contradiction
  · contradiction
  · refine ⟨_, fun none => other ?_, (append_relativeTo within).symm, rfl⟩
    rw [← append_relativeTo within]
    exact Path.append_eq_self _ none

/-- **Documents of one group that go to the same page.**  At the root the name of one has the piece
that is replaced where the name of the other has the new one, and among the rules one is an index
where the path of the other has the name of its page; under `docs/` there are none. -/
theorem output_clash (named : ∀ j ∈ jobs t source, ∀ w ∈ words (j.source.relativeTo source),
      IsFileName w)
    (mem : j ∈ jobs t source) (mem' : k ∈ jobs t source) (group : j.group = k.group)
    (other : j.source ≠ k.source) (output : j.output = k.output) :
    (j.group = .root ∧ (NameClash j.source.name.toList k.source.name.toList ∨
      NameClash k.source.name.toList j.source.name.toList)) ∨
    (j.group = .rule ∧ (IndexClash (words j.source) (words k.source) ∨
      IndexClash (words k.source) (words j.source))) := by
  cases own : j.group with
  | root =>
    obtain ⟨source_j, output_j⟩ := of_mem_root mem own
    obtain ⟨source_k, output_k⟩ := of_mem_root mem' (group ▸ own)
    rw [output_j, output_k, Files.Path.mk.injEq, List.singleton_inj, String.ofList_inj] at output
    refine .inl ⟨rfl, (nameClash_of_replaceFirst_eq output).resolve_left fun same => other ?_⟩
    rw [source_j, source_k, String.toList_inj.mp same]
  | docs =>
    refine absurd ?_ other
    rw [source_of_docs mem own, source_of_docs mem' (group ▸ own), output]
  | rule =>
    obtain ⟨p, some, source_j, output_j⟩ := of_mem_rule mem own
    obtain ⟨q, some', source_k, output_k⟩ := of_mem_rule mem' (group ▸ own)
    have names {j : Job} {p : Path} (mem : j ∈ jobs t source)
        (is : j.source = (source.child "lib").child "rules" ++ p) :
        ∀ w ∈ words p, IsFileName w := by
      have relative : j.source.relativeTo source = ⟨["lib", "rules"]⟩ ++ p := by
        rw [is, ← Path.relativeTo_append source (⟨["lib", "rules"]⟩ ++ p)]
        exact congrArg (Path.relativeTo · source) (congrArg Files.Path.mk (by simp [Path.child]))
      intro w mem_w
      refine named j mem w ?_
      rw [relative, words_append]
      exact List.mem_append_right _ mem_w
    rw [output_j, output_k, ruleOutput_eq some (names mem source_j),
      ruleOutput_eq some' (names mem' source_k), Files.Path.mk.injEq,
      List.map_inj_right fun _ _ => String.ofList_inj.mp] at output
    rw [source_j, source_k, words_append, words_append]
    refine .inr ⟨rfl, ?_⟩
    rcases indexClash_of_joinIndex_eq output with same | clash | clash
    · refine absurd ?_ other
      have same := (List.cons.inj (List.cons.inj same).2).2
      rw [source_j, source_k, words_injective same]
    · exact .inl (clash.of_cons.of_cons.append _)
    · exact .inr (clash.of_cons.of_cons.append _)

/-- A package with an index beside the page of the index, at the root and among the rules, and at
the root with names that have those names in them. -/
def indexed : FileTree := ⟨[
  (⟨["pkg"]⟩, .directory),
  (⟨["pkg", "OLD_README.md"]⟩, .file (Files.Utf8.encode "# Old readme".toList)),
  (⟨["pkg", "OLD_index.md"]⟩, .file (Files.Utf8.encode "# Old index".toList)),
  (⟨["pkg", "README.md"]⟩, .file (Files.Utf8.encode "# Readme".toList)),
  (⟨["pkg", "index.md"]⟩, .file (Files.Utf8.encode "# Index".toList)),
  (⟨["pkg", "lib"]⟩, .directory),
  (⟨["pkg", "lib", "rules"]⟩, .directory),
  (⟨["pkg", "lib", "rules", "a.md"]⟩, .file (Files.Utf8.encode "# Page".toList)),
  (⟨["pkg", "lib", "rules", "a"]⟩, .directory),
  (⟨["pkg", "lib", "rules", "a", "README.md"]⟩, .file (Files.Utf8.encode "# Rule".toList))]⟩

/-- Among the rules, the index of a folder and the document beside the folder. -/
theorem output_clash_indexed :
    let j : Job := ⟨⟨["pkg", "lib", "rules", "a", "README.md"]⟩, ⟨["user-guide", "rules", "a.md"]⟩,
      .rule⟩
    let k : Job := ⟨⟨["pkg", "lib", "rules", "a.md"]⟩, ⟨["user-guide", "rules", "a.md"]⟩, .rule⟩
    j ∈ jobs indexed ⟨["pkg"]⟩ ∧ k ∈ jobs indexed ⟨["pkg"]⟩ ∧
      (IndexClash (words j.source) (words k.source) ∨
        IndexClash (words k.source) (words j.source)) := by
  intro j k
  have documents : jobs indexed ⟨["pkg"]⟩ =
      [⟨⟨["pkg", "OLD_README.md"]⟩, ⟨["OLD_index.md"]⟩, .root⟩,
        ⟨⟨["pkg", "OLD_index.md"]⟩, ⟨["OLD_index.md"]⟩, .root⟩,
        ⟨⟨["pkg", "README.md"]⟩, ⟨["index.md"]⟩, .root⟩,
        ⟨⟨["pkg", "index.md"]⟩, ⟨["index.md"]⟩, .root⟩, j, k] := by
    simp only [jobs, rootJobs, docsJobs, ruleJobs, FileTree.list, FileTree.listAll,
      Path.mergeSort_eq_insertionSort]
    decide +kernel
  have named : ∀ j ∈ jobs indexed ⟨["pkg"]⟩, ∀ w ∈ words (j.source.relativeTo ⟨["pkg"]⟩),
      IsFileName w := by
    rw [documents]
    decide +kernel
  have mem : j ∈ jobs indexed ⟨["pkg"]⟩ := by simp [documents]
  have mem' : k ∈ jobs indexed ⟨["pkg"]⟩ := by simp [documents]
  rcases output_clash named mem mem' rfl (by decide) rfl with ⟨root, -⟩ | ⟨-, clash⟩
  · contradiction
  · exact ⟨mem, mem', clash⟩

/-- At the root a name that only has `README.md` in it is changed too, and goes to the page of
another document. -/
theorem output_not_injective :
    ¬∀ (t : FileTree) (source : Path), ∀ j ∈ jobs t source, ∀ k ∈ jobs t source,
      j.group = k.group → j.source ≠ k.source → j.output ≠ k.output := by
  intro distinct
  have readme : ⟨⟨["pkg", "OLD_README.md"]⟩, ⟨["OLD_index.md"]⟩, .root⟩ ∈
      jobs indexed ⟨["pkg"]⟩ := by
    simp only [jobs, rootJobs, docsJobs, ruleJobs, FileTree.list, FileTree.listAll,
      Path.mergeSort_eq_insertionSort]
    decide +kernel
  have index : ⟨⟨["pkg", "OLD_index.md"]⟩, ⟨["OLD_index.md"]⟩, .root⟩ ∈
      jobs indexed ⟨["pkg"]⟩ := by
    simp only [jobs, rootJobs, docsJobs, ruleJobs, FileTree.list, FileTree.listAll,
      Path.mergeSort_eq_insertionSort]
    decide +kernel
  exact distinct indexed ⟨["pkg"]⟩ _ readme _ index rfl (by decide) rfl

end Docsite.Site
