import Docsite.Proofs.Link.Rewrite
import Mathlib.Data.List.Sublists

/-!
# Docsite.Proofs.Link.External

Links out of the site.

What is looked for in a link may stand anywhere in it, so a link with a scheme of its own is no
exception: it keeps its target just if nothing of that kind stands in its host, its path or behind
them (`rewrite_external`).  A link that is changed is never brought back by a later replacement,
because each replacement changes the length of the link, and there is no choice of them whose
changes cancel out (`rewriteDocs_eq_self_iff`, `rewriteRule_eq_self_iff`).
-/

namespace Docsite.Link

open Text (replaceFirst length_replaceFirst replaceFirst_of_not_infix replaceFirst_eq_self_iff)

/-- Does a link have a scheme of its own, that of a page somewhere else? -/
def IsExternal (url : String) : Prop :=
  "http://".toList <+: url.toList ∨ "https://".toList <+: url.toList

instance (url : String) : Decidable (IsExternal url) :=
  inferInstanceAs (Decidable (_ ∨ _))

variable {url rest s new w : List Char}

/-! ## replacements one after another -/

/-- Replace the first occurrence of one text after another, each by its own. -/
def replaceEach (rules : List (String × String)) (url : List Char) : List Char :=
  rules.foldl (fun u rule => replaceFirst rule.1.toList rule.2.toList u) url

/-- By how much replacements make a link longer in which each of them finds something. -/
def growth : List (String × String) → Int
  | [] => 0
  | rule :: rules => rule.2.toList.length - rule.1.toList.length + growth rules

section

variable {rules : List (String × String)}

theorem replaceEach_cons (rule : String × String) (rules : List (String × String))
    (url : List Char) : replaceEach (rule :: rules) url =
      replaceEach rules (replaceFirst rule.1.toList rule.2.toList url) := rfl

/-- The replacements that find something make the link longer by what each of them does. -/
theorem exists_sublist_growth (some : ∀ rule ∈ rules, rule.1.toList ≠ []) (url : List Char) :
    ∃ found : List (String × String), found.Sublist rules ∧
      ((replaceEach rules url).length : Int) = url.length + growth found ∧
      (found = [] → ∀ rule ∈ rules, ¬ rule.1.toList <:+: url) := by
  induction rules generalizing url with
  | nil => exact ⟨[], .slnil, by simp [replaceEach, growth], by simp⟩
  | cons rule rules ih =>
    rw [List.forall_mem_cons] at some
    obtain ⟨found, among, length, none⟩ :=
      ih some.2 (replaceFirst rule.1.toList rule.2.toList url)
    by_cases here : rule.1.toList <:+: url
    · have grown := length_replaceFirst some.1 here rule.2.toList
      refine ⟨rule :: found, among.cons_cons rule, ?_, nofun⟩
      rw [replaceEach_cons, growth, length]
      omega
    · have same := replaceFirst_of_not_infix some.1 here rule.2.toList
      rw [same] at length none
      refine ⟨found, among.cons rule, by rw [replaceEach_cons, same, length], fun is => ?_⟩
      rw [List.forall_mem_cons]
      exact ⟨here, none is⟩

/-- Replacements that find nothing leave the link alone. -/
theorem replaceEach_of_not_infix (some : ∀ rule ∈ rules, rule.1.toList ≠ [])
    (absent : ∀ rule ∈ rules, ¬ rule.1.toList <:+: url) : replaceEach rules url = url := by
  induction rules with
  | nil => rfl
  | cons rule rules ih =>
    rw [List.forall_mem_cons] at some absent
    rw [replaceEach_cons, replaceFirst_of_not_infix some.1 absent.1, ih some.2 absent.2]

end

/-- No choice of the replacements for documents under `docs/` keeps the length of a link. -/
theorem growth_docsReplacements :
    ∀ found ∈ docsReplacements.sublists, growth found = 0 → found = [] := by
  decide +kernel

theorem docsReplacements_some : ∀ rule ∈ docsReplacements, rule.1.toList ≠ [] := by
  decide +kernel

/-- A link found under `docs/` stays as it is just if nothing in it is looked for. -/
theorem rewriteDocs_eq_self_iff :
    rewriteDocs url = url ↔ ∀ rule ∈ docsReplacements, ¬ rule.1.toList <:+: url := by
  have each : rewriteDocs url = replaceEach docsReplacements url := rfl
  rw [each]
  constructor
  · intro same
    obtain ⟨found, among, length, none⟩ := exists_sublist_growth docsReplacements_some url
    rw [same] at length
    exact none (growth_docsReplacements found (List.mem_sublists.mpr among) (by omega))
  · exact replaceEach_of_not_infix docsReplacements_some

/-! ## matches -/

section

variable {match? : List Char → Option (List Char × List Char)}

/-- Is what replaces a match shorter than the match? -/
def Shortens (match? : List Char → Option (List Char × List Char)) : Prop :=
  ∀ s new rest, match? s = some (new, rest) → (new ++ rest).length < s.length

theorem replaceMatch_of_none (none : ∀ t, t <:+ s → match? t = none) :
    replaceMatch match? s = s := by
  induction s with
  | nil => rfl
  | cons c s ih =>
    rw [replaceMatch_cons (none _ (List.suffix_refl _)),
      ih fun t ends => none t (ends.trans (List.suffix_cons c s))]

/-- A link with a match in it gets shorter. -/
theorem Shortens.length_lt (shortens : Shortens match?) {t : List Char} (ends : t <:+ s)
    (found : match? t = some (new, rest)) : (replaceMatch match? s).length < s.length := by
  induction s with
  | nil =>
    rw [List.suffix_nil.mp ends] at found
    exact absurd (shortens _ _ _ found) (Nat.not_lt_zero _)
  | cons c s ih =>
    cases here : match? (c :: s) with
    | some answer =>
      rw [replaceMatch_of_match (List.cons_ne_nil c s) here]
      exact shortens _ _ _ here
    | none =>
      rcases List.suffix_cons_iff.mp ends with rfl | ends
      · rw [here] at found
        contradiction
      · rw [replaceMatch_cons here, List.length_cons, List.length_cons]
        exact Nat.succ_lt_succ (ih ends)

/-- A link stays as it is just if no match begins anywhere in it; else it gets shorter. -/
theorem Shortens.eq_self_iff (shortens : Shortens match?) :
    replaceMatch match? s = s ↔ ∀ t, t <:+ s → match? t = none := by
  refine ⟨fun same t ends => ?_, replaceMatch_of_none⟩
  cases found : match? t with
  | none => rfl
  | some answer =>
    have shorter := shortens.length_lt ends found
    rw [same] at shorter
    exact absurd shorter (Nat.lt_irrefl _)

theorem Shortens.length_le (shortens : Shortens match?) (s : List Char) :
    (replaceMatch match? s).length ≤ s.length := by
  by_cases none : ∀ t, t <:+ s → match? t = none
  · rw [replaceMatch_of_none none]
  · push Not at none
    obtain ⟨t, ends, some⟩ := none
    obtain ⟨answer, found⟩ := Option.ne_none_iff_exists'.mp some
    exact (shortens.length_lt ends found).le

/-- What is brought back to its length by what shortens was not changed at all. -/
theorem Shortens.eq_of_eq_replaceMatch {first? second? : List Char → Option (List Char × List Char)}
    (first : Shortens first?) (second : Shortens second?)
    (same : replaceMatch second? (replaceMatch first? s) = s) : replaceMatch first? s = s := by
  refine first.eq_self_iff.mpr fun t ends => ?_
  cases found : first? t with
  | none => rfl
  | some answer =>
    have shorter := first.length_lt ends found
    have later := second.length_le (replaceMatch first? s)
    rw [same] at later
    omega

end

/-- Does a link hold a path between two fixed texts? -/
def HoldsBetween (left right : String) (inPath : Char → Bool) (url : List Char) : Prop :=
  ∃ w, w ≠ [] ∧ (∀ c ∈ w, inPath c = true) ∧ left.toList ++ (w ++ right.toList) <:+: url

section

variable {left right : String} {inPath : Char → Bool} {c : Char}

theorem between?_eq_some (found : between? left right inPath s = some (w, rest)) :
    s = left.toList ++ (w ++ (right.toList ++ rest)) ∧ w ≠ [] ∧ ∀ c ∈ w, inPath c = true := by
  rw [between?] at found
  split at found
  · next begins =>
    obtain ⟨t, rfl⟩ := List.isPrefixOf_iff_prefix.mp begins
    obtain ⟨tail, cut⟩ : t.takeWhile inPath <+: t := List.takeWhile_prefix inPath
    have behind : t.drop (t.takeWhile inPath).length = tail := by
      have dropped := congrArg (List.drop (t.takeWhile inPath).length) cut
      rw [List.drop_left] at dropped
      exact dropped.symm
    simp only [← String.length_toList, List.drop_left, behind] at found
    split at found
    · next held =>
      rw [Bool.and_eq_true, Bool.not_eq_true', List.isEmpty_eq_false_iff,
        List.isPrefixOf_iff_prefix] at held
      obtain ⟨filled, after, rfl⟩ := held
      rw [List.drop_left, Option.some.injEq, Prod.mk.injEq] at found
      obtain ⟨rfl, rfl⟩ := found
      exact ⟨by rw [cut], filled, List.all_eq_true.mp List.all_takeWhile⟩
    · contradiction
  · contradiction

/-- A path between two texts is found somewhere just if the link holds one. -/
theorem between?_none_iff (ends : right.toList = c :: rest) (stop : inPath c = false) :
    (∀ t, t <:+ url → between? left right inPath t = none) ↔
      ¬ HoldsBetween left right inPath url := by
  constructor
  · rintro none ⟨w, some, path, inside⟩
    obtain ⟨t, ⟨behind, rfl⟩, suffix⟩ := List.infix_iff_prefix_suffix.mp inside
    have found : between? left right inPath
        (left.toList ++ (w ++ (right.toList ++ behind))) = Option.some (w, behind) :=
      between?_found path some ends stop behind
    rw [List.append_assoc, List.append_assoc] at suffix
    rw [none _ suffix] at found
    contradiction
  · intro absent t suffix
    cases found : between? left right inPath t with
    | none => rfl
    | some answer =>
      obtain ⟨w, behind⟩ := answer
      obtain ⟨rfl, some, path⟩ := between?_eq_some found
      refine absurd ⟨w, some, path, List.IsInfix.trans ?_ suffix.isInfix⟩ absent
      exact ⟨[], behind, by simp only [List.nil_append, List.append_assoc]⟩

end

/-! ## rule documents -/

theorem siblingRule?_shortens : Shortens siblingRule? := by
  intro s new rest found
  obtain ⟨⟨w, behind⟩, between, same⟩ := Option.map_eq_some_iff.mp found
  obtain ⟨rfl, -, -⟩ := between?_eq_some between
  cases same
  simp +arith

theorem userGuidePage?_shortens : Shortens userGuidePage? := by
  intro s new rest found
  obtain ⟨⟨w, behind⟩, between, same⟩ := Option.map_eq_some_iff.mp found
  obtain ⟨rfl, -, -⟩ := between?_eq_some between
  cases same
  simp +arith

/-- No link to another rule is found just if the link holds no step up to a name and `README.md`. -/
theorem siblingRule?_none_iff : (∀ t, t <:+ url → siblingRule? t = none) ↔
    ¬ HoldsBetween "../" "/README.md" isNameChar url := by
  have ends : "/README.md".toList = '/' :: "README.md".toList := by simp
  simp only [siblingRule?, Option.map_eq_none_iff]
  exact between?_none_iff ends (by decide)

/-- No page of the user guide is found just if the link holds no way to one. -/
theorem userGuidePage?_none_iff : (∀ t, t <:+ url → userGuidePage? t = none) ↔
    ¬ HoldsBetween "../../../docs/user-guide/" ".md" (fun c => isNameChar c || c == '/') url := by
  have ends : ".md".toList = '.' :: "md".toList := by simp
  simp only [userGuidePage?, Option.map_eq_none_iff]
  exact between?_none_iff ends (by decide)

/-- A link found in a rule document stays as it is just if nothing in it is looked for. -/
theorem rewriteRule_eq_self_iff : rewriteRule url = url ↔
    ¬ HoldsBetween "../" "/README.md" isNameChar url ∧
      ¬ HoldsBetween "../../../docs/user-guide/" ".md" (fun c => isNameChar c || c == '/') url := by
  have sibling := siblingRule?_shortens
  have page := userGuidePage?_shortens
  rw [← siblingRule?_none_iff, ← userGuidePage?_none_iff, ← sibling.eq_self_iff,
    ← page.eq_self_iff, rewriteRule]
  constructor
  · intro same
    have first := sibling.eq_of_eq_replaceMatch page same
    rw [first] at same
    exact ⟨first, same⟩
  · rintro ⟨first, second⟩
    rw [first, second]

/-! ## root documents -/

/-- The folder of the documentation is looked for at the start of a link, where a link out of the
site has its scheme. -/
theorem dropDocsFolder_of_isExternal {url : String} (external : IsExternal url) :
    dropDocsFolder url.toList = url.toList := by
  have other : Text.stripFirst? ["/docs/".toList, "docs/".toList] url.toList = none := by
    rcases external with ⟨rest, is⟩ | ⟨rest, is⟩ <;> simp [Text.stripFirst?, ← is]
  rw [dropDocsFolder, other]

/-! ## links of all groups -/

theorem ofList_eq_iff {url : String} : String.ofList s = url ↔ s = url.toList := by
  constructor
  · rintro rfl
    exact String.toList_ofList.symm
  · rintro rfl
    exact String.ofList_toList

/-- The index of the rules is looked for among the rules. -/
theorem docsReplacements_absent_iff :
    (∀ rule ∈ docsReplacements, ¬ rule.1.toList <:+: url) ↔
      ∀ text ∈ ["../../lib/rules/", "../../CHANGELOG.md", "../../VISION.md", "/README.md",
        "CONTRIBUTING.md"], ¬ text.toList <:+: url := by
  have inside : "../../lib/rules/".toList <:+: "../../lib/rules/index.js".toList := by decide
  simp only [docsReplacements, List.forall_mem_cons, List.not_mem_nil, false_implies, implies_true,
    and_true]
  constructor
  · rintro ⟨-, changelog, vision, rules, readme, contributing⟩
    exact ⟨rules, changelog, vision, readme, contributing⟩
  · rintro ⟨rules, changelog, vision, readme, contributing⟩
    exact ⟨fun index => rules (inside.trans index), changelog, vision, rules, readme, contributing⟩

/-- **A link out of the site keeps its target just if nothing in it is looked for**: no `README.md`
where the link stands in a root document; under `docs/`, no way up to the rules, to the changes or
to the vision, no `README.md` in a folder and no `CONTRIBUTING.md`; in a rule document, no step up
to a name and its `README.md`, and no way up to a page of the user guide. -/
theorem rewrite_external (url : String) (external : IsExternal url) :
    (Group.root.rewrite url = url ↔ ¬ "README.md".toList <:+: url.toList) ∧
      (Group.docs.rewrite url = url ↔
        ∀ text ∈ ["../../lib/rules/", "../../CHANGELOG.md", "../../VISION.md", "/README.md",
          "CONTRIBUTING.md"], ¬ text.toList <:+: url.toList) ∧
      (Group.rule.rewrite url = url ↔
        (¬ ∃ name, name ≠ [] ∧ (∀ c ∈ name, isNameChar c = true) ∧
          "../".toList ++ (name ++ "/README.md".toList) <:+: url.toList) ∧
        ¬ ∃ path, path ≠ [] ∧ (∀ c ∈ path, (isNameChar c || c == '/') = true) ∧
          "../../../docs/user-guide/".toList ++ (path ++ ".md".toList) <:+: url.toList) := by
  simp only [Group.rewrite, ofList_eq_iff]
  refine ⟨?_, ?_, rewriteRule_eq_self_iff⟩
  · rw [rewriteRoot, dropDocsFolder_of_isExternal external]
    exact replaceFirst_eq_self_iff (by simp) (by decide)
  · rw [rewriteDocs_eq_self_iff, docsReplacements_absent_iff]

/-- A link with a folder of the documentation, a step up and a `README` in it, but nothing that is
looked for. -/
theorem rewrite_external_kept :
    let url := "https://a.b/docs/user-guide/../README?x=../y/README.txt"
    IsExternal url ∧ Group.root.rewrite url = url ∧ Group.docs.rewrite url = url ∧
      Group.rule.rewrite url = url ∧ ¬ "README.md".toList <:+: url.toList ∧
      ¬ ∃ name, name ≠ [] ∧ (∀ c ∈ name, isNameChar c = true) ∧
        "../".toList ++ (name ++ "/README.md".toList) <:+: url.toList := by
  intro url
  have external : IsExternal url := by decide +kernel
  have root : Group.root.rewrite url = url := by decide +kernel
  have docs : Group.docs.rewrite url = url := by decide +kernel
  have rule : Group.rule.rewrite url = url := by decide +kernel
  have kept := rewrite_external url external
  exact ⟨external, root, docs, rule, kept.1.mp root, (kept.2.2.mp rule).1⟩

/-- Links out of the site lose their target where something in them is looked for, in a document
of whatever group they stand. -/
theorem rewrite_external_lost :
    (IsExternal "https://a.b/README.md" ∧
        Group.root.rewrite "https://a.b/README.md" = "https://a.b/index.md" ∧
        Group.docs.rewrite "https://a.b/README.md" = "https://a.b.md") ∧
      IsExternal "http://a.b/../c/README.md" ∧
        Group.rule.rewrite "http://a.b/../c/README.md" = "http://a.b/c.md" := by
  decide +kernel

end Docsite.Link
