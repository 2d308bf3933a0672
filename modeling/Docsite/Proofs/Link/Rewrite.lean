import Docsite.Link.Rewrite
import Docsite.Proofs.Text.Search

/-!
# Docsite.Proofs.Link.Rewrite

What the rewriting of links makes of the links between the documents of a package.

Most of what is looked for in a link begins with steps up (`BeginsUp`), so a stretch without dots is
passed by (`BeginsUp.skip`), the ending of a page and a fragment behind it are left alone
(`BeginsUp.page`), and steps up are passed one after the other (`BeginsUp.steps`).  With these each
of the replacements for a group is followed through the link: `rewriteDocs_rule`,
`rewriteDocs_section` and `rewriteDocs_changelog` for documents under `docs/`, `rewriteRule_sibling`
and `rewriteRule_userGuide` for rule documents, `rewriteRoot_docs` for root documents.
-/

namespace Docsite.Link

open Text (replaceFirst replaceFirst_cons replaceFirst_skip replaceFirst_append
  replaceFirst_of_notMem)

/-! ## parts of links -/

/-- The name of a rule, of a folder or of a page. -/
structure IsName (w : List Char) : Prop where
  some : w ≠ []
  chars : ∀ c ∈ w, isNameChar c = true

instance (w : List Char) : Decidable (IsName w) :=
  decidable_of_iff ((!w.isEmpty && w.all isNameChar) = true) <| by
    rw [Bool.and_eq_true, Bool.not_eq_true', List.isEmpty_eq_false_iff, List.all_eq_true]
    exact ⟨fun h => ⟨h.1, h.2⟩, fun name => ⟨name.some, name.chars⟩⟩

/-- What may stand behind a page in a link. -/
def IsFragment (f : List Char) : Prop := f = [] ∨ ∃ s, f = '#' :: s ∧ '.' ∉ s ∧ '/' ∉ s

/-- Steps up. -/
def steps (n : Nat) : List Char := (List.replicate n "../".toList).flatten

variable {c : Char} {f new old q r rest s w : List Char}

theorem IsName.notMem (name : IsName w) (other : isNameChar c = false) : c ∉ w := fun mem =>
  Bool.false_ne_true (other.symm.trans (name.chars c mem))

/-- Nothing that begins with another character begins a name. -/
theorem IsName.not_begins (name : IsName w) (other : isNameChar c = false) (old s : List Char) :
    ¬ c :: old <+: w ++ s := by
  obtain ⟨d, w, rfl⟩ := List.exists_cons_of_ne_nil name.some
  rw [List.cons_append, List.cons_prefix_cons]
  rintro ⟨rfl, -⟩
  exact name.notMem other List.mem_cons_self

theorem IsFragment.notMem (fragment : IsFragment f) (mark : c = '.' ∨ c = '/') : c ∉ f := by
  obtain rfl | ⟨s, rfl, dot, slash⟩ := fragment <;> obtain rfl | rfl := mark <;> simp_all

@[simp] theorem steps_zero : steps 0 = [] := rfl

@[simp] theorem steps_succ (n : Nat) : steps (n + 1) = "../".toList ++ steps n := by
  rw [steps, List.replicate_succ, List.flatten_cons, steps]

/-! ## matches -/

section

variable {match? : List Char → Option (List Char × List Char)}

theorem replaceMatch_of_match (some : s ≠ []) (found : match? s = .some (new, rest)) :
    replaceMatch match? s = new ++ rest := by
  obtain ⟨c, s, rfl⟩ := List.exists_cons_of_ne_nil some
  rw [replaceMatch, found]

theorem replaceMatch_cons (none : match? (c :: s) = none) :
    replaceMatch match? (c :: s) = c :: replaceMatch match? s := by
  rw [replaceMatch, none]

/-- A match begins with a step up. -/
def BeginsUp (match? : List Char → Option (List Char × List Char)) : Prop :=
  ∀ s, ¬ "../".toList <+: s → match? s = none

theorem BeginsUp.skip (up : BeginsUp match?) (absent : '.' ∉ w) (s : List Char) :
    replaceMatch match? (w ++ s) = w ++ replaceMatch match? s := by
  induction w with
  | nil => rfl
  | cons c w ih =>
    rw [List.mem_cons, not_or] at absent
    rw [List.cons_append, replaceMatch_cons (up _ (by simp [absent.1])), ih absent.2,
      List.cons_append]

/-- The ending of a page and a fragment behind it hold no match. -/
theorem BeginsUp.page (up : BeginsUp match?) (fragment : IsFragment f) :
    replaceMatch match? (".md".toList ++ f) = ".md".toList ++ f := by
  have absent : '.' ∉ "md".toList ++ f := by simpa using fragment.notMem (.inl rfl)
  have rest : replaceMatch match? ("md".toList ++ f) = "md".toList ++ f := by
    simpa [replaceMatch] using up.skip absent []
  have dot : match? ('.' :: ("md".toList ++ f)) = none := up _ (by simp)
  have step := replaceMatch_cons dot
  rw [rest] at step
  simpa using step

/-- A step up that no match begins with is passed by. -/
theorem BeginsUp.step (up : BeginsUp match?) (none : match? ("../".toList ++ s) = none) :
    replaceMatch match? ("../".toList ++ s) = "../".toList ++ replaceMatch match? s := by
  have first : match? ('.' :: '.' :: '/' :: s) = .none := by simpa using none
  have second : match? ('.' :: '/' :: s) = .none := up _ (by simp)
  have third : match? ('/' :: s) = .none := up _ (by simp)
  simp [replaceMatch_cons, first, second, third]

theorem BeginsUp.steps (up : BeginsUp match?) (none : ∀ n, match? (steps (n + 1) ++ s) = none)
    (n : Nat) : replaceMatch match? (steps n ++ s) = steps n ++ replaceMatch match? s := by
  induction n with
  | zero => rfl
  | succ n ih =>
    have here : match? ("../".toList ++ (Link.steps n ++ s)) = .none := by
      simpa using none n
    rw [steps_succ, List.append_assoc, up.step here, ih, List.append_assoc]

end

/-! ## paths between two texts -/

section

variable {left right : String} {inPath : Char → Bool}

theorem between?_none (other : ¬ left.toList <+: s) :
    between? left right inPath s = none := by
  rw [between?, if_neg (by rwa [List.isPrefixOf_iff_prefix])]

/-- The path ends at the first character that is none of it. -/
theorem between?_append (path : ∀ c ∈ w, inPath c = true) (stop : inPath c = false)
    (rest : List Char) :
    between? left right inPath (left.toList ++ (w ++ c :: rest)) =
      if w ≠ [] ∧ right.toList <+: c :: rest then some (w, (c :: rest).drop right.length)
      else none := by
  have here : left.toList.isPrefixOf (left.toList ++ (w ++ c :: rest)) = true :=
    List.isPrefixOf_iff_prefix.mpr (List.prefix_append _ _)
  have read : (w ++ c :: rest).takeWhile inPath = w := by
    rw [List.takeWhile_append_of_pos path, List.takeWhile_cons_of_neg (by simp [stop]),
      List.append_nil]
  have behind : (left.toList ++ (w ++ c :: rest)).drop left.length = w ++ c :: rest := by
    rw [← String.length_toList, List.drop_left]
  rw [between?, if_pos here]
  simp only [behind, read, List.drop_left]
  cases w <;> simp

theorem between?_found (path : ∀ c ∈ w, inPath c = true) (some : w ≠ [])
    (ends : right.toList = c :: rest) (stop : inPath c = false) (s : List Char) :
    between? left right inPath (left.toList ++ (w ++ (right.toList ++ s))) = .some (w, s) := by
  have length : right.length = (c :: rest).length := by rw [← ends, String.length_toList]
  rw [ends, List.cons_append, between?_append path stop, ends, ← List.cons_append,
    if_pos ⟨some, List.prefix_append _ _⟩, length, List.drop_left]

end

/-! ## fixed texts -/

/-- The match of a fixed text. -/
def literal? (old new s : List Char) : Option (List Char × List Char) :=
  if old.isPrefixOf s then some (new, s.drop old.length) else none

theorem literal?_none (other : ¬ old <+: s) : literal? old new s = none := by
  rw [literal?, if_neg (by rwa [List.isPrefixOf_iff_prefix])]

theorem literal?_beginsUp (up : "../".toList <+: old) : BeginsUp (literal? old new) :=
  fun _ other => literal?_none fun h => other (up.trans h)

/-- To replace a text is to replace its match. -/
theorem replaceFirst_eq_replaceMatch (up : "../".toList <+: old) (new s : List Char) :
    replaceFirst old new s = replaceMatch (literal? old new) s := by
  induction s with
  | nil =>
    have some : old ≠ [] := by
      rintro rfl
      simp at up
    simp [replaceFirst, replaceMatch, some]
  | cons c s ih =>
    rw [replaceFirst, replaceMatch, literal?, ih]
    split <;> rfl

/-- A fragment holds nothing with a dot in it. -/
theorem replaceFirst_fragment (fragment : IsFragment f) (dot : '.' ∈ old) (new : List Char) :
    replaceFirst old new f = f :=
  replaceFirst_of_notMem dot (fragment.notMem (.inl rfl)) new

/-- Words of names that end at different characters. -/
theorem not_prefix_of_names {a b : List Char} {x y : Char} (left : ∀ c ∈ a, isNameChar c = true)
    (right : ∀ c ∈ w, isNameChar c = true) (ends : isNameChar x = false)
    (stop : isNameChar y = false) (other : x ≠ y) : ¬ a ++ x :: b <+: w ++ y :: s := by
  induction a generalizing w with
  | nil =>
    cases w with
    | nil => simp [other]
    | cons c w =>
      intro h
      obtain ⟨rfl, -⟩ := List.cons_prefix_cons.mp h
      simp [right x List.mem_cons_self] at ends
  | cons c a ih =>
    rw [List.cons_append]
    cases w with
    | nil =>
      intro h
      obtain ⟨rfl, -⟩ := List.cons_prefix_cons.mp h
      simp [left c List.mem_cons_self] at stop
    | cons d w =>
      rw [List.cons_append, List.cons_prefix_cons]
      exact fun h => ih (fun c mem => left c (List.mem_cons_of_mem _ mem))
        (fun c mem => right c (List.mem_cons_of_mem _ mem)) h.2

/-! ## documents under docs -/

/-- What begins with two steps up is nowhere in a link that goes up one. -/
theorem replaceFirst_oneUp (two : "../../".toList <+: old) (absent : '.' ∉ w)
    (fragment : IsFragment f) (new : List Char) :
    replaceFirst old new ("../".toList ++ (w ++ (".md".toList ++ f))) =
      "../".toList ++ (w ++ (".md".toList ++ f)) := by
  have up : "../".toList <+: old := .trans (by simp) two
  have begins : BeginsUp (literal? old new) := literal?_beginsUp up
  have other : ¬ old <+: "../".toList ++ (w ++ (".md".toList ++ f)) := by
    intro h
    have start := two.trans h
    cases w <;> simp_all
  rw [replaceFirst_eq_replaceMatch up, begins.step (literal?_none other), begins.skip absent,
    begins.page fragment]

/-- What begins with two steps up and does not begin a link to a rule is nowhere in the link. -/
theorem replaceFirst_ruleLink (two : "../../".toList <+: old) (name : IsName r)
    (fragment : IsFragment f)
    (other : ¬ old <+: "../../lib/rules/".toList ++ (r ++ ("/README.md".toList ++ f)))
    (new : List Char) :
    replaceFirst old new ("../../lib/rules/".toList ++ (r ++ ("/README.md".toList ++ f))) =
      "../../lib/rules/".toList ++ (r ++ ("/README.md".toList ++ f)) := by
  have up : "../".toList <+: old := .trans (by simp) two
  have begins : BeginsUp (literal? old new) := literal?_beginsUp up
  have dot : '.' ∉ "lib/rules/".toList ++ (r ++ "/README".toList) := by
    simp [name.notMem (c := '.') (by decide)]
  have cut : "../../lib/rules/".toList ++ (r ++ ("/README.md".toList ++ f)) =
      "../".toList ++ ("../".toList ++ (("lib/rules/".toList ++ (r ++ "/README".toList)) ++
        (".md".toList ++ f))) := by
    simp
  rw [cut] at other ⊢
  rw [replaceFirst_eq_replaceMatch up, begins.step (literal?_none other),
    ← replaceFirst_eq_replaceMatch up, replaceFirst_oneUp two dot fragment]

theorem replaceFirst_readme_skip (absent : '/' ∉ w) (s : List Char) :
    replaceFirst "/README.md".toList ".md".toList (w ++ s) =
      w ++ replaceFirst "/README.md".toList ".md".toList s := by
  have cut : "/README.md".toList = '/' :: "README.md".toList := by simp
  rw [cut, replaceFirst_skip absent]

/-- A folder in a link is passed by in the search for an index. -/
theorem replaceFirst_readme_folder (name : IsName r) (s : List Char) :
    replaceFirst "/README.md".toList ".md".toList ('/' :: (r ++ s)) =
      '/' :: (r ++ replaceFirst "/README.md".toList ".md".toList s) := by
  have cut : "/README.md".toList = '/' :: 'R' :: "EADME.md".toList := by simp
  have other : ¬ "/README.md".toList <+: '/' :: (r ++ s) := by
    rw [cut, List.cons_prefix_cons]
    exact fun h => name.not_begins (by decide) _ s h.2
  rw [replaceFirst_cons other, replaceFirst_readme_skip (name.notMem (by decide))]

theorem replaceFirst_contributing_skip (absent : 'C' ∉ w) (s : List Char) :
    replaceFirst "CONTRIBUTING.md".toList "CONTRIBUTING".toList (w ++ s) =
      w ++ replaceFirst "CONTRIBUTING.md".toList "CONTRIBUTING".toList s := by
  have cut : "CONTRIBUTING.md".toList = 'C' :: "ONTRIBUTING.md".toList := by simp
  rw [cut, replaceFirst_skip absent]

/-- The guide for contributors is nowhere in a link to a page with a name. -/
theorem replaceFirst_contributing (absent : 'C' ∉ w) (name : IsName r) (fragment : IsFragment f) :
    replaceFirst "CONTRIBUTING.md".toList "CONTRIBUTING".toList (w ++ (r ++ (".md".toList ++ f))) =
      w ++ (r ++ (".md".toList ++ f)) := by
  have letters : 'C' ∉ r := name.notMem (by decide)
  rw [replaceFirst_contributing_skip absent, replaceFirst_contributing_skip letters,
    replaceFirst_contributing_skip (by simp), replaceFirst_fragment fragment (by simp)]

/-- The replacements for documents under `docs/`, one after the other. -/
theorem rewriteDocs_eq (url : List Char) :
    rewriteDocs url =
      replaceFirst "CONTRIBUTING.md".toList "CONTRIBUTING".toList
        (replaceFirst "/README.md".toList ".md".toList
          (replaceFirst "../../lib/rules/".toList "/user-guide/rules/".toList
            (replaceFirst "../../VISION.md".toList "../VISION.md".toList
              (replaceFirst "../../CHANGELOG.md".toList "../CHANGELOG.md".toList
                (replaceFirst "../../lib/rules/index.js".toList rulesIndexUrl.toList url))))) :=
  rfl

/-- A link to a rule becomes the link to its page. -/
theorem rewriteDocs_rule (name : IsName r) (fragment : IsFragment f) :
    rewriteDocs ("../../lib/rules/".toList ++ (r ++ ("/README.md".toList ++ f))) =
      "/user-guide/rules/".toList ++ (r ++ (".md".toList ++ f)) := by
  have index : ¬ "../../lib/rules/index.js".toList <+:
      "../../lib/rules/".toList ++ (r ++ ("/README.md".toList ++ f)) := by
    have word : IsName "index".toList := by decide
    have ends : ¬ "index".toList ++ '.' :: "js".toList <+: r ++ '/' :: ("README.md".toList ++ f) :=
      not_prefix_of_names word.chars name.chars (by decide) (by decide) (by decide)
    simpa using ends
  have readme : replaceFirst "/README.md".toList ".md".toList
      ("/user-guide/rules/".toList ++ (r ++ ("/README.md".toList ++ f))) =
        "/user-guide/rules/".toList ++ (r ++ (".md".toList ++ f)) := by
    have cut (s : List Char) : "/user-guide/rules/".toList ++ s =
        '/' :: ("user-guide".toList ++ '/' :: ("rules".toList ++ '/' :: s)) := by
      simp
    have guide : IsName "user-guide".toList := by decide
    have rules : IsName "rules".toList := by decide
    rw [cut, cut, replaceFirst_readme_folder guide, replaceFirst_readme_folder rules,
      replaceFirst_readme_folder name, replaceFirst_append (by simp)]
  rw [rewriteDocs_eq, replaceFirst_ruleLink (by simp) name fragment index,
    replaceFirst_ruleLink (by simp) name fragment (by simp),
    replaceFirst_ruleLink (by simp) name fragment (by simp), replaceFirst_append (by simp),
    readme, replaceFirst_contributing (by simp) name fragment]

/-- A link to the index of another section becomes the link to a page named as the section. -/
theorem rewriteDocs_section (name : IsName r) (fragment : IsFragment f) :
    rewriteDocs ("../".toList ++ (r ++ ("/README.md".toList ++ f))) =
      "../".toList ++ (r ++ (".md".toList ++ f)) := by
  have readme : replaceFirst "/README.md".toList ".md".toList
      ("../".toList ++ (r ++ ("/README.md".toList ++ f))) =
        "../".toList ++ (r ++ (".md".toList ++ f)) := by
    have cut (s : List Char) : "../".toList ++ s = "..".toList ++ '/' :: s := by simp
    rw [cut, cut, replaceFirst_readme_skip (by simp), replaceFirst_readme_folder name,
      replaceFirst_append (by simp)]
  have dot : '.' ∉ r ++ "/README".toList := by simp [name.notMem (c := '.') (by decide)]
  have up {old : List Char} (two : "../../".toList <+: old) (new : List Char) :
      replaceFirst old new ("../".toList ++ (r ++ ("/README.md".toList ++ f))) =
        "../".toList ++ (r ++ ("/README.md".toList ++ f)) := by
    simpa using replaceFirst_oneUp two dot fragment new
  rw [rewriteDocs_eq, up (by simp), up (by simp), up (by simp), up (by simp), readme,
    replaceFirst_contributing (by simp) name fragment]

theorem steps_concat (n : Nat) (s : List Char) :
    steps (n + 1) ++ s = steps n ++ ("../".toList ++ s) := by
  induction n with
  | zero => simp
  | succ n ih => rw [steps_succ, List.append_assoc, ih, steps_succ n, List.append_assoc]

theorem notMem_steps (dot : c ≠ '.') (slash : c ≠ '/') (n : Nat) : c ∉ steps n := by
  induction n with
  | zero => simp
  | succ n ih => simp [ih, dot, slash]

/-- What begins with two steps up and goes on otherwise is nowhere in a link to the changes. -/
theorem replaceFirst_changelog {x : Char} (two : old = "../../".toList ++ x :: rest)
    (down : x ≠ '.') (other : x ≠ 'C') (fragment : IsFragment f) (new : List Char) (n : Nat) :
    replaceFirst old new (steps n ++ ("CHANGELOG.md".toList ++ f)) =
      steps n ++ ("CHANGELOG.md".toList ++ f) := by
  have up : "../".toList <+: old := by simp [two]
  have begins : BeginsUp (literal? old new) := literal?_beginsUp up
  have none (n : Nat) :
      literal? old new (steps (n + 1) ++ ("CHANGELOG.md".toList ++ f)) = none := by
    refine literal?_none fun h => ?_
    rw [two] at h
    -- after two steps up there is a third one, or what the link goes down to
    match n with
    | 0 => simp at h
    | 1 => simp [other] at h
    | n + 2 => simp [down] at h
  have cut : "CHANGELOG.md".toList ++ f = "CHANGELOG".toList ++ (".md".toList ++ f) := by simp
  rw [replaceFirst_eq_replaceMatch up, begins.steps none, cut, begins.skip (by simp),
    begins.page fragment]

/-- The last two of the steps up to the changes become one. -/
theorem replaceFirst_changelog_last (n : Nat) (f : List Char) :
    replaceFirst "../../CHANGELOG.md".toList "../CHANGELOG.md".toList
      (steps (n + 2) ++ ("CHANGELOG.md".toList ++ f)) =
        steps (n + 1) ++ ("CHANGELOG.md".toList ++ f) := by
  have up : "../".toList <+: "../../CHANGELOG.md".toList := by simp
  have none (n : Nat) : literal? "../../CHANGELOG.md".toList "../CHANGELOG.md".toList
      (steps (n + 1) ++ ("../../CHANGELOG.md".toList ++ f)) = none := by
    refine literal?_none fun h => ?_
    match n with
    | 0 | 1 | n + 2 => simp at h
  have cut : "../".toList ++ ("../".toList ++ ("CHANGELOG.md".toList ++ f)) =
      "../../CHANGELOG.md".toList ++ f := by
    simp
  rw [steps_concat, steps_concat, cut, replaceFirst_eq_replaceMatch up,
    (literal?_beginsUp up).steps none, ← replaceFirst_eq_replaceMatch up,
    replaceFirst_append (by simp), steps_concat]
  simp

/-- There is no index in a link to the changes. -/
theorem replaceFirst_readme_changelog (fragment : IsFragment f) (n : Nat) :
    replaceFirst "/README.md".toList ".md".toList (steps n ++ ("CHANGELOG.md".toList ++ f)) =
      steps n ++ ("CHANGELOG.md".toList ++ f) := by
  induction n with
  | zero =>
    have absent : '/' ∉ "CHANGELOG.md".toList ++ f := by simp [fragment.notMem (.inr rfl)]
    exact replaceFirst_of_notMem (c := '/') (by simp) absent _
  | succ n ih =>
    have cut : steps (n + 1) ++ ("CHANGELOG.md".toList ++ f) =
        "..".toList ++ '/' :: (steps n ++ ("CHANGELOG.md".toList ++ f)) := by
      simp
    have other : ¬ "/README.md".toList <+: '/' :: (steps n ++ ("CHANGELOG.md".toList ++ f)) := by
      cases n <;> simp
    rw [cut, replaceFirst_readme_skip (by simp), replaceFirst_cons other, ih]

/-- Nor is there the guide for contributors. -/
theorem replaceFirst_contributing_changelog (fragment : IsFragment f) (n : Nat) :
    replaceFirst "CONTRIBUTING.md".toList "CONTRIBUTING".toList
      (steps n ++ ("CHANGELOG.md".toList ++ f)) = steps n ++ ("CHANGELOG.md".toList ++ f) := by
  have other : ¬ "CONTRIBUTING.md".toList <+: 'C' :: ("HANGELOG.md".toList ++ f) := by simp
  have cut : "CHANGELOG.md".toList ++ f = 'C' :: ("HANGELOG.md".toList ++ f) := by simp
  rw [replaceFirst_contributing_skip (notMem_steps (by decide) (by decide) n), cut,
    replaceFirst_cons other, replaceFirst_contributing_skip (by simp),
    replaceFirst_fragment fragment (by simp)]

/-- A link to the changes goes up one step less. -/
theorem rewriteDocs_changelog (fragment : IsFragment f) (n : Nat) :
    rewriteDocs (steps (n + 2) ++ ("CHANGELOG.md".toList ++ f)) =
      steps (n + 1) ++ ("CHANGELOG.md".toList ++ f) := by
  have index : "../../lib/rules/index.js".toList =
      "../../".toList ++ 'l' :: "ib/rules/index.js".toList := by
    simp
  have vision : "../../VISION.md".toList = "../../".toList ++ 'V' :: "ISION.md".toList := by simp
  have rules : "../../lib/rules/".toList = "../../".toList ++ 'l' :: "ib/rules/".toList := by simp
  rw [rewriteDocs_eq, replaceFirst_changelog index (by decide) (by decide) fragment,
    replaceFirst_changelog_last, replaceFirst_changelog vision (by decide) (by decide) fragment,
    replaceFirst_changelog rules (by decide) (by decide) fragment,
    replaceFirst_readme_changelog fragment, replaceFirst_contributing_changelog fragment]

/-! ## rule documents -/

theorem siblingRule?_beginsUp : BeginsUp siblingRule? := by
  intro s other
  rw [siblingRule?, between?_none other, Option.map_none]

theorem userGuidePage?_beginsUp : BeginsUp userGuidePage? := by
  intro s other
  have up : "../".toList <+: "../../../docs/user-guide/".toList := by simp
  rw [userGuidePage?, between?_none fun h => other (up.trans h), Option.map_none]

theorem siblingRule?_eq (name : IsName r) (s : List Char) :
    siblingRule? ("../".toList ++ (r ++ ("/README.md".toList ++ s))) =
      some (r ++ ".md".toList, s) := by
  have ends : "/README.md".toList = '/' :: "README.md".toList := by simp
  rw [siblingRule?, between?_found name.chars name.some ends (by decide), Option.map_some]

/-- A step up and another one are no link to another rule. -/
theorem siblingRule?_up (s : List Char) :
    siblingRule? ("../".toList ++ ("../".toList ++ s)) = none := by
  have cut : "../".toList ++ s = [] ++ '.' :: ("./".toList ++ s) := by simp
  rw [siblingRule?, cut, between?_append (by simp) (by decide), if_neg (by simp), Option.map_none]

/-- Nor is a step up to a folder with something else in it. -/
theorem siblingRule?_folder (name : IsName r) (other : ¬ "README.md".toList <+: s) :
    siblingRule? ("../".toList ++ (r ++ '/' :: s)) = none := by
  have ends : ¬ "/README.md".toList <+: '/' :: s := by simpa using other
  rw [siblingRule?, between?_append name.chars (by decide), if_neg fun h => ends h.2,
    Option.map_none]

/-- A link to another rule becomes the link to its page. -/
theorem rewriteRule_sibling (name : IsName r) (fragment : IsFragment f) :
    rewriteRule ("../".toList ++ (r ++ ("/README.md".toList ++ f))) = r ++ (".md".toList ++ f) := by
  have dot : '.' ∉ r := name.notMem (by decide)
  rw [rewriteRule, replaceMatch_of_match (by simp) (siblingRule?_eq name f), List.append_assoc,
    userGuidePage?_beginsUp.skip dot, userGuidePage?_beginsUp.page fragment]

theorem userGuidePage?_eq (path : ∀ c ∈ q, (isNameChar c || c == '/') = true) (some : q ≠ [])
    (s : List Char) :
    userGuidePage? ("../../../docs/user-guide/".toList ++ (q ++ (".md".toList ++ s))) =
      .some ("../".toList ++ q ++ ".md".toList, s) := by
  have ends : ".md".toList = '.' :: "md".toList := by simp
  rw [userGuidePage?, between?_found path some ends (by decide), Option.map_some]

/-- A link into the user guide goes up one step only. -/
theorem rewriteRule_userGuide (path : ∀ c ∈ q, (isNameChar c || c == '/') = true) (some : q ≠ [])
    (fragment : IsFragment f) :
    rewriteRule ("../../../docs/user-guide/".toList ++ (q ++ (".md".toList ++ f))) =
      "../".toList ++ (q ++ (".md".toList ++ f)) := by
  have dot : '.' ∉ "docs/user-guide/".toList ++ q := by
    intro mem
    obtain mem | mem := List.mem_append.mp mem
    · simp at mem
    · exact absurd (path '.' mem) (by decide)
  have cut : "../../../docs/user-guide/".toList ++ (q ++ (".md".toList ++ f)) =
      "../".toList ++ ("../".toList ++ ("../".toList ++ (("docs/user-guide/".toList ++ q) ++
        (".md".toList ++ f)))) := by
    simp
  have folder : siblingRule? ("../".toList ++ (("docs/user-guide/".toList ++ q) ++
      (".md".toList ++ f))) = none := by
    have docs : IsName "docs".toList := by decide
    have other : ¬ "README.md".toList <+: "user-guide/".toList ++ (q ++ (".md".toList ++ f)) := by
      simp
    simpa using siblingRule?_folder docs other
  have stays : replaceMatch siblingRule?
      ("../../../docs/user-guide/".toList ++ (q ++ (".md".toList ++ f))) =
        "../../../docs/user-guide/".toList ++ (q ++ (".md".toList ++ f)) := by
    have begins := siblingRule?_beginsUp
    rw [cut, begins.step (siblingRule?_up _), begins.step (siblingRule?_up _), begins.step folder,
      begins.skip dot, begins.page fragment]
  rw [rewriteRule, stays, replaceMatch_of_match (by simp) (userGuidePage?_eq path some f),
    List.append_assoc, List.append_assoc]

/-! ## root documents -/

/-- A link of a root document into `docs/` goes there from the root of the site. -/
theorem rewriteRoot_docs (s : List Char) :
    rewriteRoot ("docs/".toList ++ s) =
      replaceFirst "README.md".toList "index.md".toList ('/' :: s) := by
  have other : ¬ ("/docs/".toList.isPrefixOf ("docs/".toList ++ s) = true) := by
    rw [List.isPrefixOf_iff_prefix]
    simp
  have here : "docs/".toList.isPrefixOf ("docs/".toList ++ s) = true :=
    List.isPrefixOf_iff_prefix.mpr (List.prefix_append _ _)
  have cut : Text.stripFirst? ["/docs/".toList, "docs/".toList] ("docs/".toList ++ s) = some s := by
    rw [Text.stripFirst?, List.findSome?_cons, if_neg other, List.findSome?_cons, if_pos here,
      List.drop_left]
  rw [rewriteRoot, dropDocsFolder, cut]

end Docsite.Link
