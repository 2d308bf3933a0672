import Mathlib.Data.List.Sort
import Docsite.Files.FileTree

/-!
# Docsite.Proofs.Files.Listing

Listings of directories, and what they depend on.

Paths are in a total order, so a listing is settled by which paths are in it: listing what is left
of a file system is leaving out of the listing (`filter_list`, `filter_listAll`).  File systems that
have the same entries at the paths of a class (`SameOn`) have the same entries in listings that stay
within the class.
-/

namespace Docsite.Files

/-! ## the order of paths -/

namespace Path

theorem namesLe_trans {as bs cs : List String} (h : namesLe as bs = true)
    (h' : namesLe bs cs = true) : namesLe as cs = true := by
  induction as generalizing bs cs with
  | nil => rfl
  | cons a as ih =>
    cases bs with
    | nil => contradiction
    | cons b bs =>
      cases cs with
      | nil => contradiction
      | cons c cs =>
        simp only [namesLe, Bool.or_eq_true, Bool.and_eq_true, decide_eq_true_eq,
          beq_iff_eq] at h h' ⊢
        rcases h with less | ⟨rfl, rest⟩
        · rcases h' with less' | ⟨rfl, -⟩
          · exact .inl (Trans.trans less less')
          · exact .inl less
        · exact h'.imp_right fun ⟨same, rest'⟩ => ⟨same, ih rest rest'⟩

theorem namesLe_total (as bs : List String) : (namesLe as bs || namesLe bs as) = true := by
  induction as generalizing bs with
  | nil => rfl
  | cons a as ih =>
    cases bs with
    | nil => rfl
    | cons b bs =>
      simp only [namesLe, Bool.or_eq_true, Bool.and_eq_true, decide_eq_true_eq, beq_iff_eq]
      by_cases less : a < b
      · exact .inl (.inl less)
      · by_cases more : b < a
        · exact .inr (.inl more)
        · have same : a = b := Std.Trichotomous.trichotomous (r := (· < ·)) a b less more
          subst same
          have rest := ih bs
          rw [Bool.or_eq_true] at rest
          exact rest.imp (fun h => .inr ⟨rfl, h⟩) fun h => .inr ⟨rfl, h⟩

theorem namesLe_antisymm {as bs : List String} (h : namesLe as bs = true)
    (h' : namesLe bs as = true) : as = bs := by
  induction as generalizing bs with
  | nil =>
    cases bs with
    | nil => rfl
    | cons b bs => contradiction
  | cons a as ih =>
    cases bs with
    | nil => contradiction
    | cons b bs =>
      simp only [namesLe, Bool.or_eq_true, Bool.and_eq_true, decide_eq_true_eq,
        beq_iff_eq] at h h'
      rcases h with less | ⟨rfl, rest⟩
      · rcases h' with more | ⟨rfl, -⟩
        · exact absurd more (Std.Asymm.asymm _ _ less)
        · exact absurd less (Std.Irrefl.irrefl _)
      · rcases h' with more | ⟨-, rest'⟩
        · exact absurd more (Std.Irrefl.irrefl _)
        · rw [ih rest rest']

theorem le_trans (p q r : Path) (h : p.le q = true) (h' : q.le r = true) : p.le r = true :=
  namesLe_trans h h'

theorem le_total (p q : Path) : (p.le q || q.le p) = true := namesLe_total p.names q.names

theorem le_antisymm {p q : Path} (h : p.le q = true) (h' : q.le p = true) : p = q :=
  congrArg Path.mk (namesLe_antisymm h h')

theorem sorted_mergeSort (ps : List Path) :
    (ps.mergeSort Path.le).Pairwise fun p q => p.le q = true :=
  List.pairwise_mergeSort le_trans le_total ps

/-- Leaving paths out and sorting can be done in either order. -/
theorem filter_mergeSort (keep : Path → Bool) (ps : List Path) :
    (ps.mergeSort Path.le).filter keep = (ps.filter keep).mergeSort Path.le := by
  have perm : ((ps.mergeSort Path.le).filter keep).Perm ((ps.filter keep).mergeSort Path.le) :=
    ((List.mergeSort_perm ps _).filter keep).trans (List.mergeSort_perm _ _).symm
  exact perm.eq_of_pairwise (fun p q _ _ => le_antisymm) ((sorted_mergeSort ps).filter keep)
    (sorted_mergeSort _)

/-- Sorting by insertion gives the same, and evaluates step by step. -/
theorem mergeSort_eq_insertionSort (ps : List Path) :
    ps.mergeSort Path.le = ps.insertionSort fun p q => p.le q = true := by
  have total : Std.Total fun p q : Path => p.le q = true :=
    ⟨fun p q => by simpa using le_total p q⟩
  have trans : IsTrans Path fun p q => p.le q = true := ⟨le_trans⟩
  have perm := (List.mergeSort_perm ps Path.le).trans
    (List.perm_insertionSort (fun p q => p.le q = true) ps).symm
  exact perm.eq_of_pairwise (fun p q _ _ => le_antisymm) (sorted_mergeSort ps)
    (List.pairwise_insertionSort _ ps)

end Path

namespace FileTree

variable {t u v : FileTree} {p q : Path} {keep keep' : Path → Bool}

/-! ## the same entries -/

/-- Two file systems have the same entries, in the same order, at the paths of a class. -/
def SameOn (keep : Path → Bool) (t u : FileTree) : Prop :=
  (t.entries.filter fun (q, _) => keep q) = u.entries.filter fun (q, _) => keep q

theorem SameOn.refl (keep : Path → Bool) (t : FileTree) : SameOn keep t t := rfl

theorem SameOn.trans (h : SameOn keep t u) (h' : SameOn keep u v) : SameOn keep t v :=
  Eq.trans h h'

theorem SameOn.weaken (h : SameOn keep t u) (less : ∀ q, keep' q = true → keep q = true) :
    SameOn keep' t u := by
  have through (w : FileTree) : (w.entries.filter fun (q, _) => keep' q) =
      (w.entries.filter fun (q, _) => keep q).filter fun (q, _) => keep' q := by
    rw [List.filter_filter]
    congr 1
    funext ⟨q, e⟩
    cases kept : keep' q with
    | false => simp only [kept, Bool.false_and]
    | true => simp only [kept, less q kept, Bool.and_true]
  rw [SameOn, through t, through u, h]

theorem SameOn.get? (h : SameOn keep t u) (kept : keep q = true) : t.get? q = u.get? q := by
  have same := lookup_filter t.entries keep q
  rw [h, lookup_filter u.entries keep q, if_pos kept, if_pos kept] at same
  rw [FileTree.get?, FileTree.get?, same]

theorem SameOn.filter_paths (h : SameOn keep t u) (less : ∀ q, keep' q = true → keep q = true) :
    (t.entries.map Prod.fst).filter keep' = (u.entries.map Prod.fst).filter keep' := by
  have through (w : FileTree) : (w.entries.map Prod.fst).filter keep' =
      (w.entries.filter fun (q, _) => keep' q).map Prod.fst := by
    rw [List.filter_map]
    rfl
  rw [through t, through u, h.weaken less]

theorem sameOn_set (other : keep p = false) (t : FileTree) (e : Entry) :
    SameOn keep (t.set p e) t := by
  rw [SameOn, set]
  split
  · induction t.entries with
    | nil => rfl
    | cons x es ih =>
      obtain ⟨q, old⟩ := x
      by_cases here : q = p
      · subst here
        simpa [other] using ih
      · cases kept : keep q <;> simpa [here, kept] using ih
  · simp [List.filter_append, other]

theorem sameOn_remove (apart : ∀ q, keep q = true → q.isWithin p = false) (t : FileTree) :
    SameOn keep (t.remove p) t := by
  rw [SameOn, remove, List.filter_filter]
  congr 1
  funext v
  cases kept : keep v.1 <;> simp_all

/-! ## listings -/

theorem filter_list (t : FileTree) (p : Path) (keep : Path → Bool) :
    (t.list p).filter keep = ((t.entries.map Prod.fst).filter fun q =>
      keep q && decide (q.names ≠ [] ∧ q.parent = p)).mergeSort Path.le := by
  rw [list, Path.filter_mergeSort, List.filter_filter]

theorem filter_listAll (t : FileTree) (p : Path) (keep : Path → Bool) :
    (t.listAll p).filter keep = ((t.entries.map Prod.fst).filter fun q =>
      keep q && decide (q.isWithin p ∧ q ≠ p)).mergeSort Path.le := by
  rw [listAll, Path.filter_mergeSort, List.filter_filter]

/-- A file system without the entries at some paths. -/
def without (t : FileTree) (removed : List Path) : FileTree :=
  ⟨t.entries.filter fun (q, _) => !removed.contains q⟩

theorem sameOn_without (t : FileTree) (removed : List Path) :
    SameOn (fun q => !removed.contains q) (t.without removed) t := by
  rw [SameOn, without, List.filter_filter]
  simp only [Bool.and_self]

theorem map_fst_without (t : FileTree) (removed : List Path) :
    (t.without removed).entries.map Prod.fst =
      (t.entries.map Prod.fst).filter fun q => !removed.contains q := by
  rw [without, List.filter_map]
  rfl

theorem list_without (t : FileTree) (removed : List Path) (p : Path) :
    (t.without removed).list p = (t.list p).filter fun q => !removed.contains q := by
  rw [filter_list, list, map_fst_without, List.filter_filter]
  simp only [Bool.and_comm]

theorem listAll_without (t : FileTree) (removed : List Path) (p : Path) :
    (t.without removed).listAll p = (t.listAll p).filter fun q => !removed.contains q := by
  rw [filter_listAll, listAll, map_fst_without, List.filter_filter]
  simp only [Bool.and_comm]

/-- What stands at other paths, or stands there always, is not removed. -/
theorem get?_without {removed : List Path} (kept : q ∉ removed ∨ isFixed q = true) :
    (t.without removed).get? q = t.get? q := by
  rcases kept with other | fixed
  · exact (sameOn_without t removed).get? (by simpa using other)
  · rw [get?_of_isFixed _ fixed, get?_of_isFixed _ fixed]

/-- Removing entries makes no file. -/
theorem isFile_of_without {removed : List Path} (file : (t.without removed).isFile q = true) :
    t.isFile q = true := by
  by_cases mem : q ∈ removed ∧ isFixed q = false
  · have gone : (t.without removed).get? q = none := by
      rw [get?, mem.2, if_neg Bool.false_ne_true, without,
        lookup_filter t.entries fun r => !removed.contains r]
      simp [mem.1]
    rw [isFile, gone] at file
    contradiction
  · have kept : q ∉ removed ∨ isFixed q = true := by
      rw [Decidable.not_and_iff_or_not, Bool.not_eq_false] at mem
      exact mem
    rwa [isFile, get?_without kept] at file

end FileTree

end Docsite.Files
