import Docsite.Text.Search

/-!
# Docsite.Proofs.Text.Search

Where a replacement does not look, and what it leaves.

A search goes on from character to character, so a stretch in which an occurrence cannot begin is
passed by as it is (`replaceFirst_skip`), and a text that lacks one of the characters looked for
stays as it is (`replaceFirst_of_notMem`).  A text holds what is looked for or is left alone
(`replaceFirst_eq_self_iff`).  Cutting a text gives the piece before the first separator and
then the pieces of the rest.  No run of a mark is longer than the longest one that is found from
left to right (`le_longestRun`).
-/

namespace Docsite.Text

variable {c : Char} {old new s w : List Char}

/-! ## replacing -/

/-- What is looked for stands at the start. -/
theorem replaceFirst_append (some : old ≠ []) (new s : List Char) :
    replaceFirst old new (old ++ s) = new ++ s := by
  obtain ⟨c, cs, rfl⟩ := List.exists_cons_of_ne_nil some
  have here : (c :: cs).isPrefixOf (c :: (cs ++ s)) = true :=
    List.isPrefixOf_iff_prefix.mpr ⟨s, rfl⟩
  rw [List.cons_append, replaceFirst, if_pos here]
  simp

/-- What is looked for does not stand at the start. -/
theorem replaceFirst_cons (other : ¬ old <+: c :: s) :
    replaceFirst old new (c :: s) = c :: replaceFirst old new s := by
  rw [replaceFirst, if_neg (by rwa [List.isPrefixOf_iff_prefix])]

/-- A stretch without the first character of what is looked for is passed by. -/
theorem replaceFirst_skip (absent : c ∉ w) (old new s : List Char) :
    replaceFirst (c :: old) new (w ++ s) = w ++ replaceFirst (c :: old) new s := by
  induction w with
  | nil => rfl
  | cons d w ih =>
    rw [List.mem_cons, not_or] at absent
    have other : ¬ c :: old <+: d :: (w ++ s) := fun h =>
      absent.1 (List.cons_prefix_cons.mp h).1
    rw [List.cons_append, replaceFirst_cons other, ih absent.2, List.cons_append]

/-- A text that does not hold what is looked for stays as it is. -/
theorem replaceFirst_of_not_infix (some : old ≠ []) (absent : ¬ old <:+: s) (new : List Char) :
    replaceFirst old new s = s := by
  induction s with
  | nil =>
    obtain ⟨c, cs, rfl⟩ := List.exists_cons_of_ne_nil some
    rfl
  | cons d s ih =>
    rw [List.infix_cons_iff, not_or] at absent
    rw [replaceFirst_cons absent.1, ih absent.2]

/-- A text without one of the characters of what is looked for stays as it is. -/
theorem replaceFirst_of_notMem (mem : c ∈ old) (absent : c ∉ s) (new : List Char) :
    replaceFirst old new s = s :=
  replaceFirst_of_not_infix (List.ne_nil_of_mem mem) (fun h => absent (h.subset mem)) new

/-- What is looked for is found somewhere, or the text stays as it is. -/
theorem replaceFirst_cases (some : old ≠ []) (new s : List Char) :
    replaceFirst old new s = s ∨
      ∃ a b, s = a ++ (old ++ b) ∧ replaceFirst old new s = a ++ (new ++ b) := by
  induction s with
  | nil =>
    left
    exact replaceFirst_of_not_infix some (fun h => some (List.infix_nil.mp h)) new
  | cons d s ih =>
    by_cases here : old <+: d :: s
    · obtain ⟨b, is⟩ := here
      exact .inr ⟨[], b, is.symm, by rw [← is, replaceFirst_append some, List.nil_append]⟩
    · rw [replaceFirst_cons here]
      rcases ih with same | ⟨a, b, is, done⟩
      · exact .inl (congrArg _ same)
      · exact .inr ⟨d :: a, b, congrArg _ is, congrArg _ done⟩

/-- A text ends as before if what is looked for and what replaces it end alike. -/
theorem suffix_replaceFirst {e : List Char} (some : old ≠ []) (ends : e <:+ old) (ends' : e <:+ new)
    (short : w.length ≤ e.length) (suffix : w <:+ s) : w <:+ replaceFirst old new s := by
  rcases replaceFirst_cases some new s with same | ⟨a, b, rfl, same⟩
  · rwa [same]
  · have behind {x : List Char} (ends : e <:+ x) : e ++ b <:+ a ++ (x ++ b) := by
      obtain ⟨d, rfl⟩ := ends
      exact ⟨a ++ d, by simp⟩
    rw [same]
    refine (List.suffix_of_suffix_length_le suffix (behind ends) ?_).trans (behind ends')
    rw [List.length_append]
    omega

/-- One occurrence is replaced. -/
theorem length_replaceFirst (some : old ≠ []) (found : old <:+: s) (new : List Char) :
    (replaceFirst old new s).length + old.length = s.length + new.length := by
  induction s with
  | nil => exact absurd (List.infix_nil.mp found) some
  | cons d s ih =>
    by_cases here : old <+: d :: s
    · have short := here.length_le
      rw [replaceFirst, if_pos (List.isPrefixOf_iff_prefix.mpr here), List.length_append,
        List.length_drop]
      omega
    · have rest := ih ((List.infix_cons_iff.mp found).resolve_left here)
      rw [replaceFirst_cons here, List.length_cons, List.length_cons]
      omega

/-- A replacement by a text of another length leaves alone just the texts that do not hold what is
looked for. -/
theorem replaceFirst_eq_self_iff (some : old ≠ []) (other : new.length ≠ old.length) :
    replaceFirst old new s = s ↔ ¬ old <:+: s := by
  constructor
  · intro same found
    have length := length_replaceFirst some found new
    rw [same] at length
    omega
  · exact fun absent => replaceFirst_of_not_infix some absent new

/-- No end of a text is a beginning of it too, but the whole text. -/
def Borderless (n : List Char) : Prop := ∀ k, k < n.length → 0 < k → ¬ n.drop k <+: n

instance (n : List Char) : Decidable (Borderless n) :=
  inferInstanceAs (Decidable (∀ k, k < n.length → 0 < k → ¬ n.drop k <+: n))

/-- Two occurrences in a text are one, or one is over before the other begins. -/
theorem Borderless.cut {n a b s s' : List Char} (borderless : Borderless n)
    (same : a ++ (n ++ s) = b ++ (n ++ s')) : (a = b ∧ s = s') ∨ a ++ n <+: b ∨ b ++ n <+: a := by
  have first {a b s s' : List Char} (same : a ++ (n ++ s) = b ++ (n ++ s')) (begins : a <+: b) :
      (a = b ∧ s = s') ∨ a ++ n <+: b := by
    obtain ⟨d, rfl⟩ := begins
    rw [List.append_assoc, List.append_cancel_left_eq] at same
    rcases Nat.lt_or_ge d.length n.length with short | long
    · obtain ⟨e, rfl⟩ : d <+: n :=
        List.prefix_of_prefix_length_le ⟨_, same.symm⟩ (List.prefix_append n s) (Nat.le_of_lt short)
      cases d with
      | nil =>
        rw [List.nil_append, List.nil_append, List.append_cancel_left_eq] at same
        exact .inl ⟨(List.append_nil a).symm, same⟩
      | cons c d =>
        have ends : e <+: c :: d ++ e := by
          rw [List.append_assoc, List.append_cancel_left_eq] at same
          refine List.prefix_of_prefix_length_le (List.prefix_append e s) ?_ (by simp; omega)
          rw [same]
          exact List.prefix_append _ _
        refine absurd ?_ (borderless (c :: d).length short (by simp))
        rwa [List.drop_left]
    · refine .inr ((List.prefix_append_right_inj a).mpr ?_)
      exact List.prefix_of_prefix_length_le (List.prefix_append n s) ⟨_, same.symm⟩ long
  rcases List.prefix_or_prefix_of_prefix ⟨_, same⟩ (List.prefix_append b (n ++ s')) with h | h
  · exact (first same h).imp_right .inl
  · rcases first same.symm h with ⟨rfl, rfl⟩ | h
    · exact .inl ⟨rfl, rfl⟩
    · exact .inr (.inr h)

/-- A single character is replaced wherever it stands. -/
theorem replaceAll_singleton (c : Char) (new s : List Char) :
    replaceAll [c] new s = s.flatMap fun d => if d = c then new else [d] := by
  show replaceFrom [c] new 0 s = _
  induction s with
  | nil => rfl
  | cons d ds ih =>
    rw [replaceFrom, List.flatMap_cons, ← ih]
    by_cases same : d = c
    · simp [same]
    · simp [same, Ne.symm same]

/-! ## cutting -/

theorem splitAt_of_notMem (absent : c ∉ s) : splitAt c s = [s] := by
  induction s with
  | nil => rfl
  | cons d s ih =>
    rw [List.mem_cons, not_or] at absent
    simp [splitAt, Ne.symm absent.1, ih absent.2]

theorem splitAt_append (absent : c ∉ w) (s : List Char) :
    splitAt c (w ++ c :: s) = w :: splitAt c s := by
  induction w with
  | nil => simp
  | cons d w ih =>
    rw [List.mem_cons, not_or] at absent
    simp [splitAt, Ne.symm absent.1, ih absent.2]

theorem splitAt_intercalate {ws : List (List Char)} (some : ws ≠ []) (absent : ∀ w ∈ ws, c ∉ w) :
    splitAt c ([c].intercalate ws) = ws := by
  induction ws with
  | nil => exact absurd rfl some
  | cons w ws ih =>
    obtain ⟨own, absent⟩ := List.forall_mem_cons.mp absent
    cases ws with
    | nil => rw [List.intercalate_singleton, splitAt_of_notMem own]
    | cons v ws =>
      rw [List.intercalate_cons_cons, List.append_assoc, List.singleton_append, splitAt_append own,
        ih (List.cons_ne_nil _ _) absent]

/-! ## runs -/

theorem runLength_eq (c : Char) (s : List Char) :
    runLength [] c s = (s.takeWhile (· == c)).length := by
  rw [runLength, if_pos (List.isPrefixOf_iff_prefix.mpr List.nil_prefix), List.length_nil,
    List.drop_zero]
  cases (s.takeWhile (· == c)).length with
  | zero => rfl
  | succ n => simp

theorem runLength_cons_self (c : Char) (s : List Char) :
    runLength [] c (c :: s) = runLength [] c s + 1 := by
  simp [runLength_eq]

theorem runLength_cons_of_ne {d : Char} (other : d ≠ c) (s : List Char) :
    runLength [] c (d :: s) = 0 := by
  simp [runLength_eq, other]

theorem le_runLength {k : Nat} (begins : List.replicate k c <+: s) : k ≤ runLength [] c s := by
  induction k generalizing s with
  | zero => exact Nat.zero_le _
  | succ k ih =>
    rw [List.replicate_succ] at begins
    obtain ⟨rest, rfl⟩ := begins
    rw [List.cons_append, runLength_cons_self]
    exact Nat.succ_le_succ (ih (List.prefix_append _ _))

/-- A run that is longer than the one at the start of a text is found behind it. -/
theorem le_runLength_or_infix {k : Nat} (found : List.replicate k c <:+: s) :
    k ≤ runLength [] c s ∨ List.replicate k c <:+: s.drop (runLength [] c s) := by
  induction s with
  | nil => exact .inr found
  | cons d s ih =>
    by_cases same : d = c
    · subst same
      rw [runLength_cons_self, List.drop_succ_cons]
      rcases List.infix_cons_iff.mp found with begins | later
      · exact .inl (runLength_cons_self d s ▸ le_runLength begins)
      · exact (ih later).imp_left Nat.le_succ_of_le
    · rw [runLength_cons_of_ne same]
      exact .inr found

/-- The characters that are passed over belong to a run that has been counted. -/
theorem le_longestRunFrom {k skip : Nat} (found : List.replicate k c <:+: s.drop skip) :
    k ≤ longestRunFrom [] c skip s := by
  induction s generalizing skip with
  | nil => simp_all
  | cons d s ih =>
    cases skip with
    | succ skip => exact ih found
    | zero =>
      have counted : k ≤ runLength [] c (d :: s) ∨
          List.replicate k c <:+: s.drop (runLength [] c (d :: s) - 1) := by
        by_cases same : d = c
        · subst same
          simpa [runLength_cons_self] using le_runLength_or_infix found
        · rw [runLength_cons_of_ne same]
          rcases List.infix_cons_iff.mp found with begins | later
          · exact .inl (runLength_cons_of_ne same s ▸ le_runLength begins)
          · exact .inr later
      rw [longestRunFrom]
      rcases counted with here | behind
      · exact Nat.le_trans here (Nat.le_max_left ..)
      · exact Nat.le_trans (ih behind) (Nat.le_max_right ..)

/-- No run of a mark is longer than the longest one. -/
theorem le_longestRun {k : Nat} (found : List.replicate k c <:+: s) : k ≤ longestRun [c] s := by
  have whole : List.replicate k c <:+: s.drop 0 := found
  exact le_longestRunFrom whole

end Docsite.Text
