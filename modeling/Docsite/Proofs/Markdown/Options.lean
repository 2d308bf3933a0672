import Docsite.Markdown.Options

/-!
# Docsite.Proofs.Markdown.Options

The options that are in force after any number of changes.

Whatever is asked for, only options that are allowed come into force: a change answers with the
options after it if these are allowed (`change_eq_ok_iff`), and a change that is refused leaves
those in force that were (`afterSteps_concat`).
-/

namespace Docsite.Markdown.WritingOptions

variable {o o' : WritingOptions}

/-- There is a bullet to write lists with, and no fence may have fewer than three marks. -/
structure Allowed (o : WritingOptions) : Prop where
  bullets : o.bullets ≠ ""
  fenceMin : 3 ≤ o.fenceMin

theorem Allowed.length_bullets_pos (allowed : o.Allowed) : 0 < o.bullets.length := by
  rw [← String.length_toList]
  exact List.length_pos_iff.mpr (mt String.toList_eq_nil_iff.mp allowed.bullets)

/-- Options are let through as they are, and just if they are allowed. -/
theorem check_eq_ok_iff : o.check = .ok o' ↔ o' = o ∧ o.Allowed := by
  rw [check]
  split
  · next none => exact ⟨nofun, fun h => absurd (String.isEmpty_iff.mp none) h.2.bullets⟩
  · next some =>
    split
    · next short => exact ⟨nofun, fun h => absurd h.2.fenceMin (by omega)⟩
    · next long =>
      rw [Except.ok.injEq, eq_comm]
      refine (and_iff_left ⟨fun none => some ?_, by omega⟩).symm
      rw [none]
      rfl

theorem change_eq_ok_iff {c : WritingChange} :
    o.change c = .ok o' ↔ o' = o.replace c ∧ (o.replace c).Allowed := check_eq_ok_iff

/-- The first change gives way to the others, from the options that it leaves in force. -/
theorem afterSteps_cons (o : WritingOptions) (c : WritingChange) (cs : List WritingChange) :
    o.afterSteps (c :: cs) =
      match o.change c with
      | .ok o' => o'.afterSteps cs
      | .error _ => o.afterSteps cs := by
  simp only [afterSteps, List.foldl_cons]
  cases o.change c <;> rfl

/-- The last change works on the options that are in force before it. -/
theorem afterSteps_concat (o : WritingOptions) (cs : List WritingChange) (c : WritingChange) :
    o.afterSteps (cs ++ [c]) =
      match (o.afterSteps cs).change c with
      | .ok o' => o'
      | .error _ => o.afterSteps cs := by
  induction cs generalizing o with
  | nil => exact afterSteps_cons o c []
  | cons d cs ih =>
    rw [List.cons_append, afterSteps_cons, afterSteps_cons]
    cases o.change d <;> exact ih _

/-- And so is its answer the last one. -/
theorem steps_concat (o : WritingOptions) (cs : List WritingChange) (c : WritingChange) :
    o.steps (cs ++ [c]) = o.steps cs ++ [(o.afterSteps cs).change c] := by
  induction cs generalizing o with
  | nil =>
    have own : o.afterSteps [] = o := rfl
    simp only [List.nil_append, steps, own]
    cases o.change c <;> rfl
  | cons d cs ih =>
    rw [List.cons_append, steps, steps, afterSteps_cons]
    cases o.change d <;> exact congrArg _ (ih _)

/-- Only options that are allowed come into force. -/
theorem Allowed.afterSteps (allowed : o.Allowed) (cs : List WritingChange) :
    (o.afterSteps cs).Allowed := by
  induction cs generalizing o with
  | nil => exact allowed
  | cons c cs ih =>
    rw [afterSteps_cons]
    cases changed : o.change c with
    | ok o' =>
      obtain ⟨rfl, others⟩ := change_eq_ok_iff.mp changed
      exact ih others
    | error fault => exact ih allowed

end Docsite.Markdown.WritingOptions
