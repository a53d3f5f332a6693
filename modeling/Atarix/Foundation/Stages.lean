import Mathlib.Tactic.Common

/-! # Checks in stages

A check of several stages reports the first verdict that is not `passed`.
-/

namespace Stages

variable {ε : Type} {passed : ε}

/-- The verdict of one stage. -/
def check (passed : ε) (holds : Prop) [Decidable holds] (failure : ε) : ε :=
  if holds then passed else failure

theorem check_of_holds {holds : Prop} [Decidable holds] (hholds : holds) (failure : ε) :
    check passed holds failure = passed :=
  if_pos hholds

theorem check_of_fails {holds : Prop} [Decidable holds] (hfails : ¬ holds) (failure : ε) :
    check passed holds failure = failure :=
  if_neg hfails

theorem check_eq_passed_iff {holds : Prop} [Decidable holds] {failure : ε}
    (hfailure : failure ≠ passed) : check passed holds failure = passed ↔ holds := by
  by_cases hholds : holds
  · exact iff_of_true (check_of_holds hholds failure) hholds
  · rw [check_of_fails hholds]
    exact iff_of_false hfailure hholds

variable [DecidableEq ε]

/-- The verdict of the first stage that fails. -/
def firstFailure (passed : ε) : List ε → ε
  | [] => passed
  | verdict :: rest => if verdict = passed then firstFailure passed rest else verdict

theorem firstFailure_cons_of_passed (rest : List ε) :
    firstFailure passed (passed :: rest) = firstFailure passed rest :=
  if_pos rfl

theorem firstFailure_cons_of_failed {verdict : ε} (hfailed : verdict ≠ passed) (rest : List ε) :
    firstFailure passed (verdict :: rest) = verdict :=
  if_neg hfailed

theorem firstFailure_check_cons {holds : Prop} [Decidable holds] {failure : ε}
    (hfailure : failure ≠ passed) (rest : List ε) :
    firstFailure passed (check passed holds failure :: rest) =
      if holds then firstFailure passed rest else failure := by
  split_ifs with hholds
  · rw [check_of_holds hholds, firstFailure_cons_of_passed]
  · rw [check_of_fails hholds, firstFailure_cons_of_failed hfailure]

theorem firstFailure_singleton (verdict : ε) : firstFailure passed [verdict] = verdict := by
  rw [firstFailure, firstFailure]
  split_ifs with hpassed
  · exact hpassed.symm
  · rfl

theorem firstFailure_eq_passed_iff {verdicts : List ε} :
    firstFailure passed verdicts = passed ↔ ∀ verdict ∈ verdicts, verdict = passed := by
  induction verdicts with
  | nil => simp [firstFailure]
  | cons verdict rest ih =>
      by_cases hverdict : verdict = passed
      · subst hverdict
        rw [firstFailure_cons_of_passed, ih, List.forall_mem_cons, eq_self, true_and]
      · rw [firstFailure_cons_of_failed hverdict]
        exact iff_of_false hverdict fun hall => hverdict (hall verdict List.mem_cons_self)

/-- Stages behind a failure do not count. -/
theorem firstFailure_append (first second : List ε) :
    firstFailure passed (first ++ second) =
      if firstFailure passed first = passed then firstFailure passed second
      else firstFailure passed first := by
  induction first with
  | nil => exact (if_pos rfl).symm
  | cons verdict rest ih =>
      by_cases hverdict : verdict = passed
      · subst hverdict
        rw [List.cons_append, firstFailure_cons_of_passed, firstFailure_cons_of_passed, ih]
      · rw [List.cons_append, firstFailure_cons_of_failed hverdict,
          firstFailure_cons_of_failed hverdict, if_neg hverdict]

end Stages
