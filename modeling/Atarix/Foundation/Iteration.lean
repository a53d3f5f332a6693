import Mathlib.Tactic.Common

/-! # Iterating a successor that can fail

An iterator is a successor function into `Option`. It ends if each step climbs in
a measure with a bound.
-/

namespace Iteration

variable {α : Type*} {next : α → Option α}

/-- The element that `count` applications of `next` lead to. -/
def after (next : α → Option α) (first : Option α) : Nat → Option α
  | 0 => first
  | count + 1 => (after next first count).bind next

/-- The first application can be made before the others. -/
theorem after_succ (first : Option α) (count : Nat) :
    after next first (count + 1) = after next (first.bind next) count := by
  induction count with
  | zero => rfl
  | succ count ih =>
      rw [after, ih]
      rfl

/-- What holds behind every step holds wherever the iteration gets to. -/
theorem after_induction {property : α → Prop} {first : Option α}
    (hfirst : ∀ element, first = some element → property element)
    (hstep : ∀ element successor, next element = some successor → property successor)
    {count : Nat} {element : α} (helement : after next first count = some element) :
    property element := by
  cases count with
  | zero => exact hfirst element helement
  | succ count =>
      obtain ⟨previous, -, hnext⟩ := Option.bind_eq_some_iff.mp helement
      exact hstep previous element hnext

section Measure

variable {measure : α → Nat} {bound : Nat}
  (hstep : ∀ element successor, next element = some successor →
    measure element < measure successor ∧ measure successor < bound)
include hstep

theorem count_le_measure {first : Option α} {count : Nat} {element : α}
    (helement : after next first count = some element) : count ≤ measure element := by
  induction count generalizing element with
  | zero => exact Nat.zero_le _
  | succ count ih =>
      obtain ⟨previous, hprevious, hnext⟩ := Option.bind_eq_some_iff.mp helement
      exact Nat.lt_of_le_of_lt (ih hprevious) (hstep previous element hnext).1

/-- An iteration that climbs below a bound ends. -/
theorem exists_after_eq_none (first : Option α) : ∃ count, after next first count = none := by
  refine ⟨bound + 1, Option.eq_none_iff_forall_ne_some.mpr fun element helement => ?_⟩
  obtain ⟨previous, -, hnext⟩ := Option.bind_eq_some_iff.mp helement
  have hle := count_le_measure hstep helement
  have hlt := (hstep previous element hnext).2
  omega

end Measure

end Iteration
