import Mathlib.Data.List.Nodup
import Mathlib.Data.Nat.Bitwise
import Mathlib.Tactic.Common

/-! # Distinct numbers

A list of numbers is checked for repetitions by marking each of them in the bits
of one number, so that the check evaluates in as many steps as the list is long.
-/

namespace List

/-- The numbers are distinct from each other and from those marked in `seen`. -/
def unmarked : List Nat → Nat → Bool
  | [], _ => true
  | value :: rest, seen => !seen.testBit value && unmarked rest (seen ||| 1 <<< value)

theorem nodup_of_unmarked {values : List Nat} {seen : Nat} (hunmarked : unmarked values seen) :
    values.Nodup ∧ ∀ value ∈ values, seen.testBit value = false := by
  induction values generalizing seen with
  | nil => simp
  | cons value rest ih =>
      simp only [unmarked, Bool.and_eq_true, Bool.not_eq_true'] at hunmarked
      obtain ⟨hfresh, hrest⟩ := hunmarked
      obtain ⟨hnodup, hmarks⟩ := ih hrest
      have hmark : ∀ other ∈ rest, seen.testBit other = false ∧ other ≠ value := by
        intro other hother
        have hclear := hmarks other hother
        rw [Nat.testBit_or, Bool.or_eq_false_iff, Nat.one_shiftLeft, Nat.testBit_two_pow] at hclear
        exact ⟨hclear.1, fun heq => of_decide_eq_false hclear.2 heq.symm⟩
      refine ⟨List.nodup_cons.mpr ⟨fun hmem => (hmark value hmem).2 rfl, hnodup⟩, ?_⟩
      intro other hother
      rcases List.mem_cons.mp hother with rfl | hother
      · exact hfresh
      · exact (hmark other hother).1

/-- A function is injective on the numbers below `count` if marking its values
meets no mark. -/
theorem injOn_of_unmarked {f : Nat → Nat} {count : Nat}
    (hunmarked : unmarked ((List.range count).map f) 0) :
    ∀ i < count, ∀ j < count, f i = f j → i = j := by
  intro i hi j hj heq
  have hinjective := List.inj_on_of_nodup_map (nodup_of_unmarked hunmarked).1
  exact hinjective (List.mem_range.mpr hi) (List.mem_range.mpr hj) heq

end List
