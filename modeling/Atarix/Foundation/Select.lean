import Mathlib.Data.Nat.Nth
import Mathlib.Tactic.Common

/-! # Rank and select

The rank of a position is the number of places below it at which a predicate
holds, and selecting is the inverse. A predicate given by an increasing
enumeration of its places has the ranks of that enumeration.
-/

namespace Nat

variable {holds : Nat → Prop}

/-- `place` lists the `length` places at which `holds` is true, in order. -/
structure Enumerates (place : Nat → Nat) (length : Nat) (holds : Nat → Prop) : Prop where
  increasing : ∀ i j, i < j → j < length → place i < place j
  complete : ∀ position, holds position ↔ ∃ i < length, place i = position

variable {place : Nat → Nat} {length : Nat}

theorem Enumerates.injOn (henumerates : Enumerates place length holds) {count : Nat}
    (hcount : count ≤ length) : Set.InjOn place (Finset.range count) := by
  intro i hi j hj heq
  simp only [Finset.coe_range, Set.mem_Iio] at hi hj
  rcases Nat.lt_trichotomy i j with hlt | rfl | hlt
  · exact absurd heq (henumerates.increasing i j hlt (by omega)).ne
  · rfl
  · exact absurd heq (henumerates.increasing j i hlt (by omega)).ne'

variable [DecidablePred holds]

/-- The rank of a position that stands behind exactly the first `count` places. -/
theorem Enumerates.count_eq (henumerates : Enumerates place length holds) {position count : Nat}
    (hcount : count ≤ length) (hbefore : ∀ i < count, place i < position)
    (hbehind : ∀ i, count ≤ i → i < length → position ≤ place i) :
    Nat.count holds position = count := by
  have himage : (Finset.range position).filter holds = (Finset.range count).image place := by
    ext spot
    simp only [Finset.mem_filter, Finset.mem_range, Finset.mem_image, henumerates.complete]
    constructor
    · rintro ⟨hspot, i, hi, rfl⟩
      refine ⟨i, ?_, rfl⟩
      by_contra hlate
      exact absurd (hbehind i (Nat.not_lt.mp hlate) hi) (Nat.not_le.mpr hspot)
    · rintro ⟨i, hi, rfl⟩
      exact ⟨hbefore i hi, i, by omega, rfl⟩
  rw [Nat.count_eq_card_filter_range, himage,
    Finset.card_image_of_injOn (henumerates.injOn hcount), Finset.card_range]

/-- The rank of a listed place is its index. -/
theorem Enumerates.count_place (henumerates : Enumerates place length holds) {index : Nat}
    (hindex : index < length) : Nat.count holds (place index) = index := by
  refine henumerates.count_eq (Nat.le_of_lt hindex) ?_ fun i hle hi => ?_
  · exact fun i hi => henumerates.increasing i index hi hindex
  · rcases Nat.lt_or_eq_of_le hle with hlt | rfl
    · exact Nat.le_of_lt (henumerates.increasing index i hlt hi)
    · exact le_rfl

/-- Selecting by index finds the listed place. -/
theorem Enumerates.nth_eq (henumerates : Enumerates place length holds) {index : Nat}
    (hindex : index < length) : Nat.nth holds index = place index := by
  have hholds : holds (place index) := (henumerates.complete _).mpr ⟨index, hindex, rfl⟩
  rw [← Nat.nth_count hholds, henumerates.count_place hindex]

end Nat
