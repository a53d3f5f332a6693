import Mathlib.Data.BitVec
import Mathlib.Tactic.Common

/-! # Flag words

A flag word is a bit vector, a flag is a mask, and a flag is set when the word
and the mask share a bit. The laws here relate that test to the subset test
`small &&& ~~~large = 0` by which one word is compared with another, and the
classic test for a word with a single bit.
-/

namespace FlagWord

variable {width : Nat}

/-- Some bit of `mask` is set in `flags`. -/
def Has (flags mask : BitVec width) : Prop := flags &&& mask ≠ 0

instance (flags mask : BitVec width) : Decidable (Has flags mask) :=
  inferInstanceAs (Decidable (flags &&& mask ≠ 0))

@[simp] theorem not_has_zero (mask : BitVec width) : ¬ Has 0 mask := by
  simp [Has]

/-- Every bit of `small` is a bit of `large`. -/
def Subset (small large : BitVec width) : Prop := small &&& ~~~large = 0

instance (small large : BitVec width) : Decidable (Subset small large) :=
  inferInstanceAs (Decidable (small &&& ~~~large = 0))

theorem Subset.and_eq {small large : BitVec width} (hsub : Subset small large) :
    small &&& large = small := by
  apply BitVec.eq_of_getLsbD_eq
  intro bit hbit
  have hclear := congrArg (fun word => word.getLsbD bit) hsub
  simp only [BitVec.getLsbD_and, BitVec.getLsbD_not, hbit, decide_true, Bool.true_and,
    BitVec.ofNat_eq_ofNat, BitVec.getLsbD_zero] at hclear
  rw [BitVec.getLsbD_and]
  cases hsmall : small.getLsbD bit
  · rfl
  · simpa [hsmall] using hclear

theorem Subset.trans {small middle large : BitVec width} (hfirst : Subset small middle)
    (hsecond : Subset middle large) : Subset small large := by
  change small &&& ~~~large = 0
  rw [← hfirst.and_eq, BitVec.and_assoc, hsecond, BitVec.ofNat_eq_ofNat, BitVec.and_zero]

/-- A flag of the smaller word is a flag of the larger one. -/
theorem Has.mono {small large mask : BitVec width} (hsub : Subset small large)
    (hflag : Has small mask) : Has large mask := by
  intro hlarge
  apply hflag
  rw [← hsub.and_eq, BitVec.and_assoc, hlarge]
  simp

/-! ## Clearing flags -/

/-- The word without the bits of `cleared`. -/
def clear (flags cleared : BitVec width) : BitVec width := flags &&& ~~~cleared

theorem subset_clear (flags cleared : BitVec width) : Subset (clear flags cleared) flags := by
  apply BitVec.eq_of_getLsbD_eq
  intro bit hbit
  simp only [clear, BitVec.getLsbD_and, BitVec.getLsbD_not, hbit, decide_true, Bool.true_and,
    BitVec.ofNat_eq_ofNat, BitVec.getLsbD_zero]
  cases flags.getLsbD bit <;> simp

/-- A mask inside the cleared bits is gone. -/
theorem not_has_clear {cleared mask : BitVec width} (hsub : Subset mask cleared)
    (flags : BitVec width) : ¬ Has (clear flags cleared) mask := by
  rw [Has, not_not, clear, BitVec.and_assoc, BitVec.and_comm (~~~cleared) mask]
  exact (congrArg (flags &&& ·) hsub).trans (by simp)

/-- A mask outside of them is as before. -/
theorem has_clear_iff {cleared mask : BitVec width} (hdisjoint : mask &&& cleared = 0)
    (flags : BitVec width) : Has (clear flags cleared) mask ↔ Has flags mask := by
  have hkept : ~~~cleared &&& mask = mask := by
    apply BitVec.eq_of_getLsbD_eq
    intro bit hbit
    have hzero := congrArg (fun word => word.getLsbD bit) hdisjoint
    simp only [BitVec.getLsbD_and, BitVec.ofNat_eq_ofNat, BitVec.getLsbD_zero] at hzero
    simp only [BitVec.getLsbD_and, BitVec.getLsbD_not, hbit, decide_true, Bool.true_and]
    cases hmask : mask.getLsbD bit
    · simp
    · simpa [hmask] using hzero
  rw [Has, clear, BitVec.and_assoc, hkept, Has]

/-! ## Words with one flag -/

theorem twoPow_ne_zero {bit : Nat} (hlt : bit < width) : BitVec.twoPow width bit ≠ 0 := by
  intro hzero
  have hself := congrArg (fun word => word.getLsbD bit) hzero
  simp [hlt] at hself

theorem has_twoPow_iff (flags : BitVec width) (bit : Nat) :
    Has flags (BitVec.twoPow width bit) ↔ flags.getLsbD bit = true := by
  rw [Has, BitVec.and_twoPow]
  by_cases hbit : flags.getLsbD bit = true
  · rw [if_pos hbit]
    exact iff_of_true (twoPow_ne_zero (BitVec.lt_of_getLsbD hbit)) hbit
  · rw [if_neg hbit]
    exact iff_of_false (not_not.mpr rfl) hbit

/-- The test of programs for a word with exactly one bit. -/
theorem exists_eq_twoPow_iff (word : BitVec width) :
    word ≠ 0 ∧ word &&& (word - 1) = 0 ↔ ∃ bit < width, word = BitVec.twoPow width bit := by
  by_cases hzero : word = 0
  · refine iff_of_false (fun hone => hone.1 hzero) ?_
    rintro ⟨bit, hlt, heq⟩
    exact twoPow_ne_zero hlt (heq.symm.trans hzero)
  have hpos : word.toNat ≠ 0 := fun hnat => hzero (BitVec.eq_of_toNat_eq hnat)
  have hlt := word.isLt
  have hwidth : width ≠ 0 := by
    rintro rfl
    exact hzero (BitVec.eq_nil word)
  have hone : (1 : BitVec width).toNat = 1 := by
    exact Nat.mod_eq_of_lt (Nat.one_lt_two_pow hwidth)
  have hpred : (word - 1).toNat = word.toNat - 1 := by
    rw [BitVec.toNat_sub_of_le, hone]
    rw [BitVec.le_def, hone]
    exact Nat.one_le_iff_ne_zero.mpr hpos
  have hnat : word &&& (word - 1) = 0 ↔ word.toNat.isPowerOfTwo := by
    rw [← Nat.and_sub_one_eq_zero_iff_isPowerOfTwo hpos, ← BitVec.toNat_inj, BitVec.toNat_and,
      hpred]
    exact Iff.of_eq (congrArg _ (Nat.zero_mod _))
  rw [hnat]
  constructor
  · rintro ⟨-, bit, heq⟩
    have hbit : bit < width := (Nat.pow_lt_pow_iff_right (by omega)).mp (heq ▸ hlt)
    refine ⟨bit, hbit, BitVec.eq_of_toNat_eq ?_⟩
    rw [heq, BitVec.toNat_twoPow_of_lt hbit]
  · rintro ⟨bit, hbit, heq⟩
    exact ⟨hzero, bit, by rw [heq, BitVec.toNat_twoPow_of_lt hbit]⟩

end FlagWord
