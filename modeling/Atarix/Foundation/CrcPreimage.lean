import Mathlib.Data.FinEnum
import Atarix.Foundation.CrcBurst

/-! # Bytes that lead a checksum anywhere

What makes a cyclic redundancy check catch every burst of four bytes also makes
it useless against a forger: through four bytes of the data the register can be
led to every value, and to each one in a single way.
-/

namespace Memory

/-- Clearing one place and writing another do not meet. -/
theorem zeroRange_write_comm (memory : Memory) {cleared length offset : Nat}
    {bytes : List (BitVec 8)}
    (hbehind : cleared + length ≤ offset) :
    (memory.write offset bytes).zeroRange cleared length =
      (memory.zeroRange cleared length).write offset bytes := by
  funext index
  by_cases hcleared : cleared ≤ index ∧ index < cleared + length
  · rw [write_of_outside (.inl (by omega)), zeroRange, zeroRange, if_pos hcleared, if_pos hcleared]
  · simp only [zeroRange, write, if_neg hcleared]

end Memory

namespace Crc

open Memory

variable {polynomial : BitVec 32} {start length : Nat}

/-- Two words in one place lead the register to different values. -/
theorem update_write_injective (htop : polynomial.getLsbD 31 = true) (crc : BitVec 32)
    (data : Memory) (hinside : start + 4 ≤ length) :
    Function.Injective fun word : BitVec 32 =>
      update (polynomialStep polynomial) crc (data.write start (le32 word)) length := by
  intro left right heq
  by_contra hne
  have hdiffer : ∃ index < length,
      data.write start (le32 left) index ≠ data.write start (le32 right) index := by
    by_contra! hsame
    have hload : (data.write start (le32 left)).load32 start =
        (data.write start (le32 right)).load32 start :=
      load32_congr fun step hstep => hsame (start + step) (by omega)
    rw [(holds_write_same data start (le32 left)).load32,
      (holds_write_same data start (le32 right)).load32] at hload
    exact hne hload
  have hagree : ∀ index < length, index < start ∨ start + 4 ≤ index →
      data.write start (le32 left) index = data.write start (le32 right) index := by
    intro index _ hoff
    rw [write_of_outside hoff, write_of_outside hoff]
  exact update_ne_of_burst htop crc hagree hdiffer heq

/-- There are as many words as registers, also behind a final mask. -/
theorem existsUnique_update_write (htop : polynomial.getLsbD 31 = true)
    (crc mask target : BitVec 32) (data : Memory) (hinside : start + 4 ≤ length) :
    ∃! word : BitVec 32,
      update (polynomialStep polynomial) crc (data.write start (le32 word)) length ^^^ mask =
        target := by
  have hinjective : Function.Injective fun word : BitVec 32 =>
      update (polynomialStep polynomial) crc (data.write start (le32 word)) length ^^^ mask := by
    intro left right heq
    exact update_write_injective htop crc data hinside ((BitVec.xor_left_inj mask).mp heq)
  exact (Finite.injective_iff_bijective.mp hinjective).existsUnique target

end Crc
