import Atarix.Foundation.Crc

/-! # Bursts of errors under a cyclic redundancy check

A bit step that shifts the register and adds a polynomial is linear, and it is
injective if the polynomial has its top bit. Four bytes fill the register, so
data that differ within four consecutive bytes never share a checksum.
-/

namespace Crc

/-- The bit step of a reflected generator polynomial. -/
def polynomialStep (polynomial crc : BitVec 32) : BitVec 32 :=
  (crc >>> 1) ^^^ (if crc.getLsbD 0 then polynomial else 0)

/-- The register after taking in the bits of `value`, the lowest first. -/
def takeBits (bitStep : BitVec 32 → BitVec 32) {width : Nat} (crc : BitVec 32)
    (value : BitVec width) : BitVec 32 :=
  steps bitStep width (crc ^^^ value.setWidth 32)

variable {polynomial : BitVec 32}

/-! ## One bit step -/

theorem and_one_eq (crc : BitVec 32) : crc &&& 1 = if crc.getLsbD 0 then 1 else 0 := by
  rw [show (1 : BitVec 32) = 1#32 from rfl, BitVec.and_one_eq_setWidth_ofBool_getLsbD]
  cases crc.getLsbD 0 <;> rfl

/-- The test of programs for the bit that falls out. -/
theorem and_one_ne_zero_iff (crc : BitVec 32) : crc &&& 1 ≠ 0 ↔ crc.getLsbD 0 = true := by
  rw [and_one_eq]
  cases crc.getLsbD 0 <;> decide

theorem polynomialStep_xor (polynomial left right : BitVec 32) :
    polynomialStep polynomial (left ^^^ right) =
      polynomialStep polynomial left ^^^ polynomialStep polynomial right := by
  have hsum : (if left.getLsbD 0 ^^ right.getLsbD 0 then polynomial else 0) =
      (if left.getLsbD 0 then polynomial else 0) ^^^
        (if right.getLsbD 0 then polynomial else 0) := by
    cases left.getLsbD 0 <;> cases right.getLsbD 0 <;> simp
  rw [polynomialStep, polynomialStep, polynomialStep, BitVec.ushiftRight_xor_distrib,
    BitVec.getLsbD_xor, hsum]
  ac_rfl

/-- While a zero falls out of the register, it only moves down. -/
theorem polynomialStep_of_even (polynomial : BitVec 32) {crc : BitVec 32}
    (heven : crc.getLsbD 0 = false) : polynomialStep polynomial crc = crc >>> 1 := by
  rw [polynomialStep, if_neg (by rw [heven]; exact Bool.false_ne_true)]
  exact BitVec.xor_zero

/-- The bit that falls out comes back at the top. -/
theorem getLsbD_polynomialStep_top (htop : polynomial.getLsbD 31 = true) (crc : BitVec 32) :
    (polynomialStep polynomial crc).getLsbD 31 = crc.getLsbD 0 := by
  have hshift : (crc >>> 1).getLsbD 31 = false := by simp
  rw [polynomialStep, BitVec.getLsbD_xor, hshift, Bool.false_xor]
  cases crc.getLsbD 0 with
  | false => exact BitVec.getLsbD_zero
  | true => exact htop

theorem polynomialStep_injective (htop : polynomial.getLsbD 31 = true) :
    Function.Injective (polynomialStep polynomial) := by
  intro left right heq
  have hlow : left.getLsbD 0 = right.getLsbD 0 := by
    rw [← getLsbD_polynomialStep_top htop left, heq, getLsbD_polynomialStep_top htop]
  have hshift : left >>> 1 = right >>> 1 := by
    simp only [polynomialStep, hlow] at heq
    exact (BitVec.xor_left_inj _).mp heq
  apply BitVec.eq_of_getLsbD_eq
  intro index hindex
  cases index with
  | zero => exact hlow
  | succ index =>
      have hbit := congrArg (·.getLsbD index) hshift
      simpa [BitVec.getLsbD_ushiftRight, Nat.add_comm] using hbit

/-! ## Runs of bit steps -/

theorem steps_add (bitStep : BitVec 32 → BitVec 32) (first second : Nat) (crc : BitVec 32) :
    steps bitStep (first + second) crc = steps bitStep second (steps bitStep first crc) := by
  induction first generalizing crc with
  | zero => rw [Nat.zero_add, steps]
  | succ first ih => rw [Nat.succ_add, steps, steps, ih]

theorem steps_xor (polynomial : BitVec 32) (count : Nat) (left right : BitVec 32) :
    steps (polynomialStep polynomial) count (left ^^^ right) =
      steps (polynomialStep polynomial) count left ^^^
        steps (polynomialStep polynomial) count right := by
  induction count generalizing left right with
  | zero => rfl
  | succ count ih => rw [steps, polynomialStep_xor, ih, steps, steps]

theorem steps_injective (htop : polynomial.getLsbD 31 = true) (count : Nat) :
    Function.Injective (steps (polynomialStep polynomial) count) := by
  induction count with
  | zero => exact fun _ _ heq => heq
  | succ count ih => exact fun _ _ heq => polynomialStep_injective htop (ih heq)

/-- A register whose low bits are clear moves down by as many bit steps. -/
theorem steps_of_low_clear (polynomial : BitVec 32) {count : Nat} {crc : BitVec 32}
    (hclear : ∀ index < count, crc.getLsbD index = false) :
    steps (polynomialStep polynomial) count crc = crc >>> count := by
  induction count generalizing crc with
  | zero => exact (BitVec.ushiftRight_zero crc).symm
  | succ count ih =>
      rw [steps, polynomialStep_of_even polynomial (hclear 0 (by omega)), ih,
        ← BitVec.shiftRight_add,
        Nat.add_comm]
      intro index hindex
      rw [BitVec.getLsbD_ushiftRight]
      exact hclear (1 + index) (by omega)

/-- Bits that are still to come may be added ahead of their turn. -/
theorem steps_shiftLeft (polynomial : BitVec 32) {width count : Nat} (value : BitVec width)
    (hroom : width + count ≤ 32) :
    steps (polynomialStep polynomial) count (value.setWidth 32 <<< count) = value.setWidth 32 := by
  rw [steps_of_low_clear polynomial fun index hindex => by simp [hindex]]
  apply BitVec.eq_of_getLsbD_eq
  intro index hindex
  simp only [BitVec.getLsbD_ushiftRight, BitVec.getLsbD_shiftLeft, BitVec.getLsbD_setWidth]
  by_cases hwidth : index < width
  · simp [hindex, show count + index < 32 by omega]
  · simp [BitVec.getLsbD_of_ge value index (by omega)]

/-- Two values taken in one behind the other are one value. -/
theorem takeBits_append (polynomial : BitVec 32) {high low : Nat} (hroom : high + low ≤ 32)
    (crc : BitVec 32) (upper : BitVec high) (lower : BitVec low) :
    takeBits (polynomialStep polynomial) (takeBits (polynomialStep polynomial) crc lower) upper =
      takeBits (polynomialStep polynomial) crc (upper ++ lower) := by
  have happend : (upper ++ lower).setWidth 32 =
      lower.setWidth 32 ^^^ upper.setWidth 32 <<< low := by
    apply BitVec.eq_of_getLsbD_eq
    intro index hindex
    simp only [BitVec.getLsbD_setWidth, BitVec.getLsbD_append, BitVec.getLsbD_xor,
      BitVec.getLsbD_shiftLeft]
    by_cases hlow : index < low
    · simp [hlow]
    · simp [hlow, hindex, BitVec.getLsbD_of_ge lower index (by omega),
        show index - low < 32 by omega]
  rw [takeBits, takeBits, takeBits, happend, ← BitVec.xor_assoc, Nat.add_comm high low, steps_add,
    steps_xor polynomial low (crc ^^^ _), steps_shiftLeft polynomial upper hroom]

/-! ## Bytes -/

/-- Four bytes are taken in as the word they make. -/
theorem update_add_four (polynomial crc : BitVec 32) (data : Memory) (start : Nat) :
    update (polynomialStep polynomial) crc data (start + 4) =
      takeBits (polynomialStep polynomial) (update (polynomialStep polynomial) crc data start)
        (data.load32 start) := by
  rw [Memory.load32, ← takeBits_append polynomial (by omega), Memory.load16, Memory.load16,
    ← takeBits_append polynomial (by omega), ← takeBits_append polynomial (by omega)]
  rfl

/-- Bytes in common neither make nor hide a difference of the register. -/
theorem update_eq_iff (htop : polynomial.getLsbD 31 = true) (crc : BitVec 32) {left right : Memory}
    {first last : Nat} (hle : first ≤ last)
    (heq : ∀ index, first ≤ index → index < last → left index = right index) :
    update (polynomialStep polynomial) crc left last =
        update (polynomialStep polynomial) crc right last ↔
      update (polynomialStep polynomial) crc left first =
        update (polynomialStep polynomial) crc right first := by
  induction last, hle using Nat.le_induction with
  | base => rfl
  | succ last hle ih =>
      rw [← ih fun index hfirst hlast => heq index hfirst (by omega), update, update, takeByte,
        takeByte, (steps_injective htop 8).eq_iff, heq last hle (by omega), BitVec.xor_left_inj]

/-- Data that agree up to four bytes, and in the register behind them, agree in
the four bytes too. -/
theorem eq_of_update_add_four (htop : polynomial.getLsbD 31 = true) (crc : BitVec 32)
    {left right : Memory} {start : Nat} (hbefore : ∀ index < start, left index = right index)
    (hafter : update (polynomialStep polynomial) crc left (start + 4) =
      update (polynomialStep polynomial) crc right (start + 4)) :
    ∀ step < 4, left (start + step) = right (start + step) := by
  rw [update_add_four, update_add_four, update_congr _ _ hbefore] at hafter
  have hword := (BitVec.xor_right_inj _).mp (steps_injective htop 32 hafter)
  rw [BitVec.setWidth_eq, BitVec.setWidth_eq] at hword
  exact Memory.load32_inj hword

/-- Data of one length that differ, but only within four consecutive bytes, leave
different registers. The four bytes may reach behind the data. -/
theorem update_ne_of_burst (htop : polynomial.getLsbD 31 = true) (crc : BitVec 32)
    {left right : Memory} {length start : Nat}
    (hagree : ∀ index < length, index < start ∨ start + 4 ≤ index → left index = right index)
    (hdiffer : ∃ index < length, left index ≠ right index) :
    update (polynomialStep polynomial) crc left length ≠
      update (polynomialStep polynomial) crc right length := by
  intro heq
  -- behind the data both registers go on with the bytes of `right`
  let extended : Memory := fun index => if index < length then left index else right index
  have hinside : ∀ index < length, extended index = left index := fun index hindex => if_pos hindex
  have hoff : ∀ index, index < start ∨ start + 4 ≤ index → extended index = right index := by
    intro index hindex
    by_cases hlength : index < length
    · rw [hinside index hlength]
      exact hagree index hlength hindex
    · exact if_neg hlength
  have hlength : update (polynomialStep polynomial) crc extended length =
      update (polynomialStep polynomial) crc right length := by
    rw [update_congr _ _ hinside]
    exact heq
  have hlast : update (polynomialStep polynomial) crc extended (max length (start + 4)) =
      update (polynomialStep polynomial) crc right (max length (start + 4)) :=
    (update_eq_iff htop crc (Nat.le_max_left _ _)
      fun index hge _ => if_neg (Nat.not_lt.mpr hge)).mpr hlength
  have hafter := (update_eq_iff htop crc (Nat.le_max_right length (start + 4))
    fun index hge _ => hoff index (.inr hge)).mp hlast
  have hbytes := eq_of_update_add_four htop crc (fun index hlt => hoff index (.inl hlt)) hafter
  obtain ⟨index, hindex, hne⟩ := hdiffer
  rw [← hinside index hindex] at hne
  by_cases hburst : index < start ∨ start + 4 ≤ index
  · exact hne (hoff index hburst)
  · have hbyte := hbytes (index - start) (by omega)
    rw [Nat.add_sub_cancel' (by omega)] at hbyte
    exact hne hbyte

end Crc
