import Atarix.Foundation.CrcBurst
import Mathlib.Algebra.CharP.Two
import Mathlib.Algebra.Field.ZMod
import Mathlib.Algebra.Polynomial.Div
import Mathlib.Data.List.GetD
import Mathlib.RingTheory.AdjoinRoot

/-! # Cyclic redundancy checks as remainders

The definition of a 32-bit check by polynomial division over the field of two
elements: the bits of the message, lowest of each byte first, are the
coefficients of a polynomial; its product with `X ^ 32`, with the first 32 bits
complemented, is divided by the generator; the remainder is read from the highest
coefficient down and complemented. The register of the bitwise loop holds that
remainder: a bit step multiplies by `X` and subtracts the generator.
-/

open Polynomial

namespace Crc

/-- The polynomial of a string of bits, the first one of the highest degree. -/
noncomputable def ofBits : List Bool → (ZMod 2)[X]
  | [] => 0
  | bit :: rest => (if bit then X ^ rest.length else 0) + ofBits rest

/-- The bits of a word, the lowest first. -/
def lowFirst {width : Nat} (word : BitVec width) : List Bool :=
  List.ofFn fun place : Fin width => word.getLsbD place

/-- The bits of a message in the order in which they are sent. -/
def messageBits (bytes : List (BitVec 8)) : List Bool := bytes.flatMap lowFirst

/-- `X ^ 32` and, below it, the coefficients that the word has as bits. -/
noncomputable def generator (polynomial : BitVec 32) : (ZMod 2)[X] :=
  X ^ 32 + ofBits (lowFirst polynomial).reverse

/-- The message times `X ^ 32`, with the first 32 bits complemented. -/
def dividend (message : List Bool) : List Bool :=
  let shifted := message ++ List.replicate 32 false
  (shifted.take 32).map (!·) ++ shifted.drop 32

noncomputable def remainder (polynomial : BitVec 32) (message : List Bool) : (ZMod 2)[X] :=
  ofBits (dividend message) %ₘ generator polynomial

/-- The coefficients below `X ^ 32` as a word, the highest in the lowest bit. -/
noncomputable def reflectedWord (value : (ZMod 2)[X]) : BitVec 32 :=
  (BitVec.ofBoolListLE
    ((List.range 32).map fun place => decide (value.coeff (31 - place) = 1))).setWidth 32

/-- The reflected check with the generator that `polynomial` stands for. -/
noncomputable def checksum (polynomial : BitVec 32) (bytes : List (BitVec 8)) : BitVec 32 :=
  ~~~ reflectedWord (remainder polynomial (messageBits bytes))

/-! ## Strings of bits -/

theorem ofBits_append (first second : List Bool) :
    ofBits (first ++ second) = X ^ second.length * ofBits first + ofBits second := by
  induction first with
  | nil => rw [List.nil_append, ofBits, mul_zero, zero_add]
  | cons bit first ih =>
      rw [List.cons_append, ofBits, ofBits, ih, List.length_append, pow_add]
      cases bit with
      | false => simp
      | true =>
          simp only [if_true]
          ring

theorem ofBits_replicate_false (count : Nat) : ofBits (List.replicate count false) = 0 := by
  induction count with
  | zero => rfl
  | succ count ih => simp [List.replicate_succ, ofBits, ih]

/-- Complementing bits adds ones. -/
theorem ofBits_map_not (bits : List Bool) :
    ofBits (bits.map (!·)) = ofBits bits + ofBits (List.replicate bits.length true) := by
  induction bits with
  | nil => exact (add_zero _).symm
  | cons bit bits ih =>
      rw [List.map_cons, ofBits, ih, ofBits, List.length_cons, List.replicate_succ, ofBits,
        List.length_map, List.length_replicate]
      cases bit with
      | false => simp; ring
      | true =>
          have htwo := CharTwo.add_self_eq_zero (X ^ bits.length : (ZMod 2)[X])
          simp only [Bool.not_true, Bool.false_eq_true, if_false, if_true]
          linear_combination -htwo

/-- A coefficient is the bit counted from the end. -/
theorem coeff_ofBits (bits : List Bool) (degree : Nat) :
    (ofBits bits).coeff degree = if bits.reverse.getD degree false then 1 else 0 := by
  induction bits with
  | nil => simp [ofBits]
  | cons bit bits ih =>
      rw [ofBits, coeff_add, ih, List.reverse_cons]
      rcases Nat.lt_trichotomy degree bits.length with hlt | rfl | hgt
      · have hlow : (if bit then X ^ bits.length else 0 : (ZMod 2)[X]).coeff degree = 0 := by
          cases bit <;> simp [coeff_X_pow, hlt.ne]
        rw [hlow, zero_add, List.getD_append _ _ _ _ (by simpa using hlt)]
      · cases bit <;> simp
      · have hhigh : (if bit then X ^ bits.length else 0 : (ZMod 2)[X]).coeff degree = 0 := by
          cases bit <;> simp [coeff_X_pow, hgt.ne']
        rw [hhigh, zero_add, List.getD_eq_default _ _ (by simp; omega),
          List.getD_eq_default _ _ (by simp; omega)]

theorem degree_ofBits_lt (bits : List Bool) : (ofBits bits).degree < bits.length := by
  rw [degree_lt_iff_coeff_zero]
  intro degree hle
  rw [coeff_ofBits, List.getD_eq_default _ _ (by simpa using hle), if_neg Bool.false_ne_true]

/-! ## Words -/

section Words

variable {width : Nat} (word other : BitVec width)

@[simp] theorem length_lowFirst : (lowFirst word).length = width := List.length_ofFn

theorem getElem_lowFirst {place : Nat} (hplace : place < (lowFirst word).length) :
    (lowFirst word)[place] = word.getLsbD place :=
  List.getElem_ofFn hplace

/-- The coefficients of a word that is sent lowest bit first. -/
theorem coeff_lowFirst (degree : Nat) :
    (ofBits (lowFirst word)).coeff degree = if word.getMsbD degree then 1 else 0 := by
  rw [coeff_ofBits]
  by_cases hlt : degree < width
  · rw [List.getD_eq_getElem _ _ (by simpa using hlt), List.getElem_reverse, getElem_lowFirst,
      length_lowFirst, BitVec.getMsbD_eq_getLsbD, decide_eq_true hlt, Bool.true_and]
  · rw [List.getD_eq_default _ _ (by simpa using hlt), BitVec.getMsbD_of_ge _ _ (Nat.not_lt.mp hlt)]

theorem ofBits_lowFirst_xor :
    ofBits (lowFirst (word ^^^ other)) = ofBits (lowFirst word) + ofBits (lowFirst other) := by
  ext degree
  rw [coeff_add, coeff_lowFirst, coeff_lowFirst, coeff_lowFirst, BitVec.getMsbD_xor]
  cases word.getMsbD degree <;> cases other.getMsbD degree <;> decide

theorem ofBits_lowFirst_zero (width : Nat) : ofBits (lowFirst (0 : BitVec width)) = 0 := by
  ext degree
  rw [coeff_lowFirst]
  simp

/-- Sending the highest bit first is sending the reversed word. -/
theorem reverse_lowFirst : (lowFirst word).reverse = lowFirst word.reverse := by
  apply List.ext_getElem
  · simp
  · intro place hplace _
    rw [List.length_reverse, length_lowFirst] at hplace
    rw [List.getElem_reverse, getElem_lowFirst, getElem_lowFirst, length_lowFirst,
      BitVec.getLsbD_reverse, BitVec.getMsbD_eq_getLsbD, decide_eq_true hplace, Bool.true_and]

end Words

/-! ## The register -/

section Register

variable (polynomial crc : BitVec 32)

/-- The polynomial of the register, whose lowest bit is the highest coefficient. -/
noncomputable def registerPolynomial : (ZMod 2)[X] := ofBits (lowFirst crc)

theorem reflectedWord_registerPolynomial : reflectedWord (registerPolynomial crc) = crc := by
  apply BitVec.eq_of_getLsbD_eq
  intro place hplace
  have hbit : crc.getMsbD (31 - place) = crc.getLsbD place := by
    rw [BitVec.getMsbD_eq_getLsbD, decide_eq_true (by omega), Bool.true_and]
    congr 1
    omega
  rw [reflectedWord, BitVec.getLsbD_setWidth, decide_eq_true hplace, Bool.true_and,
    BitVec.getLsbD_ofBoolListLE, List.getD_eq_getElem _ _ (by simpa using hplace), List.getElem_map,
    List.getElem_range, registerPolynomial, coeff_lowFirst, hbit]
  cases crc.getLsbD place <;> decide

theorem generator_eq : generator polynomial = X ^ 32 + registerPolynomial polynomial.reverse := by
  rw [generator, reverse_lowFirst, registerPolynomial]

theorem degree_registerPolynomial_lt : (registerPolynomial crc).degree < (32 : Nat) := by
  have hlt := degree_ofBits_lt (lowFirst crc)
  rwa [length_lowFirst] at hlt

theorem generator_monic : (generator polynomial).Monic := by
  rw [generator_eq]
  exact monic_X_pow_add (degree_registerPolynomial_lt _)

theorem degree_generator : (generator polynomial).degree = (32 : Nat) := by
  have hlt : (registerPolynomial polynomial.reverse).degree < (X ^ 32 : (ZMod 2)[X]).degree := by
    rw [degree_X_pow]
    exact degree_registerPolynomial_lt _
  rw [generator_eq, degree_add_eq_left_of_degree_lt hlt, degree_X_pow]

/-- Moving the register down multiplies it by `X`, up to the bit that falls out. -/
theorem X_mul_registerPolynomial :
    X * registerPolynomial crc =
      registerPolynomial (crc >>> 1) + (if crc.getLsbD 0 then X ^ 32 else 0) := by
  have hout : ∀ degree, (if crc.getLsbD 0 then X ^ 32 else 0 : (ZMod 2)[X]).coeff degree =
      if degree = 32 ∧ crc.getLsbD 0 then 1 else 0 := by
    intro degree
    cases crc.getLsbD 0 <;> simp [coeff_X_pow]
  ext degree
  rw [coeff_add, hout, registerPolynomial, registerPolynomial, coeff_lowFirst,
    BitVec.getMsbD_ushiftRight]
  cases degree with
  | zero => simp
  | succ degree =>
      rw [coeff_X_mul, coeff_lowFirst]
      rcases Nat.lt_trichotomy degree 31 with hlt | rfl | hgt
      · simp [hlt.ne, show degree + 1 < 32 by omega]
      · simp [BitVec.getMsbD_eq_getLsbD]
      · rw [BitVec.getMsbD_of_ge _ _ (by omega)]
        simp [hgt.ne', show ¬ degree + 1 < 32 by omega]

/-- A bit step multiplies by `X` and subtracts the generator if `X ^ 32` appears. -/
theorem registerPolynomial_polynomialStep :
    registerPolynomial (polynomialStep polynomial.reverse crc) =
      X * registerPolynomial crc + (if crc.getLsbD 0 then generator polynomial else 0) := by
  have htwo := CharTwo.add_self_eq_zero (X ^ 32 : (ZMod 2)[X])
  rw [X_mul_registerPolynomial, polynomialStep, registerPolynomial, ofBits_lowFirst_xor,
    generator_eq]
  change registerPolynomial (crc >>> 1) + registerPolynomial _ = _
  cases crc.getLsbD 0 with
  | false =>
      simp only [Bool.false_eq_true, if_false, add_zero]
      exact add_eq_left.mpr (ofBits_lowFirst_zero 32)
  | true =>
      simp only [if_true]
      linear_combination -htwo

end Register

/-! ## Congruence modulo the generator -/

section Congruence

variable (polynomial : BitVec 32)

/-- Polynomials modulo the generator. -/
noncomputable def residue : (ZMod 2)[X] →+* AdjoinRoot (generator polynomial) :=
  AdjoinRoot.mk (generator polynomial)

theorem residue_polynomialStep (crc : BitVec 32) :
    residue polynomial (registerPolynomial (polynomialStep polynomial.reverse crc)) =
      residue polynomial X * residue polynomial (registerPolynomial crc) := by
  have hgenerator : residue polynomial (if crc.getLsbD 0 then generator polynomial else 0) = 0 := by
    cases crc.getLsbD 0 with
    | false => exact map_zero _
    | true => exact AdjoinRoot.mk_self
  rw [registerPolynomial_polynomialStep, map_add, hgenerator, add_zero, map_mul]

theorem residue_steps (count : Nat) (crc : BitVec 32) :
    residue polynomial (registerPolynomial (steps (polynomialStep polynomial.reverse) count crc)) =
      residue polynomial (X ^ count) * residue polynomial (registerPolynomial crc) := by
  induction count generalizing crc with
  | zero => rw [steps, pow_zero, map_one, one_mul]
  | succ count ih =>
      rw [steps, ih, residue_polynomialStep, pow_succ, map_mul, mul_assoc]

/-- A byte enters the register at the highest coefficients. -/
theorem registerPolynomial_byte (byte : BitVec 8) :
    registerPolynomial (byte.setWidth 32) = X ^ 24 * ofBits (lowFirst byte) := by
  ext degree
  rw [registerPolynomial, coeff_lowFirst, coeff_X_pow_mul', coeff_lowFirst, BitVec.getMsbD_setWidth]
  by_cases hle : 24 ≤ degree
  · have hplace : degree + 8 - 32 = degree - 24 := by omega
    simp [hle, hplace]
  · simp [hle]

theorem residue_takeByte (crc : BitVec 32) (byte : BitVec 8) :
    residue polynomial
        (registerPolynomial (takeByte (polynomialStep polynomial.reverse) crc byte)) =
      residue polynomial (X ^ 8 * registerPolynomial crc + X ^ 32 * ofBits (lowFirst byte)) := by
  have hxor : registerPolynomial (crc ^^^ byte.setWidth 32) =
      registerPolynomial crc + X ^ 24 * ofBits (lowFirst byte) := by
    rw [← registerPolynomial_byte]
    exact ofBits_lowFirst_xor _ _
  rw [takeByte, residue_steps, ← map_mul, hxor]
  apply congrArg (residue polynomial)
  ring

/-- The register after some bytes: its first contents and the message, moved up by
what came behind them. -/
theorem residue_update (crc : BitVec 32) (data : Memory) (length : Nat) :
    residue polynomial
        (registerPolynomial (update (polynomialStep polynomial.reverse) crc data length)) =
      residue polynomial (X ^ (8 * length) * registerPolynomial crc +
        X ^ 32 * ofBits (messageBits (data.slice 0 length))) := by
  induction length with
  | zero => simp [update, messageBits, Memory.slice, ofBits]
  | succ length ih =>
      have hbits : ofBits (messageBits (data.slice 0 (length + 1))) =
          X ^ 8 * ofBits (messageBits (data.slice 0 length)) + ofBits (lowFirst (data length)) := by
        have hslice : data.slice 0 (length + 1) = data.slice 0 length ++ [data length] := by
          simp [Memory.slice, List.range_succ]
        rw [hslice, messageBits, List.flatMap_append, List.flatMap_singleton, ofBits_append,
          length_lowFirst, messageBits]
      rw [update, residue_takeByte, map_add, map_mul, ih, ← map_mul, ← map_add, hbits]
      apply congrArg (residue polynomial)
      ring

end Congruence

/-! ## The check -/

/-- Complementing the first 32 bits adds the ones of the initial register above
the message. -/
theorem ofBits_dividend (message : List Bool) :
    ofBits (dividend message) =
      X ^ message.length * registerPolynomial (BitVec.allOnes 32) + X ^ 32 * ofBits message := by
  have hones : registerPolynomial (BitVec.allOnes 32) = ofBits (List.replicate 32 true) := rfl
  have hshifted : ofBits (message ++ List.replicate 32 false) = X ^ 32 * ofBits message := by
    rw [ofBits_append, ofBits_replicate_false, add_zero, List.length_replicate]
  have hsplit := List.take_append_drop 32 (message ++ List.replicate 32 false)
  have hlength : (message ++ List.replicate 32 false).length = message.length + 32 := by
    rw [List.length_append, List.length_replicate]
  have htake : ((message ++ List.replicate 32 false).take 32).length = 32 := by
    rw [List.length_take, hlength]
    exact Nat.min_eq_left (Nat.le_add_left 32 _)
  have hdrop : ((message ++ List.replicate 32 false).drop 32).length = message.length := by
    rw [List.length_drop, hlength, Nat.add_sub_cancel]
  rw [dividend, ofBits_append, ofBits_map_not, htake, hdrop, hones, ← hshifted, ← hsplit,
    ofBits_append, hsplit, hdrop]
  ring

theorem length_messageBits (bytes : List (BitVec 8)) :
    (messageBits bytes).length = 8 * bytes.length := by
  induction bytes with
  | nil => rfl
  | cons byte bytes ih =>
      rw [messageBits, List.flatMap_cons, List.length_append, length_lowFirst, List.length_cons]
      rw [messageBits] at ih
      omega

/-- A register congruent to a dividend is its remainder. -/
theorem remainder_eq_of_residue {polynomial crc : BitVec 32} {message : List Bool}
    (hresidue : residue polynomial (ofBits (dividend message)) =
      residue polynomial (registerPolynomial crc)) :
    remainder polynomial message = registerPolynomial crc := by
  have hmonic := generator_monic polynomial
  have hdegree : (registerPolynomial crc).degree < (generator polynomial).degree := by
    rw [degree_generator]
    exact degree_registerPolynomial_lt crc
  calc remainder polynomial message
      = registerPolynomial crc %ₘ generator polynomial :=
        modByMonic_eq_of_dvd_sub hmonic (AdjoinRoot.mk_eq_mk.mp hresidue)
    _ = registerPolynomial crc := (modByMonic_eq_self_iff hmonic).mpr hdegree

/-- The bitwise loop with the reversed word computes the check by division. -/
theorem update_eq_checksum (polynomial : BitVec 32) (data : Memory) (length : Nat) :
    ~~~ update (polynomialStep polynomial.reverse) (BitVec.allOnes 32) data length =
      checksum polynomial (data.slice 0 length) := by
  have hlength : (messageBits (data.slice 0 length)).length = 8 * length := by
    rw [length_messageBits, Memory.length_slice]
  have hresidue := residue_update polynomial (BitVec.allOnes 32) data length
  rw [← hlength, ← ofBits_dividend] at hresidue
  rw [checksum, remainder_eq_of_residue hresidue.symm, reflectedWord_registerPolynomial]

end Crc
