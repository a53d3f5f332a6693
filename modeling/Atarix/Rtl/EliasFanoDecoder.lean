import Atarix.Foundation.Select
import Mathlib.Data.BitVec

/-! # The Elias-Fano decoder

`atx_elias_fano_decoder`: a loop that selects a set bit of the high word, and
the row number put together from its position and a field of the low word.
-/

namespace Atarix

namespace EliasFanoDecoder

/-- The loop variables. -/
structure Selection where
  selectIndex : BitVec 6
  count : Nat
  found : Bool
deriving DecidableEq, Repr

/-- The body of the loop. -/
def selectStep (highBitsWord : BitVec 32) (targetOffset32 : BitVec 32) (selection : Selection)
    (idx : Nat) : Selection :=
  if highBitsWord.getLsbD idx ∧ ¬ selection.found then
    let selection :=
      if selection.count = targetOffset32.toNat then
        { selection with selectIndex := BitVec.ofNat 6 idx, found := true }
      else selection
    { selection with count := selection.count + 1 }
  else selection

def select (highBitsWord : BitVec 32) (targetOffset : BitVec 4) : Selection :=
  (List.range 32).foldl (selectStep highBitsWord (targetOffset.setWidth 32)) ⟨0, 0, false⟩

def lowBitShift (targetOffset : BitVec 4) (numLowBits : BitVec 5) : BitVec 32 :=
  targetOffset.setWidth 32 * numLowBits.setWidth 32

def lowMask (numLowBits : BitVec 5) : BitVec 32 := ((1 : BitVec 32) <<< numLowBits) - 1

def lowValue (lowBitsWord : BitVec 32) (targetOffset : BitVec 4) (numLowBits : BitVec 5) :
    BitVec 32 :=
  (lowBitsWord >>> lowBitShift targetOffset numLowBits) &&& lowMask numLowBits

def highValue (highBitsWord : BitVec 32) (targetOffset : BitVec 4) : BitVec 32 :=
  (select highBitsWord targetOffset).selectIndex.setWidth 32 - targetOffset.setWidth 32

structure Outputs where
  resolvedRowId : BitVec 32
  decodeValid : Bool
  decodeError : Bool
deriving DecidableEq, Repr

def decode (highBitsWord lowBitsWord : BitVec 32) (targetOffset : BitVec 4)
    (numLowBits : BitVec 5) : Outputs :=
  if ¬ (select highBitsWord targetOffset).found then ⟨0, false, true⟩
  else if numLowBits > 16 then ⟨0, false, true⟩
  else
    ⟨(highValue highBitsWord targetOffset <<< numLowBits) |||
      lowValue lowBitsWord targetOffset numLowBits, true, false⟩

/-! ## What the loop selects -/

/-- A bit of the high word is set. -/
def HighBit (highBitsWord : BitVec 32) (place : Nat) : Prop := highBitsWord.getLsbD place

instance (highBitsWord : BitVec 32) : DecidablePred (HighBit highBitsWord) :=
  fun place => inferInstanceAs (Decidable (highBitsWord.getLsbD place = true))

variable {highBitsWord : BitVec 32} {targetOffset : BitVec 4}

/-- After some positions the loop has counted their set bits, and stopped at the
one that is looked for. -/
theorem foldl_selectStep (positions : Nat) :
    (List.range positions).foldl (selectStep highBitsWord (targetOffset.setWidth 32))
        ⟨0, 0, false⟩ =
      if Nat.count (HighBit highBitsWord) positions ≤ targetOffset.toNat then
        ⟨0, Nat.count (HighBit highBitsWord) positions, false⟩
      else
        ⟨BitVec.ofNat 6 (Nat.nth (HighBit highBitsWord) targetOffset.toNat),
          targetOffset.toNat + 1, true⟩ := by
  have htarget : (targetOffset.setWidth 32).toNat = targetOffset.toNat :=
    BitVec.toNat_setWidth_of_le (by omega)
  induction positions with
  | zero => simp
  | succ positions ih =>
      rw [List.range_succ, List.foldl_append, ih, List.foldl_cons, List.foldl_nil, Nat.count_succ]
      by_cases hset : HighBit highBitsWord positions
      · have hbit : highBitsWord.getLsbD positions = true := hset
        rw [if_pos hset]
        rcases Nat.lt_trichotomy (Nat.count (HighBit highBitsWord) positions) targetOffset.toNat
          with hlt | heq | hgt
        · rw [if_pos (by omega), if_pos (by omega)]
          simp [selectStep, hbit, htarget, hlt.ne]
        · -- the position at hand is the one looked for
          rw [if_pos (by omega), if_neg (by omega), ← heq, Nat.nth_count hset]
          simp [selectStep, hbit, htarget, heq]
        · rw [if_neg (by omega), if_neg (by omega)]
          simp [selectStep]
      · have hbit : highBitsWord.getLsbD positions = false := Bool.eq_false_iff.mpr hset
        simp only [if_neg hset, Nat.add_zero]
        split_ifs <;> simp [selectStep, hbit]

/-- The loop finds a bit exactly if there are more set bits than the offset, and
then it is the one of that rank. -/
theorem select_eq (highBitsWord : BitVec 32) (targetOffset : BitVec 4) :
    select highBitsWord targetOffset =
      if Nat.count (HighBit highBitsWord) 32 ≤ targetOffset.toNat then
        ⟨0, Nat.count (HighBit highBitsWord) 32, false⟩
      else
        ⟨BitVec.ofNat 6 (Nat.nth (HighBit highBitsWord) targetOffset.toNat),
          targetOffset.toNat + 1, true⟩ :=
  foldl_selectStep 32

theorem select_found_iff :
    (select highBitsWord targetOffset).found ↔
      targetOffset.toNat < Nat.count (HighBit highBitsWord) 32 := by
  rw [select_eq]
  by_cases hle : Nat.count (HighBit highBitsWord) 32 ≤ targetOffset.toNat
  · rw [if_pos hle]
    exact iff_of_false Bool.false_ne_true (Nat.not_lt.mpr hle)
  · rw [if_neg hle]
    exact iff_of_true rfl (Nat.not_le.mp hle)

/-- The selected bit is one of the word's, with as many set bits below it as the
offset says. -/
theorem selectIndex_of_found (hfound : (select highBitsWord targetOffset).found) :
    (select highBitsWord targetOffset).selectIndex.toNat =
        Nat.nth (HighBit highBitsWord) targetOffset.toNat ∧
      targetOffset.toNat ≤ Nat.nth (HighBit highBitsWord) targetOffset.toNat ∧
      Nat.nth (HighBit highBitsWord) targetOffset.toNat < 32 := by
  have hrank := select_found_iff.mp hfound
  have hlt : Nat.nth (HighBit highBitsWord) targetOffset.toNat < 32 := Nat.nth_lt_of_lt_count hrank
  refine ⟨?_, ?_, hlt⟩
  · rw [select_eq, if_neg (by omega), BitVec.toNat_ofNat, Nat.mod_eq_of_lt (by omega)]
  · calc targetOffset.toNat
        = Nat.count (HighBit highBitsWord) (Nat.nth (HighBit highBitsWord) targetOffset.toNat) :=
          (Nat.count_nth fun hfinite => hrank.trans_le (Nat.count_le_card hfinite 32)).symm
      _ ≤ Nat.nth (HighBit highBitsWord) targetOffset.toNat := Nat.count_le _

variable {lowBitsWord : BitVec 32} {numLowBits : BitVec 5}

/-- The decoder raises one of its two flags. -/
theorem decode_flags (highBitsWord lowBitsWord : BitVec 32) (targetOffset : BitVec 4)
    (numLowBits : BitVec 5) :
    (decode highBitsWord lowBitsWord targetOffset numLowBits).decodeError =
      !(decode highBitsWord lowBitsWord targetOffset numLowBits).decodeValid := by
  unfold decode
  split_ifs <;> rfl

theorem decode_valid_iff :
    (decode highBitsWord lowBitsWord targetOffset numLowBits).decodeValid ↔
      targetOffset.toNat < Nat.count (HighBit highBitsWord) 32 ∧ numLowBits.toNat ≤ 16 := by
  have hwidth : numLowBits > 16 ↔ ¬ numLowBits.toNat ≤ 16 := by
    rw [gt_iff_lt, BitVec.lt_def, Nat.not_le]
    rfl
  rw [← select_found_iff]
  by_cases hfound : (select highBitsWord targetOffset).found
  · by_cases hwide : numLowBits > 16
    · rw [decode, if_neg (not_not.mpr hfound), if_pos hwide]
      exact iff_of_false Bool.false_ne_true fun hvalid => hwidth.mp hwide hvalid.2
    · rw [decode, if_neg (not_not.mpr hfound), if_neg hwide]
      exact iff_of_true rfl ⟨hfound, not_not.mp (mt hwidth.mpr hwide)⟩
  · rw [decode, if_pos hfound]
    exact iff_of_false Bool.false_ne_true fun hvalid => hfound hvalid.1

/-! ## The row number -/

theorem lowBitShift_toNat (targetOffset : BitVec 4) (numLowBits : BitVec 5) :
    (lowBitShift targetOffset numLowBits).toNat = targetOffset.toNat * numLowBits.toNat := by
  have hoffset : (targetOffset.setWidth 32).toNat = targetOffset.toNat :=
    BitVec.toNat_setWidth_of_le (by omega)
  have hwidth : (numLowBits.setWidth 32).toNat = numLowBits.toNat :=
    BitVec.toNat_setWidth_of_le (by omega)
  have hle : targetOffset.toNat * numLowBits.toNat ≤ 15 * 31 :=
    Nat.mul_le_mul (by omega) (by omega)
  rw [lowBitShift, BitVec.toNat_mul, hoffset, hwidth, Nat.mod_eq_of_lt (by omega)]

/-- The mask has as many ones as the width says, and its subtraction does not
underflow. -/
theorem lowMask_toNat (numLowBits : BitVec 5) :
    1 ≤ ((1 : BitVec 32) <<< numLowBits).toNat ∧
      (lowMask numLowBits).toNat = 2 ^ numLowBits.toNat - 1 := by
  have hpow : 2 ^ numLowBits.toNat < 2 ^ 32 := Nat.pow_lt_pow_right (by omega) (by omega)
  have hone : ((1 : BitVec 32) <<< numLowBits).toNat = 2 ^ numLowBits.toNat := by
    change ((1 : BitVec 32) <<< numLowBits.toNat).toNat = _
    rw [BitVec.toNat_shiftLeft, Nat.shiftLeft_eq]
    exact (congrArg (· % 2 ^ 32) (Nat.one_mul _)).trans (Nat.mod_eq_of_lt hpow)
  have hpos : 1 ≤ 2 ^ numLowBits.toNat := Nat.one_le_two_pow
  refine ⟨hone ▸ hpos, ?_⟩
  rw [lowMask, BitVec.toNat_sub_of_le, hone]
  · rfl
  · rw [BitVec.le_def, hone]
    exact hpos

theorem lowValue_toNat (lowBitsWord : BitVec 32) (targetOffset : BitVec 4)
    (numLowBits : BitVec 5) :
    (lowValue lowBitsWord targetOffset numLowBits).toNat =
      (lowBitsWord.toNat >>> (targetOffset.toNat * numLowBits.toNat)) % 2 ^ numLowBits.toNat := by
  rw [lowValue, BitVec.toNat_and, (lowMask_toNat numLowBits).2, Nat.and_two_pow_sub_one_eq_mod]
  change (lowBitsWord >>> (lowBitShift targetOffset numLowBits).toNat).toNat % _ = _
  rw [BitVec.toNat_ushiftRight, lowBitShift_toNat]

/-- The high part is the number of clear bits below the selected one. -/
theorem highValue_toNat (hfound : (select highBitsWord targetOffset).found) :
    (highValue highBitsWord targetOffset).toNat =
      Nat.nth (HighBit highBitsWord) targetOffset.toNat - targetOffset.toNat := by
  obtain ⟨hselect, hle, hlt⟩ := selectIndex_of_found hfound
  have hindex : ((select highBitsWord targetOffset).selectIndex.setWidth 32).toNat =
      Nat.nth (HighBit highBitsWord) targetOffset.toNat := by
    rw [BitVec.toNat_setWidth_of_le (by omega), hselect]
  have hoffset : (targetOffset.setWidth 32).toNat = targetOffset.toNat :=
    BitVec.toNat_setWidth_of_le (by omega)
  rw [highValue, BitVec.toNat_sub_of_le, hindex, hoffset]
  rw [BitVec.le_def, hindex, hoffset]
  exact hle

/-- A valid row number is its high part with the low field behind it. -/
theorem decode_resolvedRowId
    (hvalid : (decode highBitsWord lowBitsWord targetOffset numLowBits).decodeValid) :
    (decode highBitsWord lowBitsWord targetOffset numLowBits).resolvedRowId.toNat =
      (Nat.nth (HighBit highBitsWord) targetOffset.toNat - targetOffset.toNat) *
          2 ^ numLowBits.toNat +
        (lowBitsWord.toNat >>> (targetOffset.toNat * numLowBits.toNat)) % 2 ^ numLowBits.toNat := by
  obtain ⟨hrank, hwidth⟩ := decode_valid_iff.mp hvalid
  have hfound := select_found_iff.mpr hrank
  obtain ⟨-, -, hlt⟩ := selectIndex_of_found hfound
  have hnarrow : ¬ numLowBits > 16 := by
    rw [gt_iff_lt, BitVec.lt_def]
    exact Nat.not_lt.mpr hwidth
  have hlow : (lowBitsWord.toNat >>> (targetOffset.toNat * numLowBits.toNat)) %
      2 ^ numLowBits.toNat < 2 ^ numLowBits.toNat := Nat.mod_lt _ (Nat.two_pow_pos _)
  -- five bits of position and sixteen of width leave the word with room
  have hhigh : (Nat.nth (HighBit highBitsWord) targetOffset.toNat - targetOffset.toNat) *
      2 ^ numLowBits.toNat ≤ 31 * 2 ^ 16 :=
    Nat.mul_le_mul (by omega) (Nat.pow_le_pow_right (by omega) hwidth)
  rw [decode, if_neg (not_not.mpr hfound), if_neg hnarrow]
  change ((highValue highBitsWord targetOffset <<< numLowBits.toNat) |||
    lowValue lowBitsWord targetOffset numLowBits).toNat = _
  rw [BitVec.toNat_or, BitVec.toNat_shiftLeft, highValue_toNat hfound, lowValue_toNat,
    Nat.mod_eq_of_lt (by rw [Nat.shiftLeft_eq]; omega), ← Nat.shiftLeft_add_eq_or_of_lt hlow,
    Nat.shiftLeft_eq]

/-! ## Decoding is the inverse of encoding -/

/-- The words hold the `n` numbers of a non-decreasing sequence, each split after
its `l` low bits. -/
structure Encodes (n l : Nat) (x : Nat → Nat) (highBitsWord lowBitsWord : BitVec 32) : Prop where
  monotone : ∀ i j, i ≤ j → j < n → x i ≤ x j
  length : n ≤ 16
  width : l ≤ 16
  low_fits : n * l ≤ 32
  high_fits : 0 < n → (x (n - 1) >>> l) + n - 1 ≤ 31
  high : ∀ place, HighBit highBitsWord place ↔ ∃ i < n, (x i >>> l) + i = place
  low : ∀ i < n, (lowBitsWord.toNat >>> (i * l)) % 2 ^ l = x i % 2 ^ l

section Encoded

variable {n l : Nat} {x : Nat → Nat}

/-- The bits of the high word come in the order of the sequence. -/
theorem Encodes.enumerates (hencodes : Encodes n l x highBitsWord lowBitsWord) :
    Nat.Enumerates (fun i => (x i >>> l) + i) n (HighBit highBitsWord) where
  increasing i j hlt hj := by
    have hmono := hencodes.monotone i j (Nat.le_of_lt hlt) hj
    have hhigh : x i >>> l ≤ x j >>> l := by
      rw [Nat.shiftRight_eq_div_pow, Nat.shiftRight_eq_div_pow]
      exact Nat.div_le_div_right hmono
    omega
  complete := hencodes.high

theorem Encodes.place_le (hencodes : Encodes n l x highBitsWord lowBitsWord) {i : Nat}
    (hi : i < n) : (x i >>> l) + i ≤ 31 := by
  have hlast := hencodes.high_fits (by omega)
  rcases Nat.lt_or_eq_of_le (show i ≤ n - 1 by omega) with hlt | rfl
  · have hbefore := hencodes.enumerates.increasing i (n - 1) hlt (by omega)
    omega
  · omega

/-- The high word has a bit for each number. -/
theorem Encodes.count_eq (hencodes : Encodes n l x highBitsWord lowBitsWord) :
    Nat.count (HighBit highBitsWord) 32 = n := by
  refine hencodes.enumerates.count_eq le_rfl (fun i hi => ?_) fun i hle hi => absurd hi (by omega)
  exact Nat.lt_succ_of_le (hencodes.place_le hi)

/-- Every number of an encoded sequence comes back, and behind the last one
there is only the error. -/
structure Decodes (n l : Nat) (x : Nat → Nat) (highBitsWord lowBitsWord : BitVec 32) : Prop where
  inside : ∀ targetOffset : BitVec 4, targetOffset.toNat < n →
    (decode highBitsWord lowBitsWord targetOffset (BitVec.ofNat 5 l)).decodeValid ∧
      ¬ (decode highBitsWord lowBitsWord targetOffset (BitVec.ofNat 5 l)).decodeError ∧
      (decode highBitsWord lowBitsWord targetOffset (BitVec.ofNat 5 l)).resolvedRowId.toNat =
        x targetOffset.toNat
  behind : ∀ targetOffset : BitVec 4, n ≤ targetOffset.toNat →
    (decode highBitsWord lowBitsWord targetOffset (BitVec.ofNat 5 l)).decodeError ∧
      ¬ (decode highBitsWord lowBitsWord targetOffset (BitVec.ofNat 5 l)).decodeValid

/-- Decoding inverts encoding. -/
theorem decode_inverts_encode (hencodes : Encodes n l x highBitsWord lowBitsWord) :
    Decodes n l x highBitsWord lowBitsWord := by
  have hwidth : (BitVec.ofNat 5 l).toNat = l := by
    rw [BitVec.toNat_ofNat, Nat.mod_eq_of_lt (by have := hencodes.width; omega)]
  constructor
  · intro targetOffset hinside
    have hvalid :
        (decode highBitsWord lowBitsWord targetOffset (BitVec.ofNat 5 l)).decodeValid := by
      rw [decode_valid_iff, hencodes.count_eq, hwidth]
      exact ⟨hinside, hencodes.width⟩
    refine ⟨hvalid, ?_, ?_⟩
    · rw [decode_flags, hvalid]
      exact Bool.false_ne_true
    · rw [decode_resolvedRowId hvalid, hwidth, hencodes.enumerates.nth_eq hinside,
        hencodes.low _ hinside, Nat.add_sub_cancel, Nat.shiftRight_eq_div_pow]
      exact Nat.div_add_mod' _ _
  · intro targetOffset hbehind
    have hvalid :
        ¬ (decode highBitsWord lowBitsWord targetOffset (BitVec.ofNat 5 l)).decodeValid := by
      rw [decode_valid_iff, hencodes.count_eq]
      exact fun hvalid => absurd hvalid.1 (Nat.not_lt.mpr hbehind)
    refine ⟨?_, hvalid⟩
    rw [decode_flags, Bool.eq_false_iff.mpr hvalid]
    rfl

end Encoded

/-- The sequence 0, 5, 5, 9 with two low bits each. -/
def fourRows (i : Nat) : Nat := [0, 5, 5, 9].getD i 0

theorem decode_inverts_encode_fourRows : Decodes 4 2 fourRows 0x2D 0x54 := by
  refine decode_inverts_encode ⟨fun i j hle hj => ?_, by decide, by decide, by decide,
    fun _ => by decide, fun place => ?_, by decide⟩
  · have hall : ∀ j < 4, ∀ i ≤ j, fourRows i ≤ fourRows j := by decide
    exact hall j hj i hle
  · by_cases hplace : place < 32
    · have hall : ∀ place < 32, HighBit 0x2D place ↔
          ∃ i < 4, (fourRows i >>> 2) + i = place := by decide
      exact hall place hplace
    · have hclear : ¬ HighBit 0x2D place := by
        simp [HighBit, BitVec.getLsbD_of_ge _ _ (Nat.not_lt.mp hplace)]
      have hall : ∀ i < 4, (fourRows i >>> 2) + i < 32 := by decide
      exact iff_of_false hclear fun ⟨i, hi, heq⟩ => hplace (heq ▸ hall i hi)

/-! ## Refusing what the words do not hold -/

/-- One flag is raised, and it is the valid one only if everything the row number
is made of lies inside the words. -/
structure FailsClosed (highBitsWord lowBitsWord : BitVec 32) (targetOffset : BitVec 4)
    (numLowBits : BitVec 5) : Prop where
  flags : (decode highBitsWord lowBitsWord targetOffset numLowBits).decodeError =
    !(decode highBitsWord lowBitsWord targetOffset numLowBits).decodeValid
  selected : (decode highBitsWord lowBitsWord targetOffset numLowBits).decodeValid →
    targetOffset.toNat < Nat.count (HighBit highBitsWord) 32
  noUnderflow : (decode highBitsWord lowBitsWord targetOffset numLowBits).decodeValid →
    1 ≤ ((1 : BitVec 32) <<< numLowBits).toNat ∧
      targetOffset.toNat ≤ (select highBitsWord targetOffset).selectIndex.toNat
  inside : (decode highBitsWord lowBitsWord targetOffset numLowBits).decodeValid →
    (targetOffset.toNat + 1) * numLowBits.toNat ≤ 32

/-- A selectable bit with an admitted width whose low field ends behind the word. -/
def FieldOverruns (highBitsWord : BitVec 32) (targetOffset : BitVec 4) (numLowBits : BitVec 5) :
    Prop :=
  targetOffset.toNat < Nat.count (HighBit highBitsWord) 32 ∧ numLowBits.toNat ≤ 16 ∧
    32 < (targetOffset.toNat + 1) * numLowBits.toNat

/-- Decoding fails closed except where the field of an entry that the high word
has is not in the low word. -/
theorem decode_failsClosed_iff (highBitsWord lowBitsWord : BitVec 32) (targetOffset : BitVec 4)
    (numLowBits : BitVec 5) :
    FailsClosed highBitsWord lowBitsWord targetOffset numLowBits ↔
      ¬ FieldOverruns highBitsWord targetOffset numLowBits := by
  constructor
  · rintro hclosed ⟨hrank, hwidth, hoverrun⟩
    exact absurd (hclosed.inside (decode_valid_iff.mpr ⟨hrank, hwidth⟩)) (Nat.not_le.mpr hoverrun)
  · intro hinside
    refine ⟨decode_flags _ _ _ _, fun hvalid => ?_, fun hvalid => ?_, fun hvalid => ?_⟩ <;>
      obtain ⟨hrank, hwidth⟩ := decode_valid_iff.mp hvalid
    · exact hrank
    · obtain ⟨hselect, hle, -⟩ := selectIndex_of_found (select_found_iff.mpr hrank)
      exact ⟨(lowMask_toNat numLowBits).1, hselect ▸ hle⟩
    · by_contra hoverrun
      exact hinside ⟨hrank, hwidth, Nat.not_le.mp hoverrun⟩

/-- The third entry of width 16 has its low field in bits 32 to 47 of the low
word, and is resolved with zeros in its place. -/
theorem decode_beyond_low_word :
    (decode 0x7 0xFFFFFFFF 2 16).decodeValid ∧
      ¬ (decode 0x7 0xFFFFFFFF 2 16).decodeError ∧
      (decode 0x7 0xFFFFFFFF 2 16).resolvedRowId = 0 ∧
      ¬ FailsClosed 0x7 0xFFFFFFFF 2 16 := by
  refine ⟨by decide, by decide, by decide, fun hclosed => ?_⟩
  exact absurd (hclosed.inside (by decide)) (by decide)

end EliasFanoDecoder

end Atarix
