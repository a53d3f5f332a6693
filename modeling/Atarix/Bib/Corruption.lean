import Atarix.Bib.References
import Atarix.Foundation.CrcBurst

/-! # Corrupted blocks

A burst of errors inside a block is caught by its checksum, or, inside the
checksum field itself, by the checksum of the bytes around it. A burst that
touches the length field decides anew which bytes are covered and is left out.
-/

namespace Atarix

open Memory

variable {p q : Memory}

theorem crc32cBitStep_eq : crc32cBitStep = Crc.polynomialStep 0x82F63B78 := by
  funext crc
  rw [crc32cBitStep, Crc.polynomialStep]
  simp only [Crc.and_one_ne_zero_iff]

/-- The checksum leaves its own field out. -/
theorem crc32cWithZeroedField_congr {length : BitVec 32}
    (heq : ∀ index < length.toNat, index < 20 ∨ 24 ≤ index → p index = q index) :
    (crc32cWithZeroedField p length).value = (crc32cWithZeroedField q length).value := by
  rw [crc32cWithZeroedField_value, crc32cWithZeroedField_value]
  refine congrArg (· ^^^ 0xFFFFFFFF) (Crc.update_congr _ _ ?_)
  intro index hindex
  unfold zeroRange
  split_ifs with hfield
  · rfl
  · exact heq index hindex (by omega)

/-- A burst of errors outside the checksum field changes the checksum. -/
theorem crc32cWithZeroedField_ne_of_burst {length : BitVec 32} {start : Nat}
    (hfield : start + 4 ≤ 20 ∨ 24 ≤ start)
    (hagree : ∀ index < length.toNat, index < start ∨ start + 4 ≤ index → p index = q index)
    (hdiffer : ∃ index < length.toNat, p index ≠ q index) :
    (crc32cWithZeroedField p length).value ≠ (crc32cWithZeroedField q length).value := by
  intro heq
  rw [crc32cWithZeroedField_value, crc32cWithZeroedField_value] at heq
  have hregisters := (BitVec.xor_left_inj _).mp heq
  rw [crc32cBitStep_eq] at hregisters
  have hzeroed : ∀ index < length.toNat, index < start ∨ start + 4 ≤ index →
      p.zeroRange 20 4 index = q.zeroRange 20 4 index := by
    intro index hindex hoff
    unfold zeroRange
    split_ifs with hzero
    · rfl
    · exact hagree index hindex hoff
  refine Crc.update_ne_of_burst (by decide) _ hzeroed ?_ hregisters
  obtain ⟨index, hindex, hne⟩ := hdiffer
  -- the difference lies in the burst, which the cleared field does not meet
  have hinside : ¬ (index < start ∨ start + 4 ≤ index) := fun hoff => hne (hagree index hindex hoff)
  have hkept : ¬ (20 ≤ index ∧ index < 20 + 4) := by omega
  refine ⟨index, hindex, ?_⟩
  rwa [zeroRange, zeroRange, if_neg hkept, if_neg hkept]

/-- A burst of errors spoils the agreement of the stored with the computed
checksum. -/
theorem checksum_spoiled {length : BitVec 32} {start : Nat} (hlength : 64 ≤ length.toNat)
    (hplace : start = 20 ∨ start + 4 ≤ 16 ∨ 24 ≤ start)
    (hagree : ∀ index < length.toNat, index < start ∨ start + 4 ≤ index → p index = q index)
    (hdiffer : ∃ index < length.toNat, p index ≠ q index)
    (hstored : p.load32 20 = (crc32cWithZeroedField p length).value) :
    q.load32 20 ≠ (crc32cWithZeroedField q length).value := by
  intro hcomputed
  by_cases hfield : start = 20
  case pos =>
    subst hfield
    have hsame : (crc32cWithZeroedField p length).value = (crc32cWithZeroedField q length).value :=
      crc32cWithZeroedField_congr fun index hindex hoff => hagree index hindex (by omega)
    have hbytes := load32_inj (hstored.trans (hsame.trans hcomputed.symm))
    obtain ⟨index, hindex, hne⟩ := hdiffer
    have hinside : ¬ (index < 20 ∨ 20 + 4 ≤ index) := fun hoff => hne (hagree index hindex hoff)
    have hbyte := hbytes (index - 20) (by omega)
    rw [Nat.add_sub_cancel' (by omega)] at hbyte
    exact hne hbyte
  case neg =>
    have hfield' : p.load32 20 = q.load32 20 :=
      load32_congr fun step hstep => hagree _ (by omega) (by omega)
    apply crc32cWithZeroedField_ne_of_burst (by omega) hagree hdiffer
    rw [← hstored, hfield', hcomputed]

/-- No block with a burst of errors in place of an accepted one is accepted. -/
theorem corrupted_block_refused {prior : BibView} {windowLength : Nat}
    (hopen : (bibReaderOpen (some prior) (some p) windowLength).value.1 = .ok) (start : Nat)
    (hplace : start = 20 ∨ start + 4 ≤ 16 ∨ 24 ≤ start)
    (hagree : ∀ index < (p.load32 16).toNat, index < start ∨ start + 4 ≤ index → p index = q index)
    (hdiffer : ∃ index < (p.load32 16).toNat, p index ≠ q index) (view : Option BibView) :
    (bibReaderOpen view (some q) windowLength).value.1 ≠ .ok := by
  intro hcorrupted
  obtain ⟨-, haccepted, -⟩ := (bibReaderOpen_ok_iff prior p windowLength).mp hopen
  have hge := haccepted.total_ge
  cases view with
  | none => cases hcorrupted
  | some view =>
      obtain ⟨-, hheader, -⟩ := (bibReaderOpen_ok_iff view q windowLength).mp hcorrupted
      have htotal : p.load32 16 = q.load32 16 :=
        load32_congr fun step hstep => hagree _ (by omega) (by omega)
      have hstored := hheader.crc
      rw [← htotal] at hstored
      exact checksum_spoiled hge hplace hagree hdiffer haccepted.crc hstored

/-- The sample block with another boot id. -/
theorem corrupted_block_refused_sample :
    let p := ofList (sampleBlock 0 0x300000).encode
    (bibReaderOpen (some .zero) (some (p.write 24 [p 24 + 1])) 232).value.1 ≠ .ok := by
  intro p
  have hopened : (bibReaderOpen (some .zero) (some p) 232).value = (.ok, some (viewOf p)) :=
    sampleBlock_opened ⟨by decide, by decide, by decide, by decide⟩
  clear_value p
  have hopen := congrArg Prod.fst hopened
  obtain ⟨-, haccepted, -⟩ := (bibReaderOpen_ok_iff .zero p 232).mp hopen
  have hge := haccepted.total_ge
  refine corrupted_block_refused hopen 24 (.inr (.inr le_rfl)) ?_ ?_ (some .zero)
  · intro index _ hoff
    exact (write_of_outside (by simp; omega)).symm
  · refine ⟨24, by omega, ?_⟩
    have hwritten : p.write 24 [p 24 + 1] 24 = p 24 + 1 := rfl
    rw [hwritten]
    simp

end Atarix
