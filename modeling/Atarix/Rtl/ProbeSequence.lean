import Atarix.Foundation.Distinct
import Atarix.Rtl.Search

/-! # The probe sequence

The stepper adds the triangular number of the attempt to the address it is given,
and the accelerator gives it the address it computed last. The positions are then
at tetrahedral distances from the home slot, and these repeat modulo a small
power of two long before all slots have been seen.
-/

namespace Atarix

namespace KrapivinStepper

/-- The probe positions: the home slot, and then the stepper fed with its own
result and the attempts 1, 2, 3 and on. -/
def probePosition (base tableMask : BitVec 32) : Nat → BitVec 32
  | 0 => base &&& tableMask
  | k + 1 => nextBase (probePosition base tableMask k) (BitVec.ofNat 8 (k + 1)) tableMask

/-- The mask of a table of `2 ^ m` slots. -/
def maskOf (m : Nat) : BitVec 32 := BitVec.ofNat 32 (2 ^ m - 1)

/-- The sum of the first `k` triangular numbers. -/
def tetrahedral : Nat → Nat
  | 0 => 0
  | k + 1 => tetrahedral k + (k + 1) * (k + 2) / 2

/-- As many positions as there are slots, up to 256, are all different, and they
fill a table of at most 256 slots. -/
structure NoRevisit (base : BitVec 32) (m : Nat) : Prop where
  distinct : ∀ i < min (2 ^ m) 256, ∀ j < min (2 ^ m) 256,
    probePosition base (maskOf m) i = probePosition base (maskOf m) j → i = j
  covers : m ≤ 8 → ∀ slot < 2 ^ m, ∃ k < 2 ^ m, (probePosition base (maskOf m) k).toNat = slot

theorem toNat_and_maskOf {m : Nat} (hm : m ≤ 32) (word : BitVec 32) :
    (word &&& maskOf m).toNat = word.toNat % 2 ^ m := by
  have hpow : 2 ^ m ≤ 2 ^ 32 := Nat.pow_le_pow_right (by omega) hm
  have hpos : 0 < 2 ^ m := Nat.two_pow_pos m
  rw [BitVec.toNat_and, maskOf, BitVec.toNat_ofNat, Nat.mod_eq_of_lt (by omega),
    Nat.and_two_pow_sub_one_eq_mod]

/-- A position is at a tetrahedral distance from the home slot. -/
theorem probePosition_toNat {m : Nat} (hm : m ≤ 32) (base : BitVec 32) {k : Nat} (hk : k < 256) :
    (probePosition base (maskOf m) k).toNat = (base.toNat + tetrahedral k) % 2 ^ m := by
  induction k with
  | zero => exact toNat_and_maskOf hm base
  | succ k ih =>
      have hattempt : (BitVec.ofNat 8 (k + 1)).toNat = k + 1 := by
        rw [BitVec.toNat_ofNat, Nat.mod_eq_of_lt (by omega)]
      have hdvd : 2 ^ m ∣ 2 ^ 32 := Nat.pow_dvd_pow 2 hm
      rw [probePosition, nextBase, toNat_and_maskOf hm, Accelerator.nonLinearOffset_eq hattempt,
        BitVec.toNat_add, BitVec.toNat_ofNat, Nat.mod_mod_of_dvd _ hdvd, ih (by omega), tetrahedral,
        ← Nat.add_assoc, Nat.mod_add_mod, Nat.add_mod, Nat.mod_mod_of_dvd _ hdvd, ← Nat.add_mod]

/-- Two positions coincide exactly if their distances do, modulo the table size. -/
theorem probePosition_eq_iff {m : Nat} (hm : m ≤ 32) (base : BitVec 32) {i j : Nat} (hi : i < 256)
    (hj : j < 256) :
    probePosition base (maskOf m) i = probePosition base (maskOf m) j ↔
      tetrahedral i ≡ tetrahedral j [MOD 2 ^ m] := by
  rw [← BitVec.toNat_inj, probePosition_toNat hm base hi, probePosition_toNat hm base hj]
  exact ⟨Nat.ModEq.add_left_cancel' base.toNat, Nat.ModEq.add_left base.toNat⟩

/-- Positions that are all different fill a small table. -/
theorem covers_of_distinct {m : Nat} (hm : m ≤ 32) {base : BitVec 32}
    (hdistinct : ∀ i < min (2 ^ m) 256, ∀ j < min (2 ^ m) 256,
      probePosition base (maskOf m) i = probePosition base (maskOf m) j → i = j)
    (hsmall : m ≤ 8) :
    ∀ slot < 2 ^ m, ∃ k < 2 ^ m, (probePosition base (maskOf m) k).toNat = slot := by
  have hcount : 2 ^ m ≤ 256 := Nat.pow_le_pow_right (by omega : 0 < 2) hsmall
  have hlt : ∀ k < 2 ^ m, (probePosition base (maskOf m) k).toNat < 2 ^ m := by
    intro k hk
    rw [probePosition_toNat hm base (by omega)]
    exact Nat.mod_lt _ (Nat.two_pow_pos m)
  have hinjective : Function.Injective fun k : Fin (2 ^ m) =>
      (⟨_, hlt k k.isLt⟩ : Fin (2 ^ m)) := by
    intro i j heq
    have hsame := BitVec.eq_of_toNat_eq (Fin.mk.inj heq)
    exact Fin.ext (hdistinct i (by omega) j (by omega) hsame)
  intro slot hslot
  obtain ⟨k, hk⟩ := Finite.injective_iff_surjective.mp hinjective ⟨slot, hslot⟩
  exact ⟨k, k.isLt, congrArg Fin.val hk⟩

/-! ## Which tables are covered -/

/-- The first 256 distances are different modulo `2 ^ 15`. -/
theorem tetrahedral_injOn : ∀ i < 256, ∀ j < 256,
    tetrahedral i % 2 ^ 15 = tetrahedral j % 2 ^ 15 → i = j :=
  List.injOn_of_unmarked (f := fun k => tetrahedral k % 2 ^ 15) (by decide +kernel)

/-- Two early positions that coincide, for tables of 2^2 slots up to 2^14. -/
def coincidences : List (Nat × Nat) :=
  [(0, 2), (2, 4), (2, 4), (4, 7), (4, 7), (14, 16), (14, 16), (2, 20), (30, 32), (42, 60),
    (42, 60), (42, 60), (126, 128)]

theorem coincidences_spec : ∀ extra < 13,
    (coincidences.getD extra (0, 0)).1 < (coincidences.getD extra (0, 0)).2 ∧
      (coincidences.getD extra (0, 0)).2 < min (2 ^ (extra + 2)) 256 ∧
      tetrahedral (coincidences.getD extra (0, 0)).1 ≡
        tetrahedral (coincidences.getD extra (0, 0)).2 [MOD 2 ^ (extra + 2)] := by
  decide

/-- No slot is probed twice exactly in the tables of one or two slots and in
those of 2^15 slots and more. -/
theorem noRevisit_iff {m : Nat} (hm : m ≤ 32) (base : BitVec 32) :
    NoRevisit base m ↔ m ≤ 1 ∨ 15 ≤ m := by
  constructor
  · intro hnoRevisit
    by_contra hbetween
    obtain ⟨extra, rfl⟩ := Nat.exists_eq_add_of_le' (show 2 ≤ m by omega)
    obtain ⟨hlt, hcount, hmod⟩ := coincidences_spec extra (by omega)
    have hsame := (probePosition_eq_iff hm base (by omega) (by omega)).mpr hmod
    exact absurd (hnoRevisit.distinct _ (by omega) _ hcount hsame) hlt.ne
  · intro hm'
    have hdistinct : ∀ i < min (2 ^ m) 256, ∀ j < min (2 ^ m) 256,
        probePosition base (maskOf m) i = probePosition base (maskOf m) j → i = j := by
      intro i hi j hj heq
      have hmod := (probePosition_eq_iff hm base (by omega) (by omega)).mp heq
      rcases hm' with hsmall | hlarge
      · -- one slot has one position, and the two of a table of two are next to each other
        have htwo : 2 ^ m ≤ 2 := Nat.pow_le_pow_right (by omega : 0 < 2) hsmall
        interval_cases m
        · omega
        · have hall : ∀ i < 2, ∀ j < 2, tetrahedral i ≡ tetrahedral j [MOD 2 ^ 1] → i = j := by
            decide
          exact hall i (by omega) j (by omega) hmod
      · exact tetrahedral_injOn i (by omega) j (by omega)
          (hmod.of_dvd (Nat.pow_dvd_pow 2 hlarge))
    exact ⟨hdistinct, covers_of_distinct hm hdistinct⟩

theorem noRevisit_iff_accelerator : NoRevisit 0x1000 32 ↔ 32 ≤ 1 ∨ 15 ≤ 32 :=
  noRevisit_iff le_rfl 0x1000

/-- A table of four slots: the home slot is probed again at the third position,
and slot 3 not at all. -/
theorem four_slots_revisited :
    probePosition 0 (maskOf 2) 2 = probePosition 0 (maskOf 2) 0 ∧
      (∀ k < 4, probePosition 0 (maskOf 2) k ≠ 3) ∧ ¬ NoRevisit 0 2 := by
  refine ⟨by decide, by decide, fun hnoRevisit => ?_⟩
  exact absurd (hnoRevisit.distinct 2 (by decide) 0 (by decide) (by decide)) (by decide)

/-- The addresses of the reference search are the positions in a table of 2^32
slots, the mask that the accelerator drives. -/
theorem probePosition_eq_windowAddr (base : BitVec 32) {k : Nat} (hk : k < 256) :
    probePosition base (maskOf 32) k = Accelerator.windowAddr base k := by
  induction k with
  | zero => exact BitVec.and_allOnes
  | succ k ih =>
      rw [probePosition, ih (by omega)]
      exact Accelerator.nextBase_eq (by rw [BitVec.toNat_ofNat, Nat.mod_eq_of_lt (by omega)])

/-- The search of the accelerator compares no window twice. -/
theorem windowAddr_injOn (base : BitVec 32) : ∀ i < 256, ∀ j < 256,
    Accelerator.windowAddr base i = Accelerator.windowAddr base j → i = j := by
  intro i hi j hj heq
  rw [← probePosition_eq_windowAddr base hi, ← probePosition_eq_windowAddr base hj,
    probePosition_eq_iff le_rfl base hi hj] at heq
  exact tetrahedral_injOn i hi j hj (heq.of_dvd (Nat.pow_dvd_pow 2 (by omega)))

end KrapivinStepper

end Atarix
