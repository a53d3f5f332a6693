import Atarix.Foundation.Clocked
import Mathlib.Data.BitVec

/-! # The northbridge bus shim

`atx_northbridge_bus_shim` takes a byte from the bus at every falling edge of PHI2
that ends a write cycle, and marks the first byte of a frame. A frame lasts until
the chip is deselected.
-/

namespace Atarix

namespace NorthbridgeBusShim

structure Inputs where
  rstN : Bool
  phi2DIn : BitVec 8
  phi2 : Bool
  csN : Bool
  rw : Bool
deriving DecidableEq, Repr

structure Registers where
  shimDataOut : BitVec 8
  shimValid : Bool
  shimSof : Bool
  oldPhi2 : Bool
  processingFrame : Bool
deriving DecidableEq, Repr

def resetRegisters : Registers := ⟨0, false, false, false, false⟩

def edge (input : Inputs) (regs : Registers) : Registers :=
  if ¬ input.rstN then resetRegisters
  else
    let next := { regs with oldPhi2 := input.phi2, shimValid := false, shimSof := false }
    if regs.oldPhi2 ∧ ¬ input.phi2 ∧ ¬ input.csN ∧ ¬ input.rw then
      let next := { next with shimDataOut := input.phi2DIn, shimValid := true }
      if ¬ regs.processingFrame then { next with shimSof := true, processingFrame := true }
      else next
    else if input.csN then { next with processingFrame := false }
    else next

/-- The shim, started in reset. -/
def machine : Clocked Inputs Registers := ⟨resetRegisters, edge⟩

/-! ## The bus -/

/-- The frame that is open ends at this clock. -/
def EndsFrame (input : Inputs) : Prop := ¬ input.rstN ∨ input.csN

instance (input : Inputs) : Decidable (EndsFrame input) := inferInstanceAs (Decidable (_ ∨ _))

section Bus

variable (inputs : Nat → Inputs)

/-- PHI2 was high at the clock before `t`. -/
def HighBefore : Nat → Prop
  | 0 => False
  | t + 1 => (inputs t).rstN ∧ (inputs t).phi2

instance : DecidablePred (HighBefore inputs)
  | 0 => inferInstanceAs (Decidable False)
  | _ + 1 => inferInstanceAs (Decidable (_ ∧ _))

/-- A write cycle ends at clock `t`. -/
def Writes (t : Nat) : Prop :=
  (inputs t).rstN ∧ HighBefore inputs t ∧ ¬ (inputs t).phi2 ∧ ¬ (inputs t).csN ∧ ¬ (inputs t).rw

instance : DecidablePred (Writes inputs) := fun _ => inferInstanceAs (Decidable (_ ∧ _))

/-- The byte at `t` is the first one since reset or since the chip was last deselected. -/
def StartsFrame (t : Nat) : Prop :=
  Writes inputs t ∧ ∀ k < t, Writes inputs k → ∃ j < t, k < j ∧ EndsFrame (inputs j)

instance : DecidablePred (StartsFrame inputs) := fun _ => inferInstanceAs (Decidable (_ ∧ _))

/-- The bytes written before clock `t`, with the first ones of their frames marked. -/
def busBytes : Nat → List (BitVec 8 × Bool)
  | 0 => []
  | t + 1 =>
    if Writes inputs t then
      busBytes t ++ [((inputs t).phi2DIn, decide (StartsFrame inputs t))]
    else busBytes t

/-- The bytes the shim has emitted after `t` clocks, with its marks. -/
def shimBytes : Nat → List (BitVec 8 × Bool)
  | 0 => []
  | t + 1 =>
    let regs := machine.regs inputs (t + 1)
    if regs.shimValid then shimBytes t ++ [(regs.shimDataOut, regs.shimSof)] else shimBytes t

/-- The number of the frame that a receiver puts the byte of clock `t` into. -/
def frameNumber (t : Nat) : Nat :=
  Nat.count (fun k => (machine.regs inputs (k + 1)).shimSof = true) (t + 1)

/-- The shim emits the bytes on the bus in their frames. -/
structure Frames : Prop where
  valid_iff : ∀ t, (machine.regs inputs (t + 1)).shimValid ↔ Writes inputs t
  data_eq : ∀ t, Writes inputs t → (machine.regs inputs (t + 1)).shimDataOut = (inputs t).phi2DIn
  sof_iff : ∀ t, (machine.regs inputs (t + 1)).shimSof ↔ StartsFrame inputs t
  bytes_eq : ∀ t, shimBytes inputs t = busBytes inputs t
  sameFrame_iff : ∀ first last, first ≤ last → Writes inputs first → Writes inputs last →
    (frameNumber inputs first = frameNumber inputs last ↔
      ∀ k, first < k → k < last → ¬ EndsFrame (inputs k))

end Bus

variable {inputs : Nat → Inputs} {t : Nat}

/-! ## One clock -/

/-- A frame is open: no clock since its last byte has ended it. -/
def InFrame (inputs : Nat → Inputs) (t : Nat) : Prop :=
  ∃ k < t, Writes inputs k ∧ ∀ j < t, k < j → ¬ EndsFrame (inputs j)

theorem startsFrame_iff : StartsFrame inputs t ↔ Writes inputs t ∧ ¬ InFrame inputs t := by
  simp only [StartsFrame, InFrame, not_exists, not_and, not_forall, not_not, exists_prop]

/-- After a byte a frame is open. -/
theorem Writes.inFrame (hwrites : Writes inputs t) : InFrame inputs (t + 1) :=
  ⟨t, Nat.lt_succ_self t, hwrites,
    fun _ hj hlt => absurd (Nat.le_of_lt_succ hj) (Nat.not_le.mpr hlt)⟩

theorem Writes.not_endsFrame (hwrites : Writes inputs t) : ¬ EndsFrame (inputs t) :=
  not_or.mpr ⟨not_not.mpr hwrites.1, hwrites.2.2.2.1⟩

/-- Any other clock leaves a frame open unless it ends it. -/
theorem inFrame_succ_of_not_writes (hquiet : ¬ Writes inputs t) :
    InFrame inputs (t + 1) ↔ InFrame inputs t ∧ ¬ EndsFrame (inputs t) := by
  constructor
  · rintro ⟨k, hk, hwrites, hopen⟩
    have hlt : k < t := Nat.lt_of_le_of_ne (Nat.le_of_lt_succ hk) fun heq => hquiet (heq ▸ hwrites)
    exact ⟨⟨k, hlt, hwrites, fun j hj => hopen j (Nat.lt_succ_of_lt hj)⟩,
      hopen t (Nat.lt_succ_self t) hlt⟩
  · rintro ⟨⟨k, hk, hwrites, hopen⟩, hlast⟩
    refine ⟨k, Nat.lt_succ_of_lt hk, hwrites, fun j hj hkj => ?_⟩
    rcases Nat.lt_succ_iff_lt_or_eq.mp hj with hlt | rfl
    · exact hopen j hlt hkj
    · exact hlast

/-- What the registers remember of the bus. -/
structure Tracks (inputs : Nat → Inputs) (t : Nat) (regs : Registers) : Prop where
  oldPhi2 : regs.oldPhi2 ↔ HighBefore inputs t
  processingFrame : regs.processingFrame ↔ InFrame inputs t

section Edge

variable {regs : Registers}

/-- The test of the source finds the bytes of the bus. -/
theorem Tracks.writes_iff (htracks : Tracks inputs t regs) (hrst : (inputs t).rstN) :
    (regs.oldPhi2 ∧ ¬ (inputs t).phi2 ∧ ¬ (inputs t).csN ∧ ¬ (inputs t).rw) ↔ Writes inputs t := by
  rw [htracks.oldPhi2]
  exact ⟨fun hwrites => ⟨hrst, hwrites⟩, fun hwrites => hwrites.2⟩

theorem edge_of_writes (htracks : Tracks inputs t regs) (hwrites : Writes inputs t) :
    edge (inputs t) regs =
      ⟨(inputs t).phi2DIn, true, !regs.processingFrame, (inputs t).phi2, true⟩ := by
  have htest := (htracks.writes_iff hwrites.1).mpr hwrites
  simp only [edge, if_neg (not_not.mpr hwrites.1), if_pos htest]
  cases hopen : regs.processingFrame <;> rfl

theorem edge_of_not_writes (htracks : Tracks inputs t regs) (hrst : (inputs t).rstN)
    (hquiet : ¬ Writes inputs t) :
    edge (inputs t) regs =
      ⟨regs.shimDataOut, false, false, (inputs t).phi2,
        regs.processingFrame && !(inputs t).csN⟩ := by
  have htest := mt (htracks.writes_iff hrst).mp hquiet
  simp only [edge, if_neg (not_not.mpr hrst), if_neg htest]
  cases hselect : (inputs t).csN
  · rw [Bool.not_false, Bool.and_true]
    rfl
  · rw [Bool.not_true, Bool.and_false]
    rfl

theorem edge_of_reset (hrst : ¬ (inputs t).rstN) : edge (inputs t) regs = resetRegisters :=
  if_pos hrst

/-- An edge goes on tracking the bus. -/
theorem Tracks.succ (htracks : Tracks inputs t regs) :
    Tracks inputs (t + 1) (edge (inputs t) regs) := by
  by_cases hrst : (inputs t).rstN
  · by_cases hwrites : Writes inputs t
    · rw [edge_of_writes htracks hwrites]
      exact ⟨(and_iff_right hrst).symm, iff_of_true rfl hwrites.inFrame⟩
    · rw [edge_of_not_writes htracks hrst hwrites]
      refine ⟨(and_iff_right hrst).symm, ?_⟩
      have hends : EndsFrame (inputs t) ↔ (inputs t).csN := or_iff_right (not_not.mpr hrst)
      rw [inFrame_succ_of_not_writes hwrites, ← htracks.processingFrame, hends, Bool.and_eq_true,
        Bool.not_eq_true', Bool.not_eq_true]
  · -- a clock in reset forgets PHI2 and the frame
    have hquiet : ¬ Writes inputs t := fun hwrites => hrst hwrites.1
    rw [edge_of_reset hrst]
    refine ⟨iff_of_false Bool.false_ne_true fun hhigh => hrst hhigh.1, ?_⟩
    rw [inFrame_succ_of_not_writes hquiet]
    exact iff_of_false Bool.false_ne_true fun hopen => hopen.2 (Or.inl hrst)

/-- What an edge shows of the clock it took in. -/
theorem Tracks.shows (htracks : Tracks inputs t regs) :
    ((edge (inputs t) regs).shimValid ↔ Writes inputs t) ∧
      ((edge (inputs t) regs).shimSof ↔ StartsFrame inputs t) ∧
      (Writes inputs t →
        (edge (inputs t) regs).shimDataOut = (inputs t).phi2DIn) := by
  rw [startsFrame_iff]
  by_cases hwrites : Writes inputs t
  · rw [edge_of_writes htracks hwrites]
    refine ⟨iff_of_true rfl hwrites, ?_, fun _ => rfl⟩
    rw [and_iff_right hwrites, ← htracks.processingFrame, Bool.not_eq_true', Bool.not_eq_true]
  · refine ⟨iff_of_false ?_ hwrites, iff_of_false ?_ fun hstarts => hwrites hstarts.1,
      fun hother => absurd hother hwrites⟩
    all_goals
      by_cases hrst : (inputs t).rstN
      · rw [edge_of_not_writes htracks hrst hwrites]
        exact Bool.false_ne_true
      · rw [edge_of_reset hrst]
        exact Bool.false_ne_true

end Edge

/-! ## The run -/

theorem regs_tracks (inputs : Nat → Inputs) (t : Nat) :
    Tracks inputs t (machine.regs inputs t) := by
  induction t with
  | zero =>
      refine ⟨iff_of_false Bool.false_ne_true id, iff_of_false Bool.false_ne_true ?_⟩
      exact fun ⟨k, hk, _⟩ => Nat.not_lt_zero k hk
  | succ t ih => exact ih.succ

theorem shimValid_iff (inputs : Nat → Inputs) (t : Nat) :
    (machine.regs inputs (t + 1)).shimValid ↔ Writes inputs t :=
  (regs_tracks inputs t).shows.1

theorem shimSof_iff (inputs : Nat → Inputs) (t : Nat) :
    (machine.regs inputs (t + 1)).shimSof ↔ StartsFrame inputs t :=
  (regs_tracks inputs t).shows.2.1

theorem shimDataOut_eq (hwrites : Writes inputs t) :
    (machine.regs inputs (t + 1)).shimDataOut = (inputs t).phi2DIn :=
  (regs_tracks inputs t).shows.2.2 hwrites

/-- The shim emits the bytes of the bus in their order, with the right marks. -/
theorem shimBytes_eq (inputs : Nat → Inputs) (t : Nat) :
    shimBytes inputs t = busBytes inputs t := by
  induction t with
  | zero => rfl
  | succ t ih =>
      have hsof : (machine.regs inputs (t + 1)).shimSof = decide (StartsFrame inputs t) := by
        rw [Bool.eq_iff_iff, shimSof_iff, decide_eq_true_iff]
      rw [shimBytes, busBytes, ih]
      by_cases hwrites : Writes inputs t
      · rw [if_pos ((shimValid_iff inputs t).mpr hwrites), if_pos hwrites,
          shimDataOut_eq hwrites, hsof]
      · rw [if_neg (mt (shimValid_iff inputs t).mp hwrites), if_neg hwrites]

/-- Behind a clock that ends a frame the next byte starts one. -/
theorem exists_startsFrame {gap last : Nat} (hgap : EndsFrame (inputs gap)) (hlt : gap < last)
    (hwrites : Writes inputs last) : ∃ k, gap < k ∧ k ≤ last ∧ StartsFrame inputs k := by
  have hsome : ∃ k, gap < k ∧ Writes inputs k := ⟨last, hlt, hwrites⟩
  obtain ⟨hafter, hfirst⟩ := Nat.find_spec hsome
  refine ⟨Nat.find hsome, hafter, Nat.find_min' hsome ⟨hlt, hwrites⟩, hfirst, fun k hk hbyte => ?_⟩
  refine ⟨gap, hafter, ?_, hgap⟩
  rcases Nat.lt_trichotomy k gap with hbefore | rfl | hbehind
  · exact hbefore
  · exact absurd hgap hbyte.not_endsFrame
  · exact absurd ⟨hbehind, hbyte⟩ (Nat.find_min hsome hk)

/-- A receiver that follows the marks puts two bytes into one frame exactly if no
clock between them ends a frame. -/
theorem frameNumber_eq_iff {first last : Nat} (hle : first ≤ last) (hfirst : Writes inputs first)
    (hlast : Writes inputs last) :
    frameNumber inputs first = frameNumber inputs last ↔
      ∀ k, first < k → k < last → ¬ EndsFrame (inputs k) := by
  constructor
  · intro hsame gap hgt hlt hgap
    obtain ⟨start, hafter, hwithin, hstarts⟩ := exists_startsFrame hgap hlt hlast
    have hmarked : (machine.regs inputs (start + 1)).shimSof = true :=
      (shimSof_iff inputs start).mpr hstarts
    let marked (k : Nat) : Prop := (machine.regs inputs (k + 1)).shimSof = true
    refine absurd hsame (Nat.ne_of_lt ?_)
    calc frameNumber inputs first
        ≤ Nat.count marked start := Nat.count_monotone marked (Nat.lt_trans hgt hafter)
      _ < frameNumber inputs last := @Nat.count_strict_mono marked _ start _ hmarked
          (Nat.lt_succ_of_le hwithin)
  · intro hopen
    refine (Nat.count_eq_of_none (Nat.succ_le_succ hle) fun k hk hlt hsof => ?_).symm
    obtain ⟨j, hj, hgt, hends⟩ := ((shimSof_iff inputs k).mp hsof).2 first hk hfirst
    exact hopen j hgt (by omega) hends

/-- In every run the shim emits the bytes on the bus in their frames. -/
theorem shim_frames (inputs : Nat → Inputs) : Frames inputs where
  valid_iff := shimValid_iff inputs
  data_eq _ := shimDataOut_eq
  sof_iff := shimSof_iff inputs
  bytes_eq := shimBytes_eq inputs
  sameFrame_iff _ _ := frameNumber_eq_iff

end NorthbridgeBusShim

end Atarix
