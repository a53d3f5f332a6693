import Atarix.Foundation.Clocked
import Atarix.Rtl.ProbeCore
import Mathlib.Logic.Equiv.Fin.Basic

/-! # The two probe cores

`atx_scalar_probe_core` looks at one lane of a control window per clock, and
`atx_simd_probe_core` at all of them at once through a wildcard priority
encoder. Both answer whether some lane matches and which is the lowest.
-/

namespace Atarix

namespace SimdProbeCore

/-- The wires `lane_matches`. -/
def laneMatchesWord (controlBytes : BitVec 128) (targetH2 : BitVec 7) : BitVec 16 :=
  (BitVec.ofBoolListLE ((List.finRange 16).map (laneMatches controlBytes targetH2))).cast (by simp)

/-- Item `lane` of the `casez`: a one at `lane`, zeros below it and anything above. -/
def casezItem (laneMatches : BitVec 16) (lane : Fin 16) : Bool :=
  laneMatches.setWidth (lane + 1) == BitVec.twoPow (lane + 1) lane

/-- The `casez`: the first item that fits, and otherwise the default. -/
def priorityEncoder (laneMatches : BitVec 16) : BitVec 4 :=
  match Fin.find? (casezItem laneMatches) with
  | some lane => BitVec.ofFin lane
  | none => 0

structure Outputs where
  matchFound : Bool
  matchOffset : BitVec 4
deriving DecidableEq, Repr

/-- The outputs, from the wires as the source has them. -/
def outputs (controlBytes : BitVec 128) (targetH2 : BitVec 7) : Outputs where
  matchFound := laneMatchesWord controlBytes targetH2 ≠ 0
  matchOffset := priorityEncoder (laneMatchesWord controlBytes targetH2)

theorem laneMatchesWord_getElem (controlBytes : BitVec 128) (targetH2 : BitVec 7) (lane : Nat)
    (hlane : lane < 16) :
    (laneMatchesWord controlBytes targetH2)[lane] =
      laneMatches controlBytes targetH2 ⟨lane, hlane⟩ := by
  have hplace : (List.finRange 16)[lane]? = some ⟨lane, hlane⟩ := by
    simp [hlane]
  simp [laneMatchesWord, ← BitVec.getLsbD_eq_getElem, hplace]

theorem casezItem_iff (word : BitVec 16) (lane : Fin 16) :
    casezItem word lane ↔ word[lane] ∧ ∀ lower < lane, word[lower] = false := by
  rw [casezItem, beq_iff_eq]
  constructor
  · intro heq
    have hbit : ∀ place : Fin 16, place ≤ lane → word[place] = decide (place.val = lane.val) := by
      intro place hle
      have hplace := congrArg (·.getLsbD place) heq
      simpa [Nat.lt_succ_of_le (Fin.le_def.mp hle), BitVec.getLsbD_eq_getElem] using hplace
    refine ⟨by simp [hbit lane le_rfl], fun lower hlt => ?_⟩
    rw [hbit lower (le_of_lt hlt), decide_eq_false_iff_not]
    exact fun hval => absurd hlt (by simp [Fin.lt_def, hval])
  · rintro ⟨hone, hzeros⟩
    ext place hplace
    rw [BitVec.getElem_setWidth, BitVec.getElem_twoPow,
      BitVec.getLsbD_eq_getElem (show place < 16 by omega)]
    rcases Nat.lt_succ_iff_lt_or_eq.mp hplace with hlt | rfl
    · exact (hzeros ⟨place, by omega⟩ hlt).trans (decide_eq_false (by omega)).symm
    · exact hone.trans (decide_eq_true rfl).symm

/-- The item that fits is that of the lowest set bit. -/
theorem find_casezItem (word : BitVec 16) :
    Fin.find? (casezItem word) = Fin.find? fun lane => word[lane] := by
  ext lane
  rw [Fin.find?_eq_some_iff, Fin.find?_eq_some_iff, casezItem_iff]
  constructor
  · exact fun hitem => hitem.1
  · intro hlowest
    refine ⟨hlowest, fun lower hlt => ?_⟩
    rw [← Bool.not_eq_true, casezItem_iff, hlowest.2 lower hlt]
    simp

/-- The wires and the encoder compute what the lane tests say. -/
theorem outputs_eq (controlBytes : BitVec 128) (targetH2 : BitVec 7) :
    outputs controlBytes targetH2 =
      ⟨matchFound controlBytes targetH2, matchOffset controlBytes targetH2⟩ := by
  have hwires : (fun lane : Fin 16 => (laneMatchesWord controlBytes targetH2)[lane]) =
      laneMatches controlBytes targetH2 := by
    funext lane
    exact laneMatchesWord_getElem controlBytes targetH2 lane lane.isLt
  have hoffset : priorityEncoder (laneMatchesWord controlBytes targetH2) =
      matchOffset controlBytes targetH2 := by
    have hfind : Fin.find? (casezItem (laneMatchesWord controlBytes targetH2)) =
        (List.finRange 16).find? (laneMatches controlBytes targetH2) := by
      rw [find_casezItem, hwires, Fin.find?_eq_find?_finRange]
    unfold priorityEncoder matchOffset
    generalize Fin.find? (casezItem (laneMatchesWord controlBytes targetH2)) = item at hfind ⊢
    subst hfind
    rfl
  have hfound : decide (laneMatchesWord controlBytes targetH2 ≠ 0) =
      matchFound controlBytes targetH2 := by
    rw [Bool.eq_iff_iff, decide_eq_true_iff, matchFound, List.any_eq_true]
    constructor
    · intro hne
      by_contra hnone
      apply hne
      ext place hplace
      have hclear : laneMatches controlBytes targetH2 ⟨place, hplace⟩ = false :=
        Bool.eq_false_iff.mpr fun hset => hnone ⟨⟨place, hplace⟩, List.mem_finRange _, hset⟩
      rw [laneMatchesWord_getElem, hclear]
      simp
    · rintro ⟨lane, -, hset⟩ hzero
      rw [← laneMatchesWord_getElem controlBytes targetH2 lane lane.isLt, hzero] at hset
      simp at hset
  rw [outputs, hoffset, hfound]

/-- The answer to a window: whether some lane matches, and the lowest that does. -/
structure LowestMatch (controlBytes : BitVec 128) (targetH2 : BitVec 7) (outputs : Outputs) :
    Prop where
  found_iff : outputs.matchFound ↔ ∃ lane, laneMatch controlBytes targetH2 lane
  lowest : ∀ lane, laneMatch controlBytes targetH2 lane →
    (∀ lower < lane, ¬ laneMatch controlBytes targetH2 lower) →
    outputs.matchOffset = BitVec.ofFin (w := 4) lane
  missed : (∀ lane, ¬ laneMatch controlBytes targetH2 lane) → outputs.matchOffset = 0

theorem outputs_lowestMatch (controlBytes : BitVec 128) (targetH2 : BitVec 7) :
    LowestMatch controlBytes targetH2 (outputs controlBytes targetH2) := by
  rw [outputs_eq]
  refine ⟨by simp [matchFound, laneMatches], fun lane hlane hlower => ?_, fun hnone => ?_⟩
  · have hfind : (List.finRange 16).find? (laneMatches controlBytes targetH2) = some lane := by
      rw [← Fin.find?_eq_find?_finRange, Fin.find?_eq_some_iff]
      exact ⟨hlane, fun lower hlt => Bool.eq_false_iff.mpr (hlower lower hlt)⟩
    simp only [matchOffset, hfind]
  · have hfind : (List.finRange 16).find? (laneMatches controlBytes targetH2) = none := by
      rw [← Fin.find?_eq_find?_finRange, Fin.find?_eq_none_iff]
      exact fun lane => Bool.eq_false_iff.mpr (hnone lane)
    simp only [matchOffset, hfind]

end SimdProbeCore

namespace ScalarProbeCore

open SimdProbeCore (laneMatch)

structure Inputs where
  rstN : Bool
  start : Bool
  controlBytes : BitVec 128
  targetH2 : BitVec 7
deriving DecidableEq, Repr

structure Registers where
  done : Bool
  matchFound : Bool
  matchOffset : BitVec 4
  cyclesUsed : BitVec 5
  lane : BitVec 5
deriving DecidableEq, Repr

def resetRegisters : Registers := ⟨true, false, 0, 0, 0⟩

/-- The wires `lane_byte`. -/
def laneByte (input : Inputs) (regs : Registers) : BitVec 8 :=
  input.controlBytes.extractLsb' ((regs.lane.setWidth 4).toNat * 8) 8

def edge (input : Inputs) (regs : Registers) : Registers :=
  if ¬ input.rstN then resetRegisters
  else if input.start then
    { done := false, matchFound := false, matchOffset := 0, cyclesUsed := 0, lane := 0 }
  else if ¬ regs.done then
    let next := { regs with cyclesUsed := regs.cyclesUsed + 1 }
    if (laneByte input regs).getLsbD 7 ∧ (laneByte input regs).setWidth 7 = input.targetH2 then
      { next with matchFound := true, matchOffset := regs.lane.setWidth 4, done := true }
    else if regs.lane = 15 then { next with done := true }
    else { next with lane := regs.lane + 1 }
  else regs

/-- The core, started in reset. -/
def machine : Clocked Inputs Registers := ⟨resetRegisters, edge⟩

/-- The ports hold a window and a fingerprint, with `start` low. -/
structure Holds (controlBytes : BitVec 128) (targetH2 : BitVec 7) (input : Inputs) : Prop where
  rst : input.rstN
  idle : ¬ input.start
  window : input.controlBytes = controlBytes
  fingerprint : input.targetH2 = targetH2

/-- The registers with the scan at lane `count`. -/
def scanning (count : Nat) : Registers :=
  ⟨false, false, 0, BitVec.ofNat 5 count, BitVec.ofNat 5 count⟩

/-- The registers after a scan that ended at lane `last`. -/
def finished (outputs : SimdProbeCore.Outputs) (last : Nat) : Registers :=
  ⟨true, outputs.matchFound, outputs.matchOffset, BitVec.ofNat 5 (last + 1), BitVec.ofNat 5 last⟩

/-- The clocks of a scan: up to the lowest match, or past all sixteen lanes. -/
def scanClocks (outputs : SimdProbeCore.Outputs) : Nat :=
  if outputs.matchFound then outputs.matchOffset.toNat + 1 else 16

/-- The registers show the outputs and the clocks it took to find them. -/
structure Shows (outputs : SimdProbeCore.Outputs) (regs : Registers) : Prop where
  done : regs.done
  matchFound : regs.matchFound = outputs.matchFound
  matchOffset : regs.matchOffset = outputs.matchOffset
  cyclesUsed : regs.cyclesUsed.toNat = scanClocks outputs

/-- The scan started at edge `t` ends within sixteen clocks, and from then on
shows the outputs of the comparators, which are the lowest match. -/
structure Agrees (inputs : Nat → Inputs) (t : Nat) (controlBytes : BitVec 128)
    (targetH2 : BitVec 7) : Prop where
  lowest : SimdProbeCore.LowestMatch controlBytes targetH2
    (SimdProbeCore.outputs controlBytes targetH2)
  within : scanClocks (SimdProbeCore.outputs controlBytes targetH2) ≤ 16
  scans : ∀ k < scanClocks (SimdProbeCore.outputs controlBytes targetH2),
    ¬ (machine.regs inputs (t + 1 + k)).done
  shows : ∀ k, scanClocks (SimdProbeCore.outputs controlBytes targetH2) ≤ k → k ≤ 16 →
    Shows (SimdProbeCore.outputs controlBytes targetH2) (machine.regs inputs (t + 1 + k))

variable {controlBytes : BitVec 128} {targetH2 : BitVec 7} {input : Inputs}

/-- The scan tests the lane that the comparators test. -/
theorem laneByte_matches_iff (hholds : Holds controlBytes targetH2 input) (lane : Fin 16) :
    ((laneByte input (scanning lane)).getLsbD 7 ∧
        (laneByte input (scanning lane)).setWidth 7 = input.targetH2) ↔
      laneMatch controlBytes targetH2 lane := by
  have hlane : ((BitVec.ofNat 5 lane).setWidth 4).toNat = lane := by
    rw [BitVec.toNat_setWidth, BitVec.toNat_ofNat]
    omega
  have hlow : (controlBytes.extractLsb' (lane * 8) 8).setWidth 7 =
      controlBytes.extractLsb' (lane * 8) 7 := BitVec.setWidth_extractLsb'_of_le (by omega)
  simp only [laneByte, scanning, hlane, hholds.window, hholds.fingerprint, hlow, laneMatch]
  simp

theorem edge_of_start {input : Inputs} (hrst : input.rstN) (hstart : input.start)
    (regs : Registers) : edge input regs = scanning 0 := by
  simp only [edge, hrst, hstart, not_true, if_false, if_true]
  rfl

/-- A scanning edge, with the test at its lane as the comparator has it. -/
theorem edge_scanning (hholds : Holds controlBytes targetH2 input) (lane : Fin 16) :
    edge input (scanning lane) =
      if laneMatch controlBytes targetH2 lane then finished ⟨true, BitVec.ofFin lane⟩ lane
      else if lane.val = 15 then finished ⟨false, 0⟩ 15
      else scanning (lane + 1) := by
  have hlast : (scanning lane).lane = 15 ↔ lane.val = 15 := by
    rw [← BitVec.toNat_inj, scanning, BitVec.toNat_ofNat, Nat.mod_eq_of_lt (by omega)]
    rfl
  have hrunning : ¬ (scanning lane).done := Bool.false_ne_true
  have hnext : BitVec.ofNat 5 lane + 1 = BitVec.ofNat 5 (lane + 1) :=
    (BitVec.ofNat_add lane.val 1).symm
  simp only [edge, hholds.rst, hholds.idle, hrunning, not_true, not_false_iff, if_false, if_true,
    Bool.false_eq_true, laneByte_matches_iff hholds, hlast]
  split_ifs with hmatch hend
  · have hoffset : (BitVec.ofNat 5 lane).setWidth 4 = BitVec.ofFin (w := 4) lane := by
      apply BitVec.eq_of_toNat_eq
      rw [BitVec.toNat_setWidth, BitVec.toNat_ofNat, BitVec.toNat_ofFin]
      omega
    simp only [scanning, finished, hoffset, hnext]
  · simp only [scanning, finished, hend]
    rfl
  · simp only [scanning, hnext]

theorem edge_of_done (hholds : Holds controlBytes targetH2 input) {regs : Registers}
    (hdone : regs.done) : edge input regs = regs := by
  simp [edge, hholds.rst, hholds.idle, hdone]

/-! ## A scan -/

section Scan

variable {inputs : Nat → Inputs} {t : Nat}

/-- Past lanes that do not match the scan goes on. -/
theorem regs_scanning (hstart : (inputs t).rstN ∧ (inputs t).start) {count : Nat}
    (hcount : count ≤ 15) (hheld : ∀ k < count, Holds controlBytes targetH2 (inputs (t + 1 + k)))
    (hmisses : ∀ lane : Fin 16, lane.val < count → ¬ laneMatch controlBytes targetH2 lane) :
    machine.regs inputs (t + 1 + count) = scanning count := by
  induction count with
  | zero => exact edge_of_start hstart.1 hstart.2 _
  | succ count ih =>
      have hbefore := ih (by omega) (fun k hk => hheld k (by omega))
        fun lane hlane => hmisses lane (by omega)
      rw [← Nat.add_assoc, machine.regs_succ, hbefore]
      have hedge := edge_scanning (hheld count (by omega)) ⟨count, by omega⟩
      rw [if_neg (hmisses ⟨count, by omega⟩ (by simp)), if_neg (by simp; omega)] at hedge
      exact hedge

/-- A finished scan keeps its result while `start` is low. -/
theorem regs_of_done {first count : Nat} {regs : Registers}
    (hfirst : machine.regs inputs first = regs) (hdone : regs.done)
    (hheld : ∀ k < count, Holds controlBytes targetH2 (inputs (first + k))) :
    machine.regs inputs (first + count) = regs := by
  induction count with
  | zero => exact hfirst
  | succ count ih =>
      rw [← Nat.add_assoc, machine.regs_succ, ih fun k hk => hheld k (by omega)]
      exact edge_of_done (hheld count (by omega)) hdone

/-- A scan that ends at lane `last` shows its outputs, once and for all. -/
theorem shows_of_finished {outputs : SimdProbeCore.Outputs} {last : Nat} (hlast : last ≤ 15)
    (hclocks : scanClocks outputs = last + 1) {k : Nat} (hle : scanClocks outputs ≤ k)
    (hend : machine.regs inputs (t + 1 + (last + 1)) = finished outputs last)
    (hheld : ∀ k < 16, Holds controlBytes targetH2 (inputs (t + 1 + k))) (hk : k ≤ 16) :
    Shows outputs (machine.regs inputs (t + 1 + k)) := by
  obtain ⟨count, rfl⟩ := Nat.exists_eq_add_of_le hle
  have hlow : ∀ step < count,
      Holds controlBytes targetH2 (inputs (t + 1 + (last + 1) + step)) := by
    intro step hstep
    rw [Nat.add_assoc (t + 1)]
    exact hheld (last + 1 + step) (by omega)
  rw [hclocks, ← Nat.add_assoc, regs_of_done hend rfl hlow]
  refine ⟨rfl, rfl, rfl, ?_⟩
  rw [hclocks, finished, BitVec.toNat_ofNat]
  exact Nat.mod_eq_of_lt (show last + 1 < 2 ^ 5 by omega)

/-- A scan whose first edge with a result is the one at `last`, and that result is
the comparators', agrees with them. -/
theorem agrees_of_last {last : Fin 16} (hstart : (inputs t).rstN ∧ (inputs t).start)
    (hheld : ∀ k < 16, Holds controlBytes targetH2 (inputs (t + 1 + k)))
    (hclocks : scanClocks (SimdProbeCore.outputs controlBytes targetH2) = last + 1)
    (hmisses : ∀ lower < last, ¬ laneMatch controlBytes targetH2 lower)
    (hlast : edge (inputs (t + 1 + last)) (scanning last) =
      finished (SimdProbeCore.outputs controlBytes targetH2) last) :
    Agrees inputs t controlBytes targetH2 := by
  have hscanning : ∀ k ≤ last.val, machine.regs inputs (t + 1 + k) = scanning k :=
    fun k hk => regs_scanning hstart (by omega) (fun step hstep => hheld step (by omega))
      fun lower hlt => hmisses lower (Nat.lt_of_lt_of_le hlt hk)
  have hend : machine.regs inputs (t + 1 + (last + 1)) =
      finished (SimdProbeCore.outputs controlBytes targetH2) last := by
    rw [← Nat.add_assoc, machine.regs_succ, hscanning last le_rfl]
    exact hlast
  refine ⟨SimdProbeCore.outputs_lowestMatch controlBytes targetH2, ?_, ?_, ?_⟩
  · rw [hclocks]
    exact last.isLt
  · intro k hk
    rw [hscanning k (by omega)]
    exact Bool.false_ne_true
  · intro k hle hk
    exact shows_of_finished (by omega) hclocks hle hend hheld hk

/-- A scan of a window that is held agrees with the comparators, in whatever
state it was started. -/
theorem scalar_agrees_simd {inputs : Nat → Inputs} {t : Nat} {controlBytes : BitVec 128}
    {targetH2 : BitVec 7} (hstart : (inputs t).rstN ∧ (inputs t).start)
    (hheld : ∀ k < 16, Holds controlBytes targetH2 (inputs (t + 1 + k))) :
    Agrees inputs t controlBytes targetH2 := by
  have hlowest := SimdProbeCore.outputs_lowestMatch controlBytes targetH2
  by_cases hsome : ∃ lane, laneMatch controlBytes targetH2 lane
  · obtain ⟨lane, hlane, hlower⟩ := Fin.exists_eq_true_iff_exists_minimal_eq_true _ |>.mp hsome
    have hmisses : ∀ lower < lane, ¬ laneMatch controlBytes targetH2 lower :=
      fun lower hlt => Bool.eq_false_iff.mp (hlower lower hlt)
    have houtputs : SimdProbeCore.outputs controlBytes targetH2 = ⟨true, BitVec.ofFin lane⟩ :=
      congrArg₂ SimdProbeCore.Outputs.mk (hlowest.found_iff.mpr hsome)
        (hlowest.lowest lane hlane hmisses)
    apply agrees_of_last hstart hheld ?_ hmisses
    · rw [edge_scanning (hheld lane lane.isLt) lane, if_pos hlane, houtputs]
    · rw [houtputs]
      rfl
  · have hmisses : ∀ lane, ¬ laneMatch controlBytes targetH2 lane := not_exists.mp hsome
    have houtputs : SimdProbeCore.outputs controlBytes targetH2 = ⟨false, 0⟩ :=
      congrArg₂ SimdProbeCore.Outputs.mk
        (Bool.eq_false_iff.mpr fun hfound => hsome (hlowest.found_iff.mp hfound))
        (hlowest.missed hmisses)
    have hend : Holds controlBytes targetH2 (inputs (t + 1 + (15 : Fin 16))) :=
      hheld 15 (by decide)
    refine agrees_of_last hstart hheld ?_ (fun lower _ => hmisses lower)
      ((edge_scanning hend 15).trans ?_)
    · rw [houtputs]
      rfl
    · rw [if_neg (hmisses 15), houtputs]
      rfl

/-- A window whose last lane alone holds the fingerprint 0x2A, started at edge 2. -/
def lastLaneScan (t : Nat) : Inputs :=
  ⟨true, t = 2, 0xAA <<< 120, 0x2A⟩

theorem scalar_agrees_simd_lastLane : Agrees lastLaneScan 2 (0xAA <<< 120) 0x2A :=
  scalar_agrees_simd ⟨rfl, rfl⟩ fun k _ =>
    ⟨rfl, by simp [lastLaneScan]; omega, rfl, rfl⟩

end Scan

end ScalarProbeCore

end Atarix
