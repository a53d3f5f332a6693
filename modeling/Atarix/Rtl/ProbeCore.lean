import Mathlib.Data.BitVec
import Mathlib.Data.List.FinRange
import Mathlib.Tactic.Common

/-! # Combinational probe logic

`atx_simd_probe_core` and `atx_krapivin_stepper`: the comparison of one control
window with a fingerprint, and the step from one probe address to the next.
-/

namespace Atarix

namespace SimdProbeCore

/-- One lane comparator: the occupancy bit and the seven fingerprint bits. -/
def laneMatch (controlBytes : BitVec 128) (targetH2 : BitVec 7) (lane : Fin 16) : Bool :=
  controlBytes.getLsbD (lane * 8 + 7) && controlBytes.extractLsb' (lane * 8) 7 == targetH2

/-- `lane_matches`, as a function of the lane. -/
def laneMatches (controlBytes : BitVec 128) (targetH2 : BitVec 7) : Fin 16 → Bool :=
  fun lane => laneMatch controlBytes targetH2 lane

/-- The reduction `|lane_matches`. -/
def matchFound (controlBytes : BitVec 128) (targetH2 : BitVec 7) : Bool :=
  (List.finRange 16).any (laneMatches controlBytes targetH2)

/-- The `casez` priority encoder: the lowest matching lane, lane 0 by default. -/
def matchOffset (controlBytes : BitVec 128) (targetH2 : BitVec 7) : BitVec 4 :=
  match (List.finRange 16).find? (laneMatches controlBytes targetH2) with
  | some lane => BitVec.ofFin lane
  | none => 0

end SimdProbeCore

namespace KrapivinStepper

/-- The triangular number of the attempt, in 32-bit arithmetic. -/
def nonLinearOffset (currentAttempt : BitVec 8) : BitVec 32 :=
  (currentAttempt.setWidth 32 * currentAttempt.setWidth 32 + currentAttempt.setWidth 32) >>> 1

def nextBase (currentBase : BitVec 32) (currentAttempt : BitVec 8) (tableMask : BitVec 32) :
    BitVec 32 :=
  (currentBase + nonLinearOffset currentAttempt) &&& tableMask

end KrapivinStepper

end Atarix
