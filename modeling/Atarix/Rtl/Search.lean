import Atarix.Rtl.Accelerator
import Mathlib.Tactic.IntervalCases
import Mathlib.Tactic.Ring

/-! # The reference search

What a lookup is for, without clock or registers: the windows of a table at
triangular distances from a base, searched in order up to a limit. The
combinational modules are related to it here, the clocked process in its runs.
-/

namespace Atarix

namespace Accelerator

/-- A table as the probe port shows it: each address with its sixteen control
bytes and its lookup-valid bit. -/
structure Table where
  controlBytes : BitVec 32 → BitVec 128
  lookupValid : BitVec 32 → Bool

/-- The address of window `k`, in 32-bit arithmetic. -/
def windowAddr (base : BitVec 32) : Nat → BitVec 32
  | 0 => base
  | k + 1 => windowAddr base k + BitVec.ofNat 32 ((k + 1) * (k + 2) / 2)

/-- A lane holds a key: occupied, with the low seven bits of the key hash. -/
def laneHolds (window : BitVec 128) (keyHash : BitVec 32) (lane : Fin 16) : Bool :=
  window.extractLsb' (lane * 8) 8 == 0x80#8 ||| (keyHash.setWidth 7).setWidth 8

def lowestLane (window : BitVec 128) (keyHash : BitVec 32) : Option (Fin 16) :=
  (List.finRange 16).find? (laneHolds window keyHash)

/-- What a lookup answers, with the number of windows it compared. -/
structure LookupResult where
  status : BitVec 8
  resolvedId : BitVec 32
  resolvedGeneration : BitVec 32
  matchOffset : BitVec 4
  windows : Nat
deriving DecidableEq, Repr

section Search

variable (table : Table) (generation base keyHash : BitVec 32)

/-- What window `k` decides: a failed lookup before any lane, then the lowest
lane that holds the key. -/
def windowVerdict (k : Nat) : Option LookupResult :=
  if ¬ table.lookupValid (windowAddr base k) then some ⟨statusTimeout, 0xFFFFFFFF, 0, 0, k⟩
  else (lowestLane (table.controlBytes (windowAddr base k)) keyHash).map fun (lane : Fin 16) =>
    ⟨statusOk, windowAddr base k + BitVec.ofNat 32 lane, generation, BitVec.ofFin lane, k + 1⟩

/-- The first window that decides does; without one the limit ends the search. -/
def search (probeLimit : BitVec 8) : LookupResult :=
  ((List.range (probeLimit.toNat + 1)).findSome?
    (windowVerdict table generation base keyHash)).getD
      ⟨statusSequenceError, 0xFFFFFFFF, 0, 0, probeLimit.toNat + 1⟩

end Search

variable {table : Table} {generation base keyHash : BitVec 32}

/-! ## The search, from its windows -/

theorem findSome_range {α : Type} {f : Nat → Option α} {count k : Nat} {result : α}
    (hclear : ∀ j < k, f j = none) (hlt : k < count) (hfound : f k = some result) :
    (List.range count).findSome? f = some result := by
  induction count with
  | zero => exact absurd hlt (Nat.not_lt_zero k)
  | succ count ih =>
      rw [List.range_succ, List.findSome?_append]
      rcases Nat.lt_succ_iff_lt_or_eq.mp hlt with hbefore | rfl
      · rw [ih hbefore]
        rfl
      · have hnone : (List.range k).findSome? f = none := by
          simpa [List.findSome?_eq_none_iff] using hclear
        rw [hnone]
        simp [hfound]

theorem search_of_verdict {probeLimit : BitVec 8} {k : Nat} {result : LookupResult}
    (hclear : ∀ j < k, windowVerdict table generation base keyHash j = none)
    (hwithin : k ≤ probeLimit.toNat)
    (hverdict : windowVerdict table generation base keyHash k = some result) :
    search table generation base keyHash probeLimit = result := by
  rw [search, findSome_range hclear (Nat.lt_succ_of_le hwithin) hverdict]
  rfl

theorem search_of_clear {probeLimit : BitVec 8}
    (hclear : ∀ j ≤ probeLimit.toNat, windowVerdict table generation base keyHash j = none) :
    search table generation base keyHash probeLimit =
      ⟨statusSequenceError, 0xFFFFFFFF, 0, 0, probeLimit.toNat + 1⟩ := by
  have hnone : (List.range (probeLimit.toNat + 1)).findSome?
      (windowVerdict table generation base keyHash) = none := by
    rw [List.findSome?_eq_none_iff]
    intro j hj
    exact hclear j (Nat.le_of_lt_succ (List.mem_range.mp hj))
  rw [search, hnone]
  rfl

/-! ## The comparator and the stepper -/

/-- A control byte with its top bit apart. -/
theorem occupied_iff (byte : BitVec 8) (fingerprint : BitVec 7) :
    (byte.getLsbD 7 = true ∧ byte.setWidth 7 = fingerprint) ↔
      byte = 0x80#8 ||| fingerprint.setWidth 8 := by
  constructor
  · rintro ⟨htop, rfl⟩
    ext i hi
    interval_cases i <;> simp_all [BitVec.getElem_setWidth]
  · rintro rfl
    refine ⟨by simp, ?_⟩
    ext i hi
    interval_cases i <;> simp

theorem laneMatch_eq_laneHolds (window : BitVec 128) (keyHash : BitVec 32) :
    SimdProbeCore.laneMatches window (keyHash.setWidth 7) = laneHolds window keyHash := by
  funext lane
  have hbyte := occupied_iff (window.extractLsb' (lane * 8) 8) (keyHash.setWidth 7)
  have htop : (window.extractLsb' (lane * 8) 8).getLsbD 7 = window.getLsbD (lane * 8 + 7) := by
    simp
  rw [htop, BitVec.setWidth_extractLsb'_of_le (by omega)] at hbyte
  rw [Bool.eq_iff_iff]
  simpa [SimdProbeCore.laneMatches, SimdProbeCore.laneMatch, laneHolds] using hbyte

theorem matchFound_eq (window : BitVec 128) (keyHash : BitVec 32) :
    SimdProbeCore.matchFound window (keyHash.setWidth 7) = (lowestLane window keyHash).isSome := by
  rw [SimdProbeCore.matchFound, laneMatch_eq_laneHolds, lowestLane, Bool.eq_iff_iff,
    List.any_eq_true,
    List.find?_isSome]

theorem matchOffset_eq {window : BitVec 128} {keyHash : BitVec 32} {lane : Fin 16}
    (hlane : lowestLane window keyHash = some lane) :
    SimdProbeCore.matchOffset window (keyHash.setWidth 7) = BitVec.ofFin (w := 4) lane := by
  rw [SimdProbeCore.matchOffset, laneMatch_eq_laneHolds]
  change (List.finRange 16).find? (laneHolds window keyHash) = some lane at hlane
  rw [hlane]

/-- The offset of an attempt is its triangular number, without overflow. -/
theorem nonLinearOffset_eq {k : Nat} {attempt : BitVec 8} (hattempt : attempt.toNat = k + 1) :
    KrapivinStepper.nonLinearOffset attempt = BitVec.ofNat 32 ((k + 1) * (k + 2) / 2) := by
  have hsmall : k + 1 < 2 ^ 8 := hattempt ▸ attempt.isLt
  have hsquare : (k + 1) * (k + 1) ≤ 255 * 255 := Nat.mul_le_mul (by omega) (by omega)
  have hwide : (attempt.setWidth 32).toNat = k + 1 := by
    rw [BitVec.toNat_setWidth, hattempt]
    omega
  apply BitVec.eq_of_toNat_eq
  have hsum : (k + 1) * (k + 2) = (k + 1) * (k + 1) + (k + 1) := by ring
  simp only [KrapivinStepper.nonLinearOffset, BitVec.toNat_ushiftRight, BitVec.toNat_add,
    BitVec.toNat_mul, hwide, BitVec.toNat_ofNat, Nat.shiftRight_one, hsum]
  rw [Nat.mod_eq_of_lt (show (k + 1) * (k + 1) < 2 ^ 32 by omega),
    Nat.mod_eq_of_lt (show (k + 1) * (k + 1) + (k + 1) < 2 ^ 32 by omega),
    Nat.mod_eq_of_lt (show ((k + 1) * (k + 1) + (k + 1)) / 2 < 2 ^ 32 by omega)]

/-- The stepper moves on by the triangular number of the attempt. -/
theorem nextBase_eq {base : BitVec 32} {k : Nat} {attempt : BitVec 8}
    (hattempt : attempt.toNat = k + 1) :
    KrapivinStepper.nextBase (windowAddr base k) attempt 0xFFFFFFFF = windowAddr base (k + 1) := by
  rw [KrapivinStepper.nextBase, nonLinearOffset_eq hattempt, windowAddr]
  exact BitVec.and_allOnes

end Accelerator

end Atarix
