import Atarix.Foundation.Memory

/-! # Reflected cyclic redundancy checks, one bit at a time

The register takes in a byte by exclusive or and then makes eight bit steps. The
bit step is a parameter: programs write the same step in different ways.
-/

namespace Crc

/-- `count` bit steps of the register. -/
def steps (bitStep : BitVec 32 → BitVec 32) : Nat → BitVec 32 → BitVec 32
  | 0, crc => crc
  | count + 1, crc => steps bitStep count (bitStep crc)

/-- The register after taking in one byte. -/
def takeByte (bitStep : BitVec 32 → BitVec 32) (crc : BitVec 32) (byte : BitVec 8) : BitVec 32 :=
  steps bitStep 8 (crc ^^^ byte.setWidth 32)

/-- The register after taking in the first `length` bytes of `data`. -/
def update (bitStep : BitVec 32 → BitVec 32) (crc : BitVec 32) (data : Memory) : Nat → BitVec 32
  | 0 => crc
  | length + 1 => takeByte bitStep (update bitStep crc data length) (data length)

/-- Only the bytes below `length` matter. -/
theorem update_congr (bitStep : BitVec 32 → BitVec 32) (crc : BitVec 32) {left right : Memory}
    {length : Nat} (heq : ∀ index < length, left index = right index) :
    update bitStep crc left length = update bitStep crc right length := by
  induction length with
  | zero => rfl
  | succ length ih =>
      rw [update, update, ih fun index hindex => heq index (by omega), heq length (by omega)]

end Crc
