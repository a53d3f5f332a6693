import Atarix.Foundation.Clocked
import Atarix.Foundation.Memory
import Atarix.Foundation.RingBuffer

/-! # The audit log window

`atx_audit_log_window`: a circular byte buffer of `BUFFER_DEPTH` cells behind an
`ADDR_WIDTH`-bit head pointer. Reset clears the pointer and the wrap flag and
leaves the cells alone.
-/

namespace Atarix

namespace AuditLogWindow

structure Inputs where
  rstN : Bool
  writeData : BitVec 8
  writeEn : Bool
deriving DecidableEq, Repr

structure Registers (addrWidth : Nat) where
  storageMatrix : Memory
  headPointer : BitVec addrWidth
  wrapped : Bool

variable (bufferDepth addrWidth : Nat)

/-- `LAST_ADDR_INT[ADDR_WIDTH-1:0]`. -/
def lastAddr : BitVec addrWidth := BitVec.ofNat addrWidth (bufferDepth - 1)

def edge (input : Inputs) (regs : Registers addrWidth) : Registers addrWidth :=
  if ¬ input.rstN then { regs with headPointer := 0, wrapped := false }
  else if input.writeEn then
    let storageMatrix := Function.update regs.storageMatrix regs.headPointer.toNat input.writeData
    if regs.headPointer = lastAddr bufferDepth addrWidth then
      { storageMatrix, headPointer := 0, wrapped := true }
    else { regs with storageMatrix, headPointer := regs.headPointer + 1 }
  else regs

/-- The window after reset, over cells that power up with any contents. -/
def machine (storage : Memory) : Clocked Inputs (Registers addrWidth) :=
  ⟨⟨storage, 0, false⟩, edge bufferDepth addrWidth⟩

/-- `read_data` at `read_addr`. -/
def readData {addrWidth : Nat} (regs : Registers addrWidth) (readAddr : BitVec addrWidth) :
    BitVec 8 :=
  regs.storageMatrix readAddr.toNat

/-- A byte is stored at this edge. -/
def Writes (input : Inputs) : Prop := input.rstN ∧ input.writeEn

instance (input : Inputs) : Decidable (Writes input) := inferInstanceAs (Decidable (_ ∧ _))

variable {bufferDepth addrWidth}

theorem edge_of_not_writes {input : Inputs} (hrst : input.rstN) (hquiet : ¬ Writes input)
    (regs : Registers addrWidth) : edge bufferDepth addrWidth input regs = regs := by
  have hlow : ¬ input.writeEn := fun hwrite => hquiet ⟨hrst, hwrite⟩
  simp [edge, hrst, hlow]

theorem lastAddr_toNat (hpos : 0 < bufferDepth) (hdepth : bufferDepth ≤ 2 ^ addrWidth) :
    (lastAddr bufferDepth addrWidth).toNat = bufferDepth - 1 := by
  rw [lastAddr, BitVec.toNat_ofNat, Nat.mod_eq_of_lt (by omega)]

/-- The head pointer moves by one cell, around the buffer. -/
theorem edge_headPointer_of_writes {input : Inputs} (hwrites : Writes input)
    (hpos : 0 < bufferDepth) (hdepth : bufferDepth ≤ 2 ^ addrWidth) {regs : Registers addrWidth}
    (hhead : regs.headPointer.toNat < bufferDepth) :
    (edge bufferDepth addrWidth input regs).headPointer.toNat =
      (regs.headPointer.toNat + 1) % bufferDepth := by
  have hlast := lastAddr_toNat hpos hdepth
  simp only [edge, hwrites.1, hwrites.2, not_true, if_false, if_true]
  split_ifs with hend
  · have hfull : regs.headPointer.toNat + 1 = bufferDepth := by
      rw [hend, hlast]
      omega
    rw [hfull, Nat.mod_self]
    exact BitVec.toNat_zero
  · have hroom : regs.headPointer.toNat ≠ bufferDepth - 1 := by
      rw [← hlast]
      exact fun heq => hend (BitVec.eq_of_toNat_eq heq)
    have hsucc : regs.headPointer.toNat + 1 < 2 ^ addrWidth := by omega
    rw [Nat.mod_eq_of_lt (by omega)]
    change (regs.headPointer + 1).toNat = _
    rw [BitVec.toNat_add, BitVec.ofNat_eq_ofNat, BitVec.toNat_ofNat, Nat.add_mod_mod]
    exact Nat.mod_eq_of_lt hsucc

/-! ## The bytes in the window -/

/-- The bytes stored before edge `t`, in the order of their edges. -/
def writtenBytes (inputs : Nat → Inputs) : Nat → List (BitVec 8)
  | 0 => []
  | t + 1 =>
    if Writes (inputs t) then writtenBytes inputs t ++ [(inputs t).writeData]
    else writtenBytes inputs t

/-- The window is a ring buffer of `bytes`. -/
structure RingOf (bufferDepth : Nat) {addrWidth : Nat} (bytes : List (BitVec 8))
    (regs : Registers addrWidth) : Prop where
  headPointer : regs.headPointer.toNat = bytes.length % bufferDepth
  wrapped : regs.wrapped ↔ bufferDepth ≤ bytes.length
  stored : ∀ k (hk : k < bytes.length), bytes.length ≤ k + bufferDepth →
    readData regs (BitVec.ofNat addrWidth (k % bufferDepth)) = bytes[k]

/-- What a write does to the cells and to the wrap flag. -/
theorem edge_of_writes {input : Inputs} (hwrites : Writes input) (regs : Registers addrWidth) :
    (edge bufferDepth addrWidth input regs).storageMatrix =
        Function.update regs.storageMatrix regs.headPointer.toNat input.writeData ∧
      ((edge bufferDepth addrWidth input regs).wrapped ↔
        regs.wrapped ∨ regs.headPointer = lastAddr bufferDepth addrWidth) := by
  simp only [edge, hwrites.1, hwrites.2, not_true, if_false, if_true]
  split_ifs with hend <;> simp [hend]

/-- A window whose cells are those of the ring reads as the ring. -/
theorem readData_eq (hpos : 0 < bufferDepth) (hdepth : bufferDepth ≤ 2 ^ addrWidth)
    (regs : Registers addrWidth) (k : Nat) :
    readData regs (BitVec.ofNat addrWidth (k % bufferDepth)) =
      regs.storageMatrix (k % bufferDepth) := by
  have hlt := Nat.mod_lt k hpos
  rw [readData, BitVec.toNat_ofNat, Nat.mod_eq_of_lt (by omega)]

/-- An edge out of reset keeps the ring. -/
theorem ringOf_edge {input : Inputs} {regs : Registers addrWidth} {bytes : List (BitVec 8)}
    (hpos : 0 < bufferDepth) (hdepth : bufferDepth ≤ 2 ^ addrWidth) (hrst : input.rstN)
    (hring : RingOf bufferDepth bytes regs) :
    RingOf bufferDepth (if Writes input then bytes ++ [input.writeData] else bytes)
      (edge bufferDepth addrWidth input regs) := by
  by_cases hwrites : Writes input
  · obtain ⟨hhead, hwrapped, hstored⟩ := hring
    obtain ⟨hcells, hwrap⟩ := @edge_of_writes bufferDepth addrWidth input hwrites regs
    have hholds : RingBuffer.Holds bufferDepth regs.storageMatrix bytes := by
      intro k hk hrecent
      rw [← readData_eq hpos hdepth]
      exact hstored k hk hrecent
    have hlast : regs.headPointer = lastAddr bufferDepth addrWidth ↔
        bytes.length % bufferDepth = bufferDepth - 1 := by
      rw [← BitVec.toNat_inj, lastAddr_toNat hpos hdepth, hhead]
    rw [if_pos hwrites]
    refine ⟨?_, ?_, fun k hk hrecent => ?_⟩
    · rw [edge_headPointer_of_writes hwrites hpos hdepth (hhead ▸ Nat.mod_lt _ hpos), hhead,
        Nat.mod_add_mod, List.length_append, List.length_singleton]
    · rw [hwrap, hwrapped, hlast, List.length_append, List.length_singleton,
        RingBuffer.le_succ_iff hpos]
    · rw [readData_eq hpos hdepth, hcells, hhead]
      exact hholds.push input.writeData k hk hrecent
  · rw [if_neg hwrites, edge_of_not_writes hrst hwrites]
    exact hring

/-- Out of reset the window is a ring buffer of the bytes written. -/
theorem ringOf_writtenBytes (storage : Memory) (inputs : Nat → Inputs) (hpos : 0 < bufferDepth)
    (hdepth : bufferDepth ≤ 2 ^ addrWidth) {t : Nat} (hrst : ∀ k < t, (inputs k).rstN) :
    RingOf bufferDepth (writtenBytes inputs t)
      ((machine bufferDepth addrWidth storage).regs inputs t) := by
  induction t with
  | zero =>
      refine ⟨?_, ?_, fun k hk => absurd hk (Nat.not_lt_zero k)⟩
      · simp [Clocked.regs_zero, machine, writtenBytes]
      · exact iff_of_false Bool.false_ne_true (Nat.not_le.mpr hpos)
  | succ t ih =>
      rw [Clocked.regs_succ]
      exact ringOf_edge hpos hdepth (hrst t (Nat.lt_succ_self t)) (ih fun k hk => hrst k (by omega))

theorem length_writtenBytes (inputs : Nat → Inputs) (t : Nat) :
    (writtenBytes inputs t).length = Nat.count (fun k => Writes (inputs k)) t := by
  induction t with
  | zero => exact (Nat.count_zero _).symm
  | succ t ih =>
      rw [writtenBytes, Nat.count_succ, ← ih]
      split_ifs with hwrites
      · exact List.length_append
      · rfl

/-- Out of reset the head pointer counts the bytes written, around the buffer. -/
theorem headPointer_eq_count (storage : Memory) (inputs : Nat → Inputs)
    (hrst : ∀ t, (inputs t).rstN) (hpos : 0 < bufferDepth) (hdepth : bufferDepth ≤ 2 ^ addrWidth)
    (t : Nat) :
    ((machine bufferDepth addrWidth storage).regs inputs t).headPointer.toNat =
      Nat.count (fun k => Writes (inputs k)) t % bufferDepth := by
  rw [← length_writtenBytes]
  exact (ringOf_writtenBytes storage inputs hpos hdepth fun k _ => hrst k).headPointer

end AuditLogWindow

end Atarix
