import Mathlib.Data.BitVec
import Mathlib.Data.List.Range
import Mathlib.Tactic.Common

/-! # Byte memories

A buffer is read through a pointer at its first byte, so its contents are a
function from offsets to bytes. Nothing is assumed about what lies beyond the
bytes a caller owns: a bound on the offsets a program uses is a theorem about
the program, not a partiality of the memory.
-/

/-- Bytes at offsets from a buffer's first byte. -/
abbrev Memory := Nat → BitVec 8

namespace Memory

/-- The memory that holds `bytes` and zeros behind them. -/
def ofList (bytes : List (BitVec 8)) : Memory := fun offset => bytes.getD offset 0

/-- The `length` bytes from `offset` on. -/
def slice (memory : Memory) (offset length : Nat) : List (BitVec 8) :=
  (List.range length).map fun index => memory (offset + index)

/-- The memory with `bytes` stored from `offset` on. -/
def write (memory : Memory) (offset : Nat) (bytes : List (BitVec 8)) : Memory :=
  fun index => if offset ≤ index then bytes[index - offset]?.getD (memory index) else memory index

/-- The memory with `length` bytes from `offset` on set to zero. -/
def zeroRange (memory : Memory) (offset length : Nat) : Memory :=
  fun index => if offset ≤ index ∧ index < offset + length then 0 else memory index

/-- The memory with `bytes` inserted at `offset`, and what lay there moved behind. -/
def insert (memory : Memory) (offset : Nat) (bytes : List (BitVec 8)) : Memory :=
  fun index =>
    if index < offset then memory index
    else bytes[index - offset]?.getD (memory (index - bytes.length))

/-! ## Slices -/

variable {memory : Memory} {offset length : Nat} {bytes : List (BitVec 8)}

@[simp] theorem length_slice (memory : Memory) (offset length : Nat) :
    (memory.slice offset length).length = length := by
  simp [slice]

theorem slice_congr {left right : Memory} {offset length : Nat}
    (heq : ∀ index < length, left (offset + index) = right (offset + index)) :
    left.slice offset length = right.slice offset length := by
  simp only [slice, List.map_inj_left, List.mem_range]
  exact heq

theorem slice_add (memory : Memory) (offset first second : Nat) :
    memory.slice offset (first + second) =
      memory.slice offset first ++ memory.slice (offset + first) second := by
  simp only [slice, List.range_add, List.map_append, List.map_map]
  congr 1
  apply List.map_congr_left
  intro index _
  simp [Nat.add_assoc]

/-- A slice that is two pieces one behind the other splits where they meet. -/
theorem slice_split {first second : List (BitVec 8)}
    (hslice : memory.slice offset length = first ++ second) :
    memory.slice offset first.length = first ∧
      memory.slice (offset + first.length) second.length = second := by
  have hlength : length = first.length + second.length := by
    simpa using congrArg List.length hslice
  rw [hlength, slice_add] at hslice
  exact List.append_inj hslice (by simp)

theorem slice_join {first second : List (BitVec 8)}
    (hfirst : memory.slice offset first.length = first)
    (hsecond : memory.slice (offset + first.length) second.length = second)
    (hlength : length = first.length + second.length) :
    memory.slice offset length = first ++ second := by
  rw [hlength, slice_add, hfirst, hsecond]

/-- A stretch of a slice is a slice. -/
theorem take_drop_slice {first count : Nat} (hinside : first + count ≤ length) :
    ((memory.slice offset length).drop first).take count = memory.slice (offset + first) count := by
  have hlength : length = first + (count + (length - (first + count))) := by omega
  rw [hlength, slice_add, slice_add, List.drop_left' (length_slice _ _ _),
    List.take_left' (length_slice _ _ _)]

/-! ## Contents -/

/-- The bytes from `offset` on are `bytes`. -/
def Holds (memory : Memory) (offset : Nat) (bytes : List (BitVec 8)) : Prop :=
  memory.slice offset bytes.length = bytes

theorem holds_append {first second : List (BitVec 8)} :
    memory.Holds offset (first ++ second) ↔
      memory.Holds offset first ∧ memory.Holds (offset + first.length) second := by
  constructor
  · intro hholds
    exact slice_split hholds
  · rintro ⟨hfirst, hsecond⟩
    exact slice_join hfirst hsecond List.length_append

/-- Byte by byte. -/
theorem holds_iff : memory.Holds offset bytes ↔
    ∀ index (hindex : index < bytes.length), memory (offset + index) = bytes[index] := by
  constructor
  · intro hholds index hindex
    rw [List.getElem_of_eq hholds.symm hindex]
    simp [slice]
  · intro hbytes
    apply List.ext_getElem
    · simp
    · intro index _ hindex
      simpa [slice] using hbytes index hindex

/-- Contents seen through the list that describes them. -/
theorem Holds.apply (hholds : memory.Holds offset bytes) {index : Nat}
    (hindex : index < bytes.length) : memory (offset + index) = ofList bytes index := by
  rw [holds_iff.mp hholds index hindex]
  simp [ofList, hindex]

theorem holds_singleton {byte : BitVec 8} : memory.Holds offset [byte] ↔ memory offset = byte := by
  simp [Holds, slice]

theorem holds_ofList (bytes : List (BitVec 8)) : (ofList bytes).Holds 0 bytes := by
  apply holds_iff.mpr
  intro index hindex
  simp [ofList, hindex]

/-- Lists with a stretch in common describe the same bytes there. -/
theorem ofList_congr {left right : List (BitVec 8)} {first count : Nat}
    (heq : (left.drop first).take count = (right.drop first).take count) {index : Nat}
    (hfirst : first ≤ index) (hlast : index < first + count) :
    ofList left index = ofList right index := by
  have hindex : first + (index - first) = index := Nat.add_sub_cancel' hfirst
  have hbyte := congrArg (·[index - first]?.getD 0) heq
  simpa [ofList, List.getElem?_take, List.getElem?_drop, hindex,
    Nat.sub_lt_left_of_lt_add hfirst hlast]
    using hbyte

theorem write_of_outside {index : Nat} (houtside : index < offset ∨ offset + bytes.length ≤ index) :
    memory.write offset bytes index = memory index := by
  unfold write
  split_ifs with hle
  · rw [List.getElem?_eq_none (by omega)]
    rfl
  · rfl

@[simp] theorem write_nil (memory : Memory) (offset : Nat) : memory.write offset [] = memory := by
  funext index
  exact write_of_outside (by simp; omega)

@[simp] theorem holds_write_same (memory : Memory) (offset : Nat) (bytes : List (BitVec 8)) :
    (memory.write offset bytes).Holds offset bytes := by
  apply holds_iff.mpr
  intro index hindex
  simp [write, hindex]

theorem holds_write_of_disjoint {first : Nat} {contents : List (BitVec 8)}
    (hdisjoint : first + contents.length ≤ offset ∨ offset + bytes.length ≤ first) :
    (memory.write offset bytes).Holds first contents ↔ memory.Holds first contents := by
  rw [Holds, slice_congr fun index hindex => write_of_outside (by omega), Holds]

theorem holds_zeroRange_of_disjoint {first : Nat} {contents : List (BitVec 8)}
    (hdisjoint : first + contents.length ≤ offset ∨ offset + length ≤ first) :
    (memory.zeroRange offset length).Holds first contents ↔ memory.Holds first contents := by
  rw [Holds, slice_congr fun index hindex => if_neg (by omega), Holds]

theorem holds_zeroRange_of_inside {first count : Nat} (hle : offset ≤ first)
    (hend : first + count ≤ offset + length) :
    (memory.zeroRange offset length).Holds first (List.replicate count 0) := by
  apply holds_iff.mpr
  intro index hindex
  rw [List.length_replicate] at hindex
  rw [List.getElem_replicate]
  exact if_pos (by omega)

/-- Two stores side by side are one. -/
theorem write_write_append (memory : Memory) (offset : Nat) (first second : List (BitVec 8)) :
    (memory.write offset first).write (offset + first.length) second =
      memory.write offset (first ++ second) := by
  funext index
  simp only [write, List.getElem?_append]
  split_ifs with hsecond hfirst hinside hinside
  · omega
  · rw [Nat.sub_sub, List.getElem?_eq_none (Nat.not_lt.mp hinside)]
    rfl
  · omega
  · rfl
  · rw [List.getElem?_eq_none (by omega), List.getElem?_eq_none (by omega)]
  · rfl

/-- Storing zeros clears. -/
theorem write_replicate_zero (memory : Memory) (offset length : Nat) :
    memory.write offset (List.replicate length 0) = memory.zeroRange offset length := by
  funext index
  simp only [write, zeroRange, List.getElem?_replicate]
  grind

/-- Clearing what is clear changes nothing. -/
theorem zeroRange_eq_self (hzero : memory.Holds offset (List.replicate length 0)) :
    memory.zeroRange offset length = memory := by
  funext index
  unfold zeroRange
  split_ifs with hinside
  · have hbyte := holds_iff.mp hzero (index - offset) (by rw [List.length_replicate]; omega)
    rw [Nat.add_sub_cancel' hinside.1, List.getElem_replicate] at hbyte
    exact hbyte.symm
  · rfl

/-- Clearing what was just written is clearing what was there before. -/
theorem zeroRange_write (memory : Memory) (offset : Nat) (bytes : List (BitVec 8)) :
    (memory.write offset bytes).zeroRange offset bytes.length =
      memory.zeroRange offset bytes.length := by
  funext index
  unfold zeroRange
  split_ifs with hinside
  · rfl
  · exact write_of_outside (by omega)

/-! ## Insertion -/

theorem insert_of_lt {index : Nat} (hlt : index < offset) :
    memory.insert offset bytes index = memory index :=
  if_pos hlt

@[simp] theorem holds_insert_same (memory : Memory) (offset : Nat) (bytes : List (BitVec 8)) :
    (memory.insert offset bytes).Holds offset bytes := by
  apply holds_iff.mpr
  intro index hindex
  simp [insert, hindex]

theorem insert_of_le {index : Nat} (hle : offset ≤ index) :
    memory.insert offset bytes (index + bytes.length) = memory index := by
  rw [insert, if_neg (by omega), List.getElem?_eq_none (by omega), Nat.add_sub_cancel]
  rfl

/-! ## Little-endian words -/

def load16 (memory : Memory) (offset : Nat) : BitVec 16 := memory (offset + 1) ++ memory offset

def load32 (memory : Memory) (offset : Nat) : BitVec 32 :=
  memory.load16 (offset + 2) ++ memory.load16 offset

def load64 (memory : Memory) (offset : Nat) : BitVec 64 :=
  memory.load32 (offset + 4) ++ memory.load32 offset

def le16 (value : BitVec 16) : List (BitVec 8) := [value.setWidth 8, (value >>> 8).setWidth 8]

def le32 (value : BitVec 32) : List (BitVec 8) :=
  le16 (value.setWidth 16) ++ le16 ((value >>> 16).setWidth 16)

def le64 (value : BitVec 64) : List (BitVec 8) :=
  le32 (value.setWidth 32) ++ le32 ((value >>> 32).setWidth 32)

@[simp] theorem length_le16 (value : BitVec 16) : (le16 value).length = 2 := rfl

@[simp] theorem length_le32 (value : BitVec 32) : (le32 value).length = 4 := rfl

@[simp] theorem length_le64 (value : BitVec 64) : (le64 value).length = 8 := rfl

/-- The low and the high half of a word give it back. -/
theorem append_halves (width : Nat) (value : BitVec (width + width)) :
    (value >>> width).setWidth width ++ value.setWidth width = value := by
  ext index hindex
  simp only [BitVec.getElem_append, BitVec.getElem_setWidth, BitVec.getLsbD_ushiftRight]
  split_ifs with hlow
  · rfl
  · rw [Nat.add_sub_cancel' (by omega)]
    rfl

theorem Holds.load16 {value : BitVec 16} (hholds : memory.Holds offset (le16 value)) :
    memory.load16 offset = value := by
  have hbytes := holds_iff.mp hholds
  rw [Memory.load16, show memory offset = _ from hbytes 0 (by simp), hbytes 1 (by simp)]
  exact append_halves 8 value

theorem Holds.load32 {value : BitVec 32} (hholds : memory.Holds offset (le32 value)) :
    memory.load32 offset = value := by
  obtain ⟨hlow, hhigh⟩ := holds_append.mp hholds
  rw [length_le16] at hhigh
  rw [Memory.load32, hlow.load16, hhigh.load16]
  exact append_halves 16 value

theorem Holds.load64 {value : BitVec 64} (hholds : memory.Holds offset (le64 value)) :
    memory.load64 offset = value := by
  obtain ⟨hlow, hhigh⟩ := holds_append.mp hholds
  rw [length_le32] at hhigh
  rw [Memory.load64, hlow.load32, hhigh.load32]
  exact append_halves 32 value

/-- The low half of a word made of two halves. -/
theorem setWidth_append_low {width : Nat} (high low : BitVec width) :
    (high ++ low).setWidth width = low := by
  ext index hindex
  rw [BitVec.getElem_setWidth, BitVec.getLsbD_append, if_pos hindex]
  exact BitVec.getLsbD_eq_getElem hindex

theorem setWidth_append_high {width : Nat} (high low : BitVec width) :
    ((high ++ low) >>> width).setWidth width = high := by
  ext index hindex
  rw [BitVec.getElem_setWidth, BitVec.getLsbD_ushiftRight, BitVec.getLsbD_append,
    if_neg (by omega), Nat.add_sub_cancel_left]
  exact BitVec.getLsbD_eq_getElem hindex

theorem holds_le16_iff {value : BitVec 16} :
    memory.Holds offset (le16 value) ↔ memory.load16 offset = value := by
  constructor
  · exact Holds.load16
  · rintro rfl
    have hlow : (memory.load16 offset).setWidth 8 = memory offset := setWidth_append_low _ _
    have hhigh : (memory.load16 offset >>> 8).setWidth 8 = memory (offset + 1) :=
      setWidth_append_high _ _
    rw [le16, hlow, hhigh]
    rfl

theorem holds_le32_iff {value : BitVec 32} :
    memory.Holds offset (le32 value) ↔ memory.load32 offset = value := by
  constructor
  · exact Holds.load32
  · rintro rfl
    have hlow : (memory.load32 offset).setWidth 16 = memory.load16 offset :=
      setWidth_append_low _ _
    have hhigh : (memory.load32 offset >>> 16).setWidth 16 = memory.load16 (offset + 2) :=
      setWidth_append_high _ _
    rw [le32, hlow, hhigh]
    exact holds_append.mpr ⟨holds_le16_iff.mpr rfl, holds_le16_iff.mpr rfl⟩

theorem holds_le64_iff {value : BitVec 64} :
    memory.Holds offset (le64 value) ↔ memory.load64 offset = value := by
  constructor
  · exact Holds.load64
  · rintro rfl
    have hlow : (memory.load64 offset).setWidth 32 = memory.load32 offset :=
      setWidth_append_low _ _
    have hhigh : (memory.load64 offset >>> 32).setWidth 32 = memory.load32 (offset + 4) :=
      setWidth_append_high _ _
    rw [le64, hlow, hhigh]
    exact holds_append.mpr ⟨holds_le32_iff.mpr rfl, holds_le32_iff.mpr rfl⟩

/-- Equal words are made of the same bytes. -/
theorem load32_inj {left right : Memory} {first second : Nat}
    (heq : left.load32 first = right.load32 second) :
    ∀ step < 4, left (first + step) = right (second + step) := by
  intro step hstep
  have hleft := holds_iff.mp (holds_le32_iff.mpr heq) step hstep
  have hright := holds_iff.mp (holds_le32_iff.mpr (rfl : right.load32 second = _)) step hstep
  rw [hleft, hright]

theorem load64_inj {left right : Memory} {first second : Nat}
    (heq : left.load64 first = right.load64 second) :
    ∀ step < 8, left (first + step) = right (second + step) := by
  intro step hstep
  have hleft := holds_iff.mp (holds_le64_iff.mpr heq) step hstep
  have hright := holds_iff.mp (holds_le64_iff.mpr (rfl : right.load64 second = _)) step hstep
  rw [hleft, hright]

/-- Two runs of bytes that agree and go on alike agree as a whole. -/
theorem bytes_append {left right : Memory} {first second length more : Nat}
    (hlow : ∀ step < length, left (first + step) = right (second + step))
    (hhigh : ∀ step < more, left (first + length + step) = right (second + length + step)) :
    ∀ step < length + more, left (first + step) = right (second + step) := by
  intro step hstep
  by_cases hlt : step < length
  · exact hlow step hlt
  · have hrest := hhigh (step - length) (by omega)
    rwa [Nat.add_assoc, Nat.add_assoc, Nat.add_sub_cancel' (Nat.not_lt.mp hlt)] at hrest

/-- Words made of the same bytes are equal. -/
theorem load32_congr {left right : Memory} {first second : Nat}
    (heq : ∀ step < 4, left (first + step) = right (second + step)) :
    left.load32 first = right.load32 second := by
  simp only [Memory.load32, Memory.load16, Nat.add_assoc]
  exact congrArg₂ _ (congrArg₂ _ (heq 3 (by omega)) (heq 2 (by omega)))
    (congrArg₂ _ (heq 1 (by omega)) (heq 0 (by omega)))

theorem load64_congr {left right : Memory} {first second : Nat}
    (heq : ∀ step < 8, left (first + step) = right (second + step)) :
    left.load64 first = right.load64 second := by
  have hhigh : left.load32 (first + 4) = right.load32 (second + 4) :=
    load32_congr fun step hstep => by simpa only [Nat.add_assoc] using heq (4 + step) (by omega)
  have hlow : left.load32 first = right.load32 second :=
    load32_congr fun step hstep => heq step (by omega)
  rw [Memory.load64, Memory.load64, hhigh, hlow]

theorem load16_congr {left right : Memory} {first second : Nat}
    (heq : ∀ step < 2, left (first + step) = right (second + step)) :
    left.load16 first = right.load16 second :=
  congrArg₂ (· ++ ·) (heq 1 (by omega)) (heq 0 (by omega))

theorem Holds.load16_inside (hholds : memory.Holds offset bytes) {index : Nat}
    (hindex : index + 2 ≤ bytes.length) :
    memory.load16 (offset + index) = (ofList bytes).load16 index := by
  apply load16_congr
  intro step hstep
  rw [Nat.add_assoc]
  exact hholds.apply (by omega)

theorem Holds.load32_inside (hholds : memory.Holds offset bytes) {index : Nat}
    (hindex : index + 4 ≤ bytes.length) :
    memory.load32 (offset + index) = (ofList bytes).load32 index := by
  apply load32_congr
  intro step hstep
  rw [Nat.add_assoc]
  exact hholds.apply (by omega)

/-- A word inside described contents is the word of the description. -/
theorem Holds.load64_inside (hholds : memory.Holds offset bytes) {index : Nat}
    (hindex : index + 8 ≤ bytes.length) :
    memory.load64 (offset + index) = (ofList bytes).load64 index := by
  apply load64_congr
  intro step hstep
  rw [Nat.add_assoc]
  exact hholds.apply (by omega)

end Memory
