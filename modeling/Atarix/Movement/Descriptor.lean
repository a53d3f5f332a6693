import Atarix.Foundation.Flags

/-! # Movement descriptors

`memory.c`: a descriptor asks for the movement of some bytes of one object to
another. Validation looks at what can be judged without the objects: the form of
the movement, the length and that all parties are named.
-/

namespace Atarix

open FlagWord

/-- `atarix_memory_status_t`. -/
inductive MemoryStatus where
  | ok
  | nullDescriptor
  | badMagic
  | badVersion
  | zeroLength
  | missingCapability
  | missingSource
  | missingDestination
  | badFlags
  | lengthExceeded
deriving DecidableEq, Repr

/-- `atarix_memory_move_flags_t`. -/
inductive MemoryMove where
  | copy
  | move
  | map
  | share
  | fabric
  | zeroCopy
deriving DecidableEq, Repr

namespace MemoryMove

/-- The value of an enumerator. -/
def value : MemoryMove → BitVec 32
  | copy => 0x00000001
  | move => 0x00000002
  | map => 0x00000004
  | share => 0x00000008
  | fabric => 0x00000010
  | zeroCopy => 0x00000020

end MemoryMove

def memoryMoveFormMask : BitVec 32 :=
  MemoryMove.copy.value ||| MemoryMove.move.value ||| MemoryMove.map.value |||
    MemoryMove.share.value ||| MemoryMove.fabric.value ||| MemoryMove.zeroCopy.value

def memoryDescriptorMagicV1 : BitVec 32 := 0x584D454D
def memoryDescriptorVersionV1 : BitVec 16 := 1
def memoryDescriptorMaxLengthV1 : BitVec 32 := 0x00100000

/-- `atarix_memory_descriptor_v1_t`. -/
structure MemoryDescriptor where
  magic : BitVec 32
  version : BitVec 16
  reserved : BitVec 16
  flags : BitVec 32
  sourceObject : BitVec 32
  sourceOffset : BitVec 32
  destinationObject : BitVec 32
  destinationOffset : BitVec 32
  length : BitVec 32
  capabilityId : BitVec 32
  generation : BitVec 32
  auditHint : BitVec 32
deriving DecidableEq, Repr

def memoryExactlyOneMoveForm (flags : BitVec 32) : Bool :=
  let forms := flags &&& memoryMoveFormMask
  forms ≠ 0 ∧ forms &&& (forms - 1) = 0 ∧ flags &&& ~~~memoryMoveFormMask = 0

/-- `none` is the NULL descriptor. -/
def memoryDescriptorValidate (descriptor : Option MemoryDescriptor) : MemoryStatus :=
  match descriptor with
  | none => .nullDescriptor
  | some descriptor =>
    if descriptor.magic ≠ memoryDescriptorMagicV1 then .badMagic
    else if descriptor.version ≠ memoryDescriptorVersionV1 then .badVersion
    else if descriptor.length = 0 then .zeroLength
    else if descriptor.length > memoryDescriptorMaxLengthV1 then .lengthExceeded
    else if descriptor.capabilityId = 0 then .missingCapability
    else if descriptor.sourceObject = 0 then .missingSource
    else if descriptor.destinationObject = 0 then .missingDestination
    else if ¬ memoryExactlyOneMoveForm descriptor.flags then .badFlags
    else .ok

/-! ## The form of a movement -/

/-- Exactly one of the six forms is set, and no other flag. -/
def OneMoveForm (flags : BitVec 32) : Prop :=
  (∃! form : MemoryMove, Has flags form.value) ∧ Subset flags memoryMoveFormMask

namespace MemoryMove

/-- The bit of a form. -/
def place : MemoryMove → Nat
  | copy => 0
  | move => 1
  | map => 2
  | share => 3
  | fabric => 4
  | zeroCopy => 5

theorem value_eq_twoPow (form : MemoryMove) : form.value = BitVec.twoPow 32 form.place := by
  cases form <;> decide

/-- Two forms share a bit only if they are one. -/
theorem has_value_iff (form other : MemoryMove) : Has form.value other.value ↔ other = form := by
  cases form <;> cases other <;> decide

/-- The mask is made of the forms. -/
theorem exists_place_iff {bit : Nat} (hbit : bit < 32) :
    memoryMoveFormMask.getLsbD bit = true ↔ ∃ form : MemoryMove, form.place = bit := by
  constructor
  · intro hmask
    have hsix : ∀ bit < 32, memoryMoveFormMask.getLsbD bit = true → bit < 6 := by decide
    have hlt := hsix bit hbit hmask
    match bit, hlt with
    | 0, _ => exact ⟨copy, rfl⟩
    | 1, _ => exact ⟨move, rfl⟩
    | 2, _ => exact ⟨map, rfl⟩
    | 3, _ => exact ⟨share, rfl⟩
    | 4, _ => exact ⟨fabric, rfl⟩
    | 5, _ => exact ⟨zeroCopy, rfl⟩
  · rintro ⟨form, rfl⟩
    cases form <;> decide

end MemoryMove

theorem oneMoveForm_value (form : MemoryMove) : OneMoveForm form.value := by
  refine ⟨⟨form, (form.has_value_iff form).mpr rfl, fun other hother => ?_⟩, ?_⟩
  · exact (form.has_value_iff other).mp hother
  · cases form <;> decide

/-- A flag of a word inside the mask is the flag of a form. -/
theorem exists_form_of_bit {flags : BitVec 32} (hsubset : Subset flags memoryMoveFormMask)
    {bit : Nat} (hset : flags.getLsbD bit = true) : ∃ form : MemoryMove, form.place = bit := by
  rw [← MemoryMove.exists_place_iff (BitVec.lt_of_getLsbD hset), ← has_twoPow_iff]
  exact Has.mono hsubset ((has_twoPow_iff flags bit).mpr hset)

/-- One form and nothing else is the value of that form. -/
theorem OneMoveForm.exists_eq {flags : BitVec 32} (hone : OneMoveForm flags) :
    ∃ form : MemoryMove, flags = form.value := by
  obtain ⟨⟨form, hform, hunique⟩, hsubset⟩ := hone
  refine ⟨form, BitVec.eq_of_getLsbD_eq fun bit hbit => Bool.eq_iff_iff.mpr ?_⟩
  rw [form.value_eq_twoPow] at hform ⊢
  rw [← has_twoPow_iff flags bit, ← has_twoPow_iff _ bit]
  constructor
  · intro hset
    obtain ⟨other, rfl⟩ := exists_form_of_bit hsubset ((has_twoPow_iff flags _).mp hset)
    rw [← other.value_eq_twoPow] at hset
    rw [hunique other hset, ← form.value_eq_twoPow, form.has_value_iff]
  · intro hself
    rw [has_twoPow_iff, BitVec.getLsbD_twoPow, Bool.and_eq_true, decide_eq_true_iff,
      decide_eq_true_iff] at hself
    exact hself.2 ▸ hform

/-- The bit trick of the source. -/
theorem memoryExactlyOneMoveForm_iff (flags : BitVec 32) :
    memoryExactlyOneMoveForm flags ↔ OneMoveForm flags := by
  rw [memoryExactlyOneMoveForm, decide_eq_true_iff, ← and_assoc, exists_eq_twoPow_iff]
  constructor
  · rintro ⟨⟨bit, hbit, hforms⟩, hsubset⟩
    rw [Subset.and_eq hsubset] at hforms
    have hset : flags.getLsbD bit = true := by
      rw [hforms, BitVec.getLsbD_twoPow, decide_eq_true hbit, decide_eq_true rfl, Bool.and_true]
    obtain ⟨form, rfl⟩ := exists_form_of_bit hsubset hset
    rw [hforms, ← form.value_eq_twoPow]
    exact oneMoveForm_value form
  · intro hone
    obtain ⟨form, rfl⟩ := hone.exists_eq
    refine ⟨⟨form.place, ?_, ?_⟩, hone.2⟩
    · cases form <;> decide
    · rw [Subset.and_eq hone.2, form.value_eq_twoPow]

/-! ## What validation accepts -/

namespace MemoryDescriptor

/-- What validation looks at is as the format asks. -/
structure WellFormed (descriptor : MemoryDescriptor) : Prop where
  magic : descriptor.magic = memoryDescriptorMagicV1
  version : descriptor.version = memoryDescriptorVersionV1
  form : OneMoveForm descriptor.flags
  length_pos : 0 < descriptor.length.toNat
  length_le : descriptor.length.toNat ≤ 0x00100000
  source : descriptor.sourceObject ≠ 0
  destination : descriptor.destinationObject ≠ 0
  capability : descriptor.capabilityId ≠ 0

/-- Both byte ranges end less than the largest length behind the offset space. -/
structure RangesBounded (descriptor : MemoryDescriptor) : Prop where
  source : descriptor.sourceOffset.toNat + descriptor.length.toNat < 2 ^ 32 + 0x00100000
  destination : descriptor.destinationOffset.toNat + descriptor.length.toNat < 2 ^ 32 + 0x00100000

/-- Both byte ranges lie in the offset space. -/
structure RangesInside (descriptor : MemoryDescriptor) : Prop where
  source : descriptor.sourceOffset.toNat + descriptor.length.toNat ≤ 2 ^ 32
  destination : descriptor.destinationOffset.toNat + descriptor.length.toNat ≤ 2 ^ 32

end MemoryDescriptor

theorem memoryDescriptorValidate_ok_iff (descriptor : MemoryDescriptor) :
    memoryDescriptorValidate (some descriptor) = .ok ↔ descriptor.WellFormed := by
  have hpos : descriptor.length ≠ 0 ↔ 0 < descriptor.length.toNat := by
    rw [Nat.pos_iff_ne_zero, ne_eq, ne_eq, ← BitVec.toNat_inj]
    rfl
  have hle : ¬ descriptor.length > memoryDescriptorMaxLengthV1 ↔
      descriptor.length.toNat ≤ 0x00100000 := by
    rw [gt_iff_lt, BitVec.not_lt, BitVec.le_def]
    rfl
  have hform := memoryExactlyOneMoveForm_iff descriptor.flags
  constructor
  · intro hok
    simp only [memoryDescriptorValidate] at hok
    split_ifs at hok with hmagic hversion hzero hlong hcapability hsource hdestination hflags
    exact ⟨not_not.mp hmagic, not_not.mp hversion, hform.mp hflags, hpos.mp hzero, hle.mp hlong,
      hsource, hdestination, hcapability⟩
  · intro hwell
    simp only [memoryDescriptorValidate, if_neg (not_not.mpr hwell.magic),
      if_neg (not_not.mpr hwell.version), if_neg (hpos.mpr hwell.length_pos),
      if_neg (hle.mpr hwell.length_le), if_neg hwell.capability, if_neg hwell.source,
      if_neg hwell.destination, if_neg (not_not.mpr (hform.mpr hwell.form))]

theorem MemoryDescriptor.WellFormed.rangesBounded {descriptor : MemoryDescriptor}
    (hwell : descriptor.WellFormed) : descriptor.RangesBounded := by
  have hle := hwell.length_le
  constructor
  · have hoffset := descriptor.sourceOffset.isLt
    omega
  · have hoffset := descriptor.destinationOffset.isLt
    omega

/-- Validation accepts exactly the well-formed descriptors, whatever their offsets
are: the ranges it lets through may leave the offset space by less than the largest
length. -/
theorem accepted_iff_wellFormed (descriptor : MemoryDescriptor)
    (sourceOffset destinationOffset : BitVec 32) :
    (memoryDescriptorValidate (some descriptor) = .ok ↔
        descriptor.WellFormed ∧ descriptor.RangesBounded) ∧
      memoryDescriptorValidate (some { descriptor with sourceOffset, destinationOffset }) =
        memoryDescriptorValidate (some descriptor) := by
  refine ⟨?_, rfl⟩
  rw [memoryDescriptorValidate_ok_iff]
  exact ⟨fun hwell => ⟨hwell, hwell.rangesBounded⟩, And.left⟩

/-- A copy of two bytes from the last byte of the source's offset space. -/
def wrappingDescriptor : MemoryDescriptor :=
  { magic := memoryDescriptorMagicV1, version := memoryDescriptorVersionV1, reserved := 0
    flags := MemoryMove.copy.value, sourceObject := 0x1001, sourceOffset := 0xFFFFFFFF
    destinationObject := 0x2002, destinationOffset := 0, length := 2, capabilityId := 0x7777
    generation := 1, auditHint := 0 }

theorem wrappingDescriptor_accepted :
    memoryDescriptorValidate (some wrappingDescriptor) = .ok ∧
      ¬ wrappingDescriptor.RangesInside :=
  ⟨by decide, fun hinside => absurd hinside.source (by decide)⟩

end Atarix
