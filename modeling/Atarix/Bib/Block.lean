import Atarix.Bib.Builder

/-! # Boot information blocks as values

A block is its header arguments and its records; `BibBlock.encode` is its one
serialized form. Blocks with unknown flag bits do not exist.
-/

namespace Atarix

open Memory

/-! ## Records -/

structure BibRecord where
  type : BitVec 16
  flags : BitVec 16
  payload : List (BitVec 8)
deriving DecidableEq, Repr

namespace BibRecord

/-- Header and payload, padded to a multiple of eight. -/
def size (record : BibRecord) : Nat := (16 + record.payload.length + 7) / 8 * 8

def encode (record : BibRecord) : List (BitVec 8) :=
  le16 record.type ++ le16 record.flags ++ le32 (BitVec.ofNat 32 record.size) ++
    le32 (BitVec.ofNat 32 record.payload.length) ++ le32 0 ++ record.payload ++
    List.replicate (record.size - 16 - record.payload.length) 0

variable (record : BibRecord)

theorem payload_fits : 16 + record.payload.length ≤ record.size := by
  unfold size
  omega

theorem size_aligned : record.size % 8 = 0 := by
  simp [size]

@[simp] theorem length_encode : record.encode.length = record.size := by
  have hfits := record.payload_fits
  simp only [encode, List.length_append, length_le16, length_le32, List.length_replicate]
  omega

/-- A serialized record field by field. -/
theorem holds_encode {p : Memory} {offset : Nat} :
    p.Holds offset record.encode ↔
      p.Holds offset (le16 record.type) ∧ p.Holds (offset + 2) (le16 record.flags) ∧
      p.Holds (offset + 4) (le32 (BitVec.ofNat 32 record.size)) ∧
      p.Holds (offset + 8) (le32 (BitVec.ofNat 32 record.payload.length)) ∧
      p.Holds (offset + 12) (le32 0) ∧ p.Holds (offset + 16) record.payload ∧
      p.Holds (offset + (16 + record.payload.length))
        (List.replicate (record.size - 16 - record.payload.length) 0) := by
  simp only [encode, holds_append, List.length_append, length_le16, length_le32, Nat.reduceAdd,
    and_assoc]

end BibRecord

/-- The record area. -/
def encodeRecords (records : List BibRecord) : List (BitVec 8) := records.flatMap BibRecord.encode

def recordsSize (records : List BibRecord) : Nat := (records.map BibRecord.size).sum

@[simp] theorem length_encodeRecords (records : List BibRecord) :
    (encodeRecords records).length = recordsSize records := by
  simp [encodeRecords, recordsSize, List.length_flatMap]

@[simp] theorem encodeRecords_cons (record : BibRecord) (records : List BibRecord) :
    encodeRecords (record :: records) = record.encode ++ encodeRecords records :=
  List.flatMap_cons

theorem encodeRecords_concat (records : List BibRecord) (record : BibRecord) :
    encodeRecords (records ++ [record]) = encodeRecords records ++ record.encode := by
  simp [encodeRecords]

@[simp] theorem recordsSize_cons (record : BibRecord) (records : List BibRecord) :
    recordsSize (record :: records) = record.size + recordsSize records := by
  simp [recordsSize]

theorem recordsSize_concat (records : List BibRecord) (record : BibRecord) :
    recordsSize (records ++ [record]) = recordsSize records + record.size := by
  simp [recordsSize]

theorem recordsSize_aligned (records : List BibRecord) : recordsSize records % 8 = 0 := by
  induction records with
  | nil => rfl
  | cons record records ih =>
      rw [recordsSize_cons, Nat.add_mod, record.size_aligned, ih]

theorem length_le_recordsSize (records : List BibRecord) :
    16 * records.length ≤ recordsSize records := by
  induction records with
  | nil => simp
  | cons record records ih =>
      have hfits := record.payload_fits
      rw [recordsSize_cons, List.length_cons]
      omega

/-! ## Blocks -/

/-- What the caller of `init` chooses. -/
structure BibHeaderFields where
  flags : BitVec 16
  bootId : BitVec 64
  producerId : BitVec 64
  createdCounter : BitVec 64
  flags_known : bibHeaderFlagsAreKnown flags

@[ext] structure BibBlock extends BibHeaderFields where
  records : List BibRecord
  records_known : ∀ record ∈ records, bibTlvFlagsAreKnown record.flags

namespace BibBlock

/-- The block without records. -/
def empty (fields : BibHeaderFields) : BibBlock where
  toBibHeaderFields := fields
  records := []
  records_known := by simp

def size (block : BibBlock) : Nat := 64 + recordsSize block.records

/-- The 64 header bytes, with the three fields that are filled last left open. -/
def header (block : BibBlock) (totalLength crc tlvCount : BitVec 32) : List (BitVec 8) :=
  bibMagic ++ le16 bibVersionMajorV1 ++ le16 bibVersionMinorV0 ++ le16 64 ++ le16 block.flags ++
    le32 totalLength ++ le32 crc ++ le64 block.bootId ++ le64 block.producerId ++
    le64 block.createdCounter ++ le32 64 ++ le32 tlvCount ++ le64 0

/-- The block with its lengths, under a given checksum. -/
def image (block : BibBlock) (crc : BitVec 32) : List (BitVec 8) :=
  block.header (BitVec.ofNat 32 block.size) crc (BitVec.ofNat 32 block.records.length) ++
    encodeRecords block.records

/-- The checksum is taken with its own field at zero. -/
def checksum (block : BibBlock) : BitVec 32 := crc32c (ofList (block.image 0)) block.size

def encode (block : BibBlock) : List (BitVec 8) := block.image block.checksum

/-- The block with one more record. -/
def add (block : BibBlock) (record : BibRecord) (hknown : bibTlvFlagsAreKnown record.flags) :
    BibBlock where
  toBibHeaderFields := block.toBibHeaderFields
  records := block.records ++ [record]
  records_known := by
    intro added hadded
    rcases List.mem_append.mp hadded with hold | hnew
    · exact block.records_known added hold
    · rwa [List.mem_singleton.mp hnew]

variable (block : BibBlock)

@[simp] theorem length_header (totalLength crc tlvCount : BitVec 32) :
    (block.header totalLength crc tlvCount).length = 64 := rfl

@[simp] theorem length_image (crc : BitVec 32) : (block.image crc).length = block.size := by
  simp [image, size]

/-- The header field by field. -/
theorem holds_header {p : Memory} {totalLength crc tlvCount : BitVec 32} :
    p.Holds 0 (block.header totalLength crc tlvCount) ↔
      p.Holds 0 bibMagic ∧ p.Holds 8 (le16 bibVersionMajorV1) ∧
      p.Holds 10 (le16 bibVersionMinorV0) ∧ p.Holds 12 (le16 64) ∧
      p.Holds 14 (le16 block.flags) ∧ p.Holds 16 (le32 totalLength) ∧ p.Holds 20 (le32 crc) ∧
      p.Holds 24 (le64 block.bootId) ∧ p.Holds 32 (le64 block.producerId) ∧
      p.Holds 40 (le64 block.createdCounter) ∧ p.Holds 48 (le32 64) ∧
      p.Holds 52 (le32 tlvCount) ∧ p.Holds 56 (le64 0) := by
  have hmagic : bibMagic.length = 8 := rfl
  simp only [header, holds_append, List.length_append, length_le16, length_le32, length_le64,
    hmagic, Nat.zero_add, Nat.reduceAdd, and_assoc]

theorem holds_image {p : Memory} {crc : BitVec 32} :
    p.Holds 0 (block.image crc) ↔
      p.Holds 0 (block.header (BitVec.ofNat 32 block.size) crc
        (BitVec.ofNat 32 block.records.length)) ∧
      p.Holds 64 (encodeRecords block.records) := by
  rw [image, holds_append, length_header, Nat.zero_add]

theorem size_aligned : block.size % 8 = 0 := by
  have hrecords := recordsSize_aligned block.records
  unfold size
  omega

theorem size_add (record : BibRecord) (hknown : bibTlvFlagsAreKnown record.flags) :
    (block.add record hknown).size = block.size + record.size := by
  rw [size, add, recordsSize_concat, size, Nat.add_assoc]

theorem records_length_lt (hsize : block.size < 2 ^ 32) : block.records.length < 2 ^ 32 - 1 := by
  have hle := length_le_recordsSize block.records
  unfold size at hsize
  omega

end BibBlock

end Atarix
