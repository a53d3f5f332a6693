import Atarix.Discovery.Format
import Atarix.Foundation.Crc

/-! # Validation of discovery images

`discovery_validate.c`. An accepted image carries a chain of records that ends in
an END record inside the declared length.
-/

namespace Atarix

/-- The inner loop body of `atarix_crc32_iso_hdlc`. -/
def crc32IsoHdlcBitStep (crc : BitVec 32) : BitVec 32 :=
  (crc >>> 1) ^^^ (0xEDB88320 &&& (0 - (crc &&& 1)))

def crc32IsoHdlc (data : Memory) (length : Nat) : BitVec 32 :=
  ~~~ Crc.update crc32IsoHdlcBitStep 0xFFFFFFFF data length

/-- The image checksum is skipped for images that do not fit the stack copy. -/
def discoveryCrcValid (image : Memory) (imageSize : Nat) : Bool :=
  let headerCopy := image.zeroRange 24 8
  if crc32IsoHdlc headerCopy discoveryHeaderSizeV1 ≠ DiscoveryHeader.headerCrc32 image then false
  else if imageSize > 512 then true
  else
    let imageCopy := image.zeroRange 28 4
    crc32IsoHdlc imageCopy (DiscoveryHeader.totalLength image) = DiscoveryHeader.imageCrc32 image

/-- The record loop, from `offset` on: the number of records seen, END included. -/
def discoveryValidateRecords (image : Memory) (totalLength offset : Nat)
    (recordsSeen : BitVec 32) : Except DiscoveryResult (BitVec 32) :=
  if offset < totalLength then
    if offset % 8 ≠ 0 then .error .badAlignment
    else if totalLength - offset < discoveryRecordHeaderSizeV1 then .error .truncatedRecord
    else if hlength : recordLength image offset < discoveryRecordHeaderSizeV1 ∨
        recordLength image offset % 8 ≠ 0 then .error .badLength
    else if recordLength image offset > totalLength - offset then .error .truncatedRecord
    else if recordType image offset = DiscoveryRecord.endOfRecords then .ok (recordsSeen + 1)
    else
      discoveryValidateRecords image totalLength (offset + recordLength image offset)
        (recordsSeen + 1)
  else .error .missingEnd
termination_by totalLength - offset
decreasing_by
  simp only [discoveryRecordHeaderSizeV1] at hlength
  omega

/-- `none` is the NULL image. -/
def discoveryValidate (image : Option Memory) (imageSize : Nat) : DiscoveryResult :=
  match image with
  | none => .null
  | some image =>
    if imageSize < discoveryHeaderSizeV1 then .tooSmall
    else if ¬ discoveryMagicIsValid (DiscoveryHeader.magic image) then .badMagic
    else if DiscoveryHeader.versionMajor image ≠ discoveryVersionMajorV1 then .unsupportedVersion
    else if DiscoveryHeader.totalLength image < discoveryHeaderSizeV1 ∨
        DiscoveryHeader.totalLength image > imageSize ∨
        DiscoveryHeader.totalLength image % 8 ≠ 0 then .badLength
    else if ¬ discoveryCrcValid image imageSize then .badCrc
    else
      match discoveryValidateRecords image (DiscoveryHeader.totalLength image)
        discoveryHeaderSizeV1 0 with
      | .error result => result
      | .ok recordsSeen =>
        if DiscoveryHeader.recordCount image ≠ 0 ∧
            recordsSeen ≠ DiscoveryHeader.recordCount image then .badLength
        else .ok

/-! ## The records of an accepted image -/

/-- A record at `record` lies inside the first `totalLength` bytes. -/
structure RecordFits (image : Memory) (totalLength record : Nat) : Prop where
  aligned : record % 8 = 0
  header_le : discoveryRecordHeaderSizeV1 ≤ recordLength image record
  length_aligned : recordLength image record % 8 = 0
  le_total : record + recordLength image record ≤ totalLength

/-- The records from `first` on, one behind the other, up to an END record. -/
inductive RecordChain (image : Memory) (totalLength : Nat) : Nat → List Nat → Prop where
  | stop {record : Nat} (fits : RecordFits image totalLength record)
      (isEnd : recordType image record = DiscoveryRecord.endOfRecords) :
      RecordChain image totalLength record []
  | next {record : Nat} {rest : List Nat} (fits : RecordFits image totalLength record)
      (notEnd : recordType image record ≠ DiscoveryRecord.endOfRecords)
      (chain : RecordChain image totalLength (record + recordLength image record) rest) :
      RecordChain image totalLength record (record :: rest)

variable {image : Memory}

/-- The record loop succeeds only on a chain, and counts it with its END record. -/
theorem recordChain_of_validateRecords {totalLength offset : Nat} {recordsSeen seen : BitVec 32}
    (hvalid : discoveryValidateRecords image totalLength offset recordsSeen = .ok seen) :
    ∃ records, RecordChain image totalLength offset records ∧
      seen = recordsSeen + BitVec.ofNat 32 (records.length + 1) := by
  fun_induction discoveryValidateRecords image totalLength offset recordsSeen
  all_goals try cases hvalid
  case case5 offset recordsSeen hlt haligned hheader hlength hle hend =>
      refine ⟨[], .stop ⟨?_, ?_, ?_, ?_⟩ hend, rfl⟩
      all_goals simp only [discoveryRecordHeaderSizeV1] at *
      all_goals omega
  case case6 offset recordsSeen hlt haligned hheader hlength hle hend ih =>
      obtain ⟨records, hchain, hseen⟩ := ih hvalid
      refine ⟨offset :: records, .next ⟨?_, ?_, ?_, ?_⟩ hend hchain, ?_⟩
      case refine_5 =>
        rw [hseen, List.length_cons, BitVec.add_assoc]
        congr 1
        exact (BitVec.add_comm _ _).trans (BitVec.ofNat_add (records.length + 1) 1).symm
      all_goals simp only [discoveryRecordHeaderSizeV1] at *
      all_goals omega

/-- The record loop gives up with an error code only. -/
theorem validateRecords_ne_error_ok {totalLength offset : Nat} {recordsSeen : BitVec 32} :
    discoveryValidateRecords image totalLength offset recordsSeen ≠ .error .ok := by
  fun_induction discoveryValidateRecords image totalLength offset recordsSeen
  all_goals first
    | exact fun herror => by cases herror
    | assumption

/-- The records of an accepted image, as many as declared if a count is declared. -/
theorem recordChain_of_validate {imageSize : Nat}
    (hvalid : discoveryValidate (some image) imageSize = .ok) :
    ∃ records,
      RecordChain image (DiscoveryHeader.totalLength image) discoveryHeaderSizeV1 records ∧
        (DiscoveryHeader.recordCount image = 0 ∨
          DiscoveryHeader.recordCount image = BitVec.ofNat 32 (records.length + 1)) := by
  simp only [discoveryValidate] at hvalid
  split_ifs at hvalid with hsize hmagic hversion hlength hcrc
  cases hrecords : discoveryValidateRecords image (DiscoveryHeader.totalLength image)
      discoveryHeaderSizeV1 0 with
  | error result =>
      rw [hrecords] at hvalid
      change result = .ok at hvalid
      rw [hvalid] at hrecords
      exact absurd hrecords validateRecords_ne_error_ok
  | ok seen =>
      obtain ⟨records, hchain, hseen⟩ := recordChain_of_validateRecords hrecords
      rw [hrecords] at hvalid
      dsimp only at hvalid
      split_ifs at hvalid with hcount
      rw [zero_add] at hseen
      refine ⟨records, hchain, or_iff_not_imp_left.mpr fun hdeclared => ?_⟩
      rw [← hseen]
      by_contra hdiffers
      exact hcount ⟨hdeclared, fun hsame => hdiffers hsame.symm⟩

/-- What acceptance says about an image. -/
structure AcceptedImage (image : Memory) (imageSize : Nat) (records : List Nat) : Prop where
  total_le : DiscoveryHeader.totalLength image ≤ imageSize
  header_le : discoveryHeaderSizeV1 ≤ imageSize
  chain : RecordChain image (DiscoveryHeader.totalLength image) discoveryHeaderSizeV1 records

theorem acceptedImage_of_validate {imageSize : Nat}
    (hvalid : discoveryValidate (some image) imageSize = .ok) :
    ∃ records, AcceptedImage image imageSize records := by
  obtain ⟨records, hchain, -⟩ := recordChain_of_validate hvalid
  simp only [discoveryValidate] at hvalid
  split_ifs at hvalid with hsize hmagic hversion hlength
  exact ⟨records, by omega, by omega, hchain⟩

/-! ## Chains are accepted -/

/-- At a record that fits, the loop asks for its type only. -/
theorem validateRecords_of_fits {totalLength record : Nat}
    (fits : RecordFits image totalLength record) (recordsSeen : BitVec 32) :
    discoveryValidateRecords image totalLength record recordsSeen =
      if recordType image record = DiscoveryRecord.endOfRecords then .ok (recordsSeen + 1)
      else discoveryValidateRecords image totalLength (record + recordLength image record)
        (recordsSeen + 1) := by
  have hheader := fits.header_le
  have hle := fits.le_total
  have hsize : discoveryRecordHeaderSizeV1 = 8 := rfl
  rw [discoveryValidateRecords, if_pos (by omega), if_neg (by simp [fits.aligned]),
    if_neg (by omega), dif_neg (by simp [fits.length_aligned, hheader]), if_neg (by omega)]

theorem validateRecords_of_recordChain {totalLength offset : Nat} {records : List Nat}
    (hchain : RecordChain image totalLength offset records) (recordsSeen : BitVec 32) :
    discoveryValidateRecords image totalLength offset recordsSeen =
      .ok (recordsSeen + BitVec.ofNat 32 (records.length + 1)) := by
  induction hchain generalizing recordsSeen with
  | stop fits isEnd =>
      rw [validateRecords_of_fits fits, if_pos isEnd]
      rfl
  | @next record rest fits notEnd chain ih =>
      rw [validateRecords_of_fits fits, if_neg notEnd, ih, List.length_cons, BitVec.add_assoc]
      congr 2
      exact (BitVec.add_comm _ _).trans (BitVec.ofNat_add (rest.length + 1) 1).symm

/-- A header in order, with checksums and count that fit a chain, is accepted. -/
theorem discoveryValidate_of_chain {imageSize : Nat} {records : List Nat}
    (hmagic : DiscoveryHeader.magic image = discoveryMagicAtdx)
    (hversion : DiscoveryHeader.versionMajor image = discoveryVersionMajorV1)
    (hheader : discoveryHeaderSizeV1 ≤ DiscoveryHeader.totalLength image)
    (htotal : DiscoveryHeader.totalLength image ≤ imageSize)
    (haligned : DiscoveryHeader.totalLength image % 8 = 0)
    (hcrc : discoveryCrcValid image imageSize = true)
    (hchain : RecordChain image (DiscoveryHeader.totalLength image) discoveryHeaderSizeV1 records)
    (hcount : DiscoveryHeader.recordCount image = 0 ∨
      DiscoveryHeader.recordCount image = BitVec.ofNat 32 (records.length + 1)) :
    discoveryValidate (some image) imageSize = .ok := by
  have hmagicValid : discoveryMagicIsValid (DiscoveryHeader.magic image) = true :=
    decide_eq_true hmagic
  have hseen := validateRecords_of_recordChain hchain 0
  have hcounted : ¬ (DiscoveryHeader.recordCount image ≠ 0 ∧
      0 + BitVec.ofNat 32 (records.length + 1) ≠ DiscoveryHeader.recordCount image) := by
    rintro ⟨hdeclared, hdiffers⟩
    rw [zero_add, hcount.resolve_left hdeclared] at hdiffers
    exact hdiffers rfl
  simp only [discoveryValidate, hseen]
  rw [if_neg (by omega), if_neg (not_not.mpr hmagicValid), if_neg (not_not.mpr hversion),
    if_neg (by omega), if_neg (not_not.mpr hcrc), if_neg hcounted]

end Atarix
