import Atarix.Bib.BuilderSpec
import Atarix.Bib.Records

/-! # From the builder to the reader

The reader run on the serialized form of a block: which blocks it accepts, and
that it hands back their records.
-/

namespace Atarix

open Memory

variable {p : Memory}

/-! ## Records -/

namespace BibRecord

/-- The range that a reference payload names. -/
def address (record : BibRecord) : BitVec 64 := (ofList record.payload).load64 8

def length (record : BibRecord) : BitVec 64 := (ofList record.payload).load64 16

/-- The record as the reader hands it back when it lies at `offset`. -/
def view (record : BibRecord) (offset : Nat) : BibRecordView where
  type := record.type
  flags := record.flags
  payload := offset + 16
  payloadLength := BitVec.ofNat 32 record.payload.length
  serializedLength := BitVec.ofNat 32 record.size

variable {record : BibRecord}

theorem recordViewAt_eq {offset : Nat} (hholds : p.Holds offset record.encode) :
    recordViewAt p offset = record.view offset := by
  obtain ⟨htype, hflags, hsize, hlength, -⟩ := record.holds_encode.mp hholds
  rw [recordViewAt, view, htype.load16, hflags.load16, hsize.load32, hlength.load32]

theorem fits {totalLength offset : Nat} (hholds : p.Holds offset record.encode)
    (hknown : bibTlvFlagsAreKnown record.flags) (hend : offset + record.size ≤ totalLength)
    (htotal : totalLength < 2 ^ 32) : BibRecordFits p totalLength offset := by
  obtain ⟨htype, hflags, hsize, hlength, hreserved, -⟩ := record.holds_encode.mp hholds
  have hpayload := record.payload_fits
  have haligned := record.size_aligned
  have hsize' : (p.load32 (offset + 4)).toNat = record.size := by
    rw [hsize.load32]
    exact Nat.mod_eq_of_lt (by omega)
  have hlength' : (p.load32 (offset + 8)).toNat = record.payload.length := by
    rw [hlength.load32]
    exact Nat.mod_eq_of_lt (by omega)
  refine ⟨?_, ?_, ?_, ?_, ?_, hreserved.load32⟩
  · omega
  · omega
  · omega
  · omega
  · rwa [hflags.load16]

/-- The reader decodes a serialized record. -/
theorem recordAtOffset_eq {totalLength offset : BitVec 32}
    (hholds : p.Holds offset.toNat record.encode) (hknown : bibTlvFlagsAreKnown record.flags)
    (hend : offset.toNat + record.size ≤ totalLength.toNat) :
    (recordAtOffset p totalLength offset).value = .ok (record.view offset.toNat) := by
  apply recordAtOffset_ok_iff.mpr
  exact ⟨fits hholds hknown hend totalLength.isLt, (recordViewAt_eq hholds).symm⟩

/-- The payload check asks this of the two required references. -/
def ReferenceOk (record : BibRecord) : Prop :=
  record.type = BibTlv.serviceDirectoryReference ∨ record.type = BibTlv.memoryMapReference →
    40 ≤ record.payload.length ∧ record.address.toNat + record.length.toNat < 2 ^ 64

instance : Decidable record.ReferenceOk := inferInstanceAs (Decidable (_ → _))

theorem view_payloadLength {offset : Nat} (hlt : record.size < 2 ^ 32) :
    (record.view offset).payloadLength.toNat = record.payload.length := by
  have hfits := record.payload_fits
  rw [view, BitVec.toNat_ofNat]
  exact Nat.mod_eq_of_lt (by omega)

theorem checkRequiredReference_iff {offset : Nat} (hholds : p.Holds offset record.encode)
    (hlt : record.size < 2 ^ 32) :
    (checkRequiredReference p (record.view offset)).value = .ok ↔ record.ReferenceOk := by
  obtain ⟨-, -, -, -, -, hpayload, -⟩ := record.holds_encode.mp hholds
  rw [checkRequiredReference_ok_iff, view_payloadLength hlt]
  apply imp_congr_right
  intro _
  apply and_congr_right
  intro hlength
  have haddress : p.load64 (offset + 16 + 8) = record.address :=
    hpayload.load64_inside (by omega)
  have hrange : p.load64 (offset + 16 + 16) = record.length :=
    hpayload.load64_inside (by omega)
  rw [← haddress, ← hrange]
  rfl

/-- What the record loop asks of every record. -/
structure Passes (record : BibRecord) : Prop where
  known_or_optional :
    1 ≤ record.type ∧ record.type ≤ 10 ∨ record.flags &&& bibTlvFlagMandatory = 0
  reference : record.ReferenceOk

end BibRecord

/-! ## The record area -/

/-- The number of records of a type. -/
def countType (type : BitVec 16) (records : List BibRecord) : Nat :=
  records.countP fun record => record.type = type

/-- The scan state behind `records`. -/
def ScanState.after (state : ScanState) (records : List BibRecord) : ScanState where
  offset := state.offset + BitVec.ofNat 32 (recordsSize records)
  serviceCount :=
    state.serviceCount + BitVec.ofNat 32 (countType BibTlv.serviceDirectoryReference records)
  memoryCount :=
    state.memoryCount + BitVec.ofNat 32 (countType BibTlv.memoryMapReference records)

theorem ofNat_countType_cons (type : BitVec 16) (record : BibRecord) (records : List BibRecord) :
    BitVec.ofNat 32 (countType type (record :: records)) =
      (if record.type = type then 1 else 0) + BitVec.ofNat 32 (countType type records) := by
  rw [countType, ofNat_countP_cons]
  simp only [decide_eq_true_eq, countType]

/-- Counting a record first and the others after it is counting them all. -/
theorem ScanState.after_cons (state : ScanState) (record : BibRecord) (records : List BibRecord)
    (offset : Nat) :
    (state.next (record.view offset) (state.offset + BitVec.ofNat 32 record.size)).after records =
      state.after (record :: records) := by
  simp only [ScanState.after, ScanState.next, BibRecord.view, recordsSize_cons, BitVec.ofNat_add,
    ofNat_countType_cons, BitVec.add_assoc]
  rfl

theorem knownType_iff (type : BitVec 16) : knownType type ↔ 1 ≤ type ∧ type ≤ 10 := by
  rw [knownType, decide_eq_true_iff]
  rfl

/-- Serialized records lie at `offset`, inside the first `totalLength` bytes. -/
structure RecordsAt (p : Memory) (totalLength offset : BitVec 32) (records : List BibRecord) :
    Prop where
  holds : p.Holds offset.toNat (encodeRecords records)
  known : ∀ record ∈ records, bibTlvFlagsAreKnown record.flags
  ends : offset.toNat + recordsSize records ≤ totalLength.toNat

namespace RecordsAt

variable {totalLength offset : BitVec 32} {record : BibRecord} {records : List BibRecord}

theorem holds_head (hat : RecordsAt p totalLength offset (record :: records)) :
    p.Holds offset.toNat record.encode := by
  have hholds := hat.holds
  rw [encodeRecords_cons, holds_append] at hholds
  exact hholds.1

theorem head_size_lt (hat : RecordsAt p totalLength offset (record :: records)) :
    record.size < 2 ^ 32 := by
  have hends := hat.ends
  have htotal := totalLength.isLt
  rw [recordsSize_cons] at hends
  omega

theorem head (hat : RecordsAt p totalLength offset (record :: records)) :
    (recordAtOffset p totalLength offset).value = .ok (record.view offset.toNat) := by
  have hends := hat.ends
  rw [recordsSize_cons] at hends
  exact BibRecord.recordAtOffset_eq hat.holds_head (hat.known record List.mem_cons_self)
    (by omega)

theorem tail (hat : RecordsAt p totalLength offset (record :: records)) :
    RecordsAt p totalLength (offset + BitVec.ofNat 32 record.size) records := by
  have hends := hat.ends
  have htotal := totalLength.isLt
  have hholds := hat.holds
  rw [encodeRecords_cons, holds_append, BibRecord.length_encode] at hholds
  rw [recordsSize_cons] at hends
  have hnext : (offset + BitVec.ofNat 32 record.size).toNat = offset.toNat + record.size := by
    rw [BitVec.toNat_add, BitVec.toNat_ofNat, Nat.mod_eq_of_lt hat.head_size_lt]
    exact Nat.mod_eq_of_lt (by omega)
  refine ⟨hnext ▸ hholds.2, fun other hother => hat.known other (List.mem_cons_of_mem _ hother), ?_⟩
  omega

end RecordsAt

/-- The record loop over serialized records passes if every record does. -/
theorem scanRecords_ok_iff {totalLength : BitVec 32} (records : List BibRecord)
    {state final : ScanState} (hat : RecordsAt p totalLength state.offset records) :
    (scanRecords p totalLength records.length state).value = .ok final ↔
      (∀ record ∈ records, record.Passes) ∧ state.after records = final := by
  induction records generalizing state with
  | nil => simp [scanRecords, ScanState.after, recordsSize, countType]
  | cons record records ih =>
      have hchecked : RecordChecked p (record.view state.offset.toNat) ↔ record.Passes := by
        have hreference := BibRecord.checkRequiredReference_iff hat.holds_head hat.head_size_lt
        constructor
        · rintro ⟨hknown, hrange⟩
          exact ⟨hknown.imp_left (knownType_iff _).mp, hreference.mp hrange⟩
        · rintro ⟨hknown, hrange⟩
          exact ⟨hknown.imp_left (knownType_iff _).mpr, hreference.mpr hrange⟩
      -- the rest of the records lies where the scan goes on
      have hrest := @ih (state.next (record.view state.offset.toNat)
        (state.offset + BitVec.ofNat 32 record.size)) hat.tail
      rw [ScanState.after_cons] at hrest
      rw [List.forall_mem_cons, List.length_cons, scanRecords_succ hat.head, hchecked, and_assoc]
      exact and_congr_right fun _ => hrest

/-- Skipping `index` serialized records leads to the one with that index. -/
theorem walkRecords_eq {totalLength : BitVec 32} (records : List BibRecord) {offset : BitVec 32}
    (hat : RecordsAt p totalLength offset records) (index : Nat) (hindex : index < records.length) :
    ∃ position, (walkRecords p totalLength index offset).value =
        .ok (records[index].view position) ∧
      p.Holds position records[index].encode ∧ records[index].size < 2 ^ 32 := by
  induction records generalizing offset index with
  | nil => simp at hindex
  | cons record records ih =>
      cases index with
      | zero => exact ⟨offset.toNat, hat.head, hat.holds_head, hat.head_size_lt⟩
      | succ index =>
          rw [walkRecords, Traced.value_bind, hat.head]
          exact ih hat.tail index (Nat.lt_of_succ_lt_succ hindex)

/-! ## Blocks -/

/-- The record lists that the reader accepts. -/
structure RecordsAcceptable (records : List BibRecord) : Prop where
  known_or_optional : ∀ record ∈ records,
    1 ≤ record.type ∧ record.type ≤ 10 ∨ record.flags &&& bibTlvFlagMandatory = 0
  one_service : countType BibTlv.serviceDirectoryReference records = 1
  one_memory : countType BibTlv.memoryMapReference records = 1
  references : ∀ record ∈ records, record.ReferenceOk

namespace BibBlock

variable {block : BibBlock} {windowLength : Nat}

/-- The view of the block in the buffer `p`. -/
def view (block : BibBlock) (p : Memory) : BibView where
  buffer := some p
  totalLength := BitVec.ofNat 32 block.size
  tlvOffset := 64
  tlvCount := BitVec.ofNat 32 block.records.length
  flags := block.flags
  bootId := block.bootId
  producerId := block.producerId
  createdCounter := block.createdCounter

theorem viewOf_eq (hholds : p.Holds 0 block.encode) : viewOf p = block.view p := by
  obtain ⟨hheader, -⟩ := block.holds_image.mp hholds
  obtain ⟨-, -, -, -, hflags, htotal, -, hboot, hproducer, hcounter, hoffset, hcount, -⟩ :=
    block.holds_header.mp hheader
  rw [viewOf, view, hflags.load16, htotal.load32, hboot.load64, hproducer.load64,
    hcounter.load64, hoffset.load32, hcount.load32]

/-- The reader's checksum of a block is the block's, whatever its checksum field
holds. -/
theorem checksum_eq_of_image {crc : BitVec 32} (hholds : p.Holds 0 (block.image crc))
    (hsize : block.size < 2 ^ 32) :
    (crc32cWithZeroedField p (BitVec.ofNat 32 block.size)).value = block.checksum := by
  have hzeroed : (p.zeroRange 20 4).Holds 0 (block.image 0) := by
    have hmagic : bibMagic.length = 8 := rfl
    have hzero : (p.zeroRange 20 4).Holds 20 (List.replicate 4 0) :=
      holds_zeroRange_of_inside le_rfl le_rfl
    have hcrc : (p.zeroRange 20 4).Holds 20 (le32 0) := hzero
    obtain ⟨hheader, hrecords⟩ := block.holds_image.mp hholds
    apply block.holds_image.mpr
    rw [holds_header] at hheader ⊢
    simp (disch := simp [hmagic]) only [holds_zeroRange_of_disjoint, hcrc, hheader, hrecords,
      and_self]
  have hcrc := crc32c_eq_of_holds hzeroed
  rw [block.length_image] at hcrc
  rw [checksum, ← hcrc, crc32cWithZeroedField_value, BitVec.toNat_ofNat, Nat.mod_eq_of_lt hsize]
  rfl

theorem checksum_eq (hholds : p.Holds 0 block.encode) (hsize : block.size < 2 ^ 32) :
    (crc32cWithZeroedField p (BitVec.ofNat 32 block.size)).value = block.checksum :=
  checksum_eq_of_image hholds hsize

theorem headerAccepted_iff (hholds : p.Holds 0 block.encode) (hsize : block.size < 2 ^ 32) :
    HeaderAccepted p windowLength ↔ block.size ≤ windowLength ∧ block.size ≤ 65536 := by
  obtain ⟨hheader, -⟩ := block.holds_image.mp hholds
  obtain ⟨hmagic, hmajor, -, hlength, hflags, htotal, hcrc, -, -, -, -, -, hreserved⟩ :=
    block.holds_header.mp hheader
  have htotal' : (p.load32 16).toNat = block.size := by
    rw [htotal.load32]
    exact Nat.mod_eq_of_lt hsize
  constructor
  · intro haccepted
    rw [← htotal']
    exact ⟨haccepted.total_le_window, haccepted.total_le_max⟩
  · rintro ⟨hwindow, hmax⟩
    have haligned := block.size_aligned
    have hge : 64 ≤ block.size := Nat.le_add_right _ _
    refine ⟨hmagic, hmajor.load16, hlength.load16, ?_, ?_, ?_, ?_, ?_, ?_, hreserved.load64⟩
    case refine_1 => rwa [htotal']
    case refine_2 => rwa [htotal']
    case refine_3 => rwa [htotal']
    case refine_4 => rwa [htotal']
    case refine_5 => rw [hcrc.load32, htotal.load32, checksum_eq hholds hsize]
    case refine_6 =>
      rw [hflags.load16]
      exact block.flags_known

theorem recordsAt (hholds : p.Holds 0 block.encode) (hsize : block.size < 2 ^ 32) :
    RecordsAt p (BitVec.ofNat 32 block.size) 64 block.records := by
  obtain ⟨-, hrecords⟩ := block.holds_image.mp hholds
  refine ⟨hrecords, block.records_known, ?_⟩
  rw [BitVec.toNat_ofNat, Nat.mod_eq_of_lt hsize]
  exact le_rfl

/-- Counters wrap at `2 ^ 32`, which a block has no room for. -/
theorem ofNat_countType_eq_one {type : BitVec 16} (hsize : block.size < 2 ^ 32) :
    0 + BitVec.ofNat 32 (countType type block.records) = 1 ↔ countType type block.records = 1 := by
  have hle : countType type block.records ≤ block.records.length := List.countP_le_length
  have hlt := block.records_length_lt hsize
  exact zero_add_ofNat_eq_one (by omega)

theorem recordsAccepted_iff (hholds : p.Holds 0 block.encode) (hsize : block.size < 2 ^ 32) :
    RecordsAccepted p ↔ RecordsAcceptable block.records := by
  have hview := viewOf_eq hholds
  have htotal : p.load32 16 = BitVec.ofNat 32 block.size := congrArg BibView.totalLength hview
  have hoffset : p.load32 48 = 64 := congrArg BibView.tlvOffset hview
  have hcount : p.load32 52 = BitVec.ofNat 32 block.records.length :=
    congrArg BibView.tlvCount hview
  have hcount' : (p.load32 52).toNat = block.records.length := by
    have hlt := block.records_length_lt hsize
    rw [hcount]
    exact Nat.mod_eq_of_lt (by omega)
  have hend : (64 : BitVec 32) + BitVec.ofNat 32 (recordsSize block.records) =
      BitVec.ofNat 32 block.size := by
    rw [size, BitVec.ofNat_add]
    rfl
  -- the scan passes and ends as `open` wants it
  have hscan : (scanRecords p (p.load32 16) (p.load32 52).toNat ⟨p.load32 48, 0, 0⟩).value =
      .ok ⟨p.load32 16, 1, 1⟩ ↔ RecordsAcceptable block.records := by
    rw [htotal, hcount', hoffset, scanRecords_ok_iff block.records (recordsAt hholds hsize),
      ScanState.after, ScanState.mk.injEq, ofNat_countType_eq_one hsize,
      ofNat_countType_eq_one hsize]
    constructor
    · rintro ⟨hpasses, -, hservice, hmemory⟩
      exact ⟨fun record hrecord => (hpasses record hrecord).known_or_optional, hservice, hmemory,
        fun record hrecord => (hpasses record hrecord).reference⟩
    · rintro ⟨hknown, hservice, hmemory, hreference⟩
      exact ⟨fun record hrecord => ⟨hknown record hrecord, hreference record hrecord⟩, hend,
        hservice, hmemory⟩
  have htotal' : (p.load32 16).toNat = block.size := by
    rw [htotal]
    exact Nat.mod_eq_of_lt hsize
  constructor
  · intro haccepted
    exact hscan.mp haccepted.scan
  · intro hacceptable
    refine ⟨?_, ?_, ?_, hscan.mpr hacceptable⟩
    · rw [hoffset]
      exact le_rfl
    · rw [hoffset, htotal']
      exact Nat.le_add_right _ _
    · rw [hoffset]
      rfl

/-- The reader accepts a block that is not too long and has acceptable records. -/
theorem open_ok_iff (hholds : p.Holds 0 block.encode) (hsize : block.size < 2 ^ 32)
    (hwindow : block.size ≤ windowLength) (prior : BibView) :
    (bibReaderOpen (some prior) (some p) windowLength).value.1 = .ok ↔
      block.size ≤ 65536 ∧ RecordsAcceptable block.records := by
  have hge : 64 ≤ block.size := Nat.le_add_right _ _
  rw [bibReaderOpen_ok_iff, headerAccepted_iff hholds hsize, recordsAccepted_iff hholds hsize]
  simp only [hge.trans hwindow, hwindow, true_and]

/-- The reader's view of a block hands its records back, payloads included. -/
theorem record_eq (hholds : p.Holds 0 block.encode) (hsize : block.size < 2 ^ 32)
    (prior : BibRecordView) (index : Nat) (hindex : index < block.records.length) :
    ∃ record, (bibReaderRecord (some (block.view p)) (BitVec.ofNat 32 index) (some prior)).value =
        (.ok, some record) ∧
      record.type = block.records[index].type ∧ record.flags = block.records[index].flags ∧
      p.slice record.payload record.payloadLength.toNat = block.records[index].payload := by
  have hlt := block.records_length_lt hsize
  obtain ⟨position, hwalk, hencode, hrecord⟩ :=
    walkRecords_eq block.records (recordsAt hholds hsize) index hindex
  refine ⟨block.records[index].view position, ?_, rfl, rfl, ?_⟩
  · have hindex' : (BitVec.ofNat 32 index).toNat = index := Nat.mod_eq_of_lt (by omega)
    have hcount : (BitVec.ofNat 32 block.records.length).toNat = block.records.length :=
      Nat.mod_eq_of_lt (by omega)
    have hin : ¬ BitVec.ofNat 32 index ≥ (block.view p).tlvCount := by
      rw [view, ge_iff_le, BitVec.le_def, hindex', hcount]
      omega
    have hbuffer : (block.view p).buffer = some p := rfl
    have hfound : (walkRecords p (block.view p).totalLength (BitVec.ofNat 32 index).toNat
        (block.view p).tlvOffset).value = .ok (block.records[index].view position) := by
      rw [hindex']
      exact hwalk
    simp only [bibReaderRecord, hbuffer]
    rw [if_neg hin, Traced.value_bind, hfound]
    rfl
  · obtain ⟨-, -, -, -, -, hpayload, -⟩ := (BibRecord.holds_encode _).mp hencode
    rw [BibRecord.view_payloadLength hrecord]
    exact hpayload

end BibBlock

/-! ## The round trip -/

/-- The opened view carries the arguments of `init` and hands back the records, in
the order in which they were added. -/
structure BibView.Carries (opened : BibView) (p : Memory) (flags : BitVec 16)
    (bootId producerId createdCounter : BitVec 64) (records : List BibRecord) : Prop where
  flags : opened.flags = flags
  bootId : opened.bootId = bootId
  producerId : opened.producerId = producerId
  createdCounter : opened.createdCounter = createdCounter
  tlvCount : opened.tlvCount.toNat = records.length
  record : ∀ (prior : BibRecordView) (index : Nat) (hindex : index < records.length),
    ∃ record, (bibReaderRecord (some opened) (BitVec.ofNat 32 index) (some prior)).value =
        (.ok, some record) ∧
      record.type = records[index].type ∧ record.flags = records[index].flags ∧
      p.slice record.payload record.payloadLength.toNat = records[index].payload

/-- What a successful run of the builder leaves in the buffer is opened, in any
window that covers it, exactly if it is at most 64 KiB long and its records are
acceptable; and the reader then returns what the builder was given. -/
theorem bib_round_trip {builder started filled finished : Option BibBuilder}
    {buffer : Option Memory} {capacity : Nat} {flags : BitVec 16}
    {bootId producerId createdCounter : BitVec 64} {adds : List BibAdd}
    {results : List BibBuilderResult} {slot length : BitVec 32} {windowLength : Nat}
    (hinit : bibBuilderInit builder buffer capacity flags bootId producerId createdCounter =
      (.ok, started))
    (hadds : addAll started adds = (results, filled)) (hresults : ∀ result ∈ results, result = .ok)
    (hseal : bibBuilderSeal filled (some slot) = (.ok, finished, some length))
    (hwindow : length.toNat ≤ windowLength) (view : BibView) :
    ∃ (sealed : BibBuilder) (p : Memory), finished = some sealed ∧ sealed.buffer = some p ∧
      ((bibReaderOpen (some view) (some p) windowLength).value.1 = .ok ↔
        length.toNat ≤ 65536 ∧ RecordsAcceptable (adds.map BibAdd.record)) ∧
      ((bibReaderOpen (some view) (some p) windowLength).value.1 = .ok →
        ∃ opened, (bibReaderOpen (some view) (some p) windowLength).value.2 = some opened ∧
          opened.Carries p flags bootId producerId createdCounter (adds.map BibAdd.record)) := by
  obtain ⟨sealed, p, block, hfinished, hbuffer, hlength, hholds, hsize, rfl, rfl, rfl, rfl,
    hrecords⟩ := build_encodes hinit hadds hresults hseal
  obtain rfl : length = BitVec.ofNat 32 block.size := Option.some.inj hlength
  rw [BitVec.toNat_ofNat, Nat.mod_eq_of_lt hsize] at hwindow ⊢
  rw [← hrecords]
  refine ⟨sealed, p, hfinished, hbuffer, block.open_ok_iff hholds hsize hwindow view, ?_⟩
  intro hopen
  refine ⟨block.view p, ?_, rfl, rfl, rfl, rfl, ?_, block.record_eq hholds hsize⟩
  · rw [bibReaderOpen_view hopen, BibBlock.viewOf_eq hholds]
  · have hlt := block.records_length_lt hsize
    exact Nat.mod_eq_of_lt (by omega)

/-- The two required references. -/
def requiredAdds : List BibAdd :=
  [.reference BibTlv.serviceDirectoryReference bibTlvFlagMandatory 0x1001 0x100000 0x2000 1 0,
    .reference BibTlv.memoryMapReference bibTlvFlagMandatory 0x1002 0x200000 0x3000 1 0]

/-- A builder at work on a buffer of 256 bytes. -/
def smallBuilder : Option BibBuilder :=
  (bibBuilderInit (some ⟨none, 0, 0, 0, false⟩) (some fun _ => 0xFF) 256 8 0x1122334455667788
    0x8877665544332211 7).2

/-- The builder with the required references added and sealed. -/
def smallBlock : Option BibBuilder :=
  (bibBuilderSeal (addAll smallBuilder requiredAdds).2 (some 0)).2.1

theorem small_block_opened :
    ∃ (sealed : BibBuilder) (p : Memory), smallBlock = some sealed ∧ sealed.buffer = some p ∧
      (bibReaderOpen (some .zero) (some p) 176).value.1 = .ok ∧
      ∃ opened, (bibReaderOpen (some .zero) (some p) 176).value.2 = some opened ∧
        opened.Carries p 8 0x1122334455667788 0x8877665544332211 7
          (requiredAdds.map BibAdd.record) := by
  have hinit : bibBuilderInit (some ⟨none, 0, 0, 0, false⟩) (some fun _ => 0xFF) 256 8
      0x1122334455667788 0x8877665544332211 7 = (.ok, smallBuilder) := rfl
  have hadds : addAll smallBuilder requiredAdds =
      ([.ok, .ok], (addAll smallBuilder requiredAdds).2) := Prod.ext (by decide) rfl
  have hseal : bibBuilderSeal (addAll smallBuilder requiredAdds).2 (some 0) =
      (.ok, smallBlock, some 176) := Prod.ext (by decide) (Prod.ext rfl (by decide))
  have hwindow : (176 : BitVec 32).toNat ≤ 176 := le_rfl
  obtain ⟨sealed, p, hblock, hbuffer, hopen, hcarries⟩ :=
    bib_round_trip hinit hadds (by decide) hseal hwindow .zero
  have hok := hopen.mpr ⟨by decide, by decide, by decide, by decide, by decide⟩
  exact ⟨sealed, p, hblock, hbuffer, hok, hcarries hok⟩

end Atarix
