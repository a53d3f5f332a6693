import Atarix.Bib.References
import Mathlib.Data.List.Chain

/-! # The records of an accepted image tile it

`open` checks the records once and the accessors walk them anew on every call.
All walks find the same records, and these fill the block from `tlv_offset` to its
end without gap or overlap.
-/

namespace Atarix

open Memory

variable {p : Memory} {prior opened : BibView} {windowLength : Nat}

namespace BibRecordView

/-- The offset of the record's header. -/
def start (record : BibRecordView) : Nat := record.payload - 16

/-- The offset behind the record. -/
def finish (record : BibRecordView) : Nat := record.start + record.serializedLength.toNat

end BibRecordView

@[simp] theorem start_recordViewAt (p : Memory) (offset : Nat) :
    (recordViewAt p offset).start = offset :=
  Nat.add_sub_cancel offset 16

@[simp] theorem finish_recordViewAt (p : Memory) (offset : Nat) :
    (recordViewAt p offset).finish = offset + (p.load32 (offset + 4)).toNat := by
  rw [BibRecordView.finish, start_recordViewAt, recordViewAt]

/-! ## Records that lie behind one another -/

namespace RecordsLie

variable {totalLength offset last : Nat} {record : BibRecordView} {records : List BibRecordView}

theorem head_start (hlie : RecordsLie p totalLength offset (record :: records) last) :
    record.start = offset := by
  obtain ⟨-, rfl, -⟩ := recordsLie_cons.mp hlie
  exact start_recordViewAt p offset

theorem chain (hlie : RecordsLie p totalLength offset records last) :
    records.IsChain fun record following => following.start = record.finish := by
  induction hlie with
  | nil offset => exact .nil
  | cons fits rest ih =>
      refine List.isChain_cons.mpr ⟨?_, ih⟩
      intro following hfollowing
      obtain ⟨others, rfl⟩ := List.head?_eq_some_iff.mp hfollowing
      rw [rest.head_start, finish_recordViewAt]

theorem finish_getLast? (hlie : RecordsLie p totalLength offset records last) :
    ∀ record ∈ records.getLast?, record.finish = last := by
  induction hlie with
  | nil offset => simp
  | @cons offset last records fits rest ih =>
      intro record hrecord
      cases records with
      | nil =>
          obtain rfl : recordViewAt p offset = record := Option.some.inj hrecord
          rw [finish_recordViewAt, recordsLie_nil.mp rest]
      | cons following others =>
          rw [List.getLast?_cons_cons] at hrecord
          exact ih record hrecord

theorem eq_recordViewAt (hlie : RecordsLie p totalLength offset records last) :
    ∀ record ∈ records, record = recordViewAt p record.start := by
  induction hlie with
  | nil offset => simp
  | cons fits rest ih =>
      refine List.forall_mem_cons.mpr ⟨?_, ih⟩
      rw [start_recordViewAt]

/-- Each record starts aligned and carries its payload within itself. -/
theorem carries (hlie : RecordsLie p totalLength offset records last) (haligned : offset % 8 = 0) :
    ∀ record ∈ records, record.start % 8 = 0 ∧ record.payload = record.start + 16 ∧
      record.payload + record.payloadLength.toNat ≤ record.finish := by
  induction hlie with
  | nil offset => simp
  | cons fits rest ih =>
      have hlength := fits.aligned
      have hpayload := fits.payload_le
      refine List.forall_mem_cons.mpr ⟨?_, ih (by omega)⟩
      rw [start_recordViewAt, finish_recordViewAt]
      refine ⟨haligned, rfl, ?_⟩
      simp only [recordViewAt]
      omega

end RecordsLie

/-! ## The accessors -/

/-- An index from the record count on names no record. -/
theorem bibReaderRecord_of_le {index : BitVec 32} (hle : (p.load32 52).toNat ≤ index.toNat)
    (slot : BibRecordView) :
    (bibReaderRecord (some (viewOf p)) index (some slot)).value = (.tlvBounds, some slot) := by
  have hbuffer : (viewOf p).buffer = some p := rfl
  have hout : index ≥ (viewOf p).tlvCount := hle
  simp only [bibReaderRecord, hbuffer]
  rw [if_pos hout]
  rfl

/-- An accepted image hands out a record exactly for the indices of its list. -/
theorem bibReaderRecord_ok_iff (haccepted : ImageRecordsAccepted p) {index : BitVec 32}
    (slot : BibRecordView) {record : BibRecordView} :
    (bibReaderRecord (some (viewOf p)) index (some slot)).value = (.ok, some record) ↔
      (imageRecords p)[index.toNat]? = some record := by
  have hlength : (imageRecords p).length = (p.load32 52).toNat := length_recordViewsFrom _ _
  by_cases hindex : index.toNat < (imageRecords p).length
  · have hfound := bibReaderRecord_of_accepted haccepted slot index.toNat hindex
    rw [BitVec.ofNat_toNat, BitVec.setWidth_eq] at hfound
    rw [hfound, List.getElem?_eq_getElem hindex]
    simp
  · rw [bibReaderRecord_of_le (by omega), List.getElem?_eq_none (by omega)]
    simp

/-- Where the records of a view lie. -/
structure BibView.RecordsTile (view : BibView) (records : List BibRecordView) : Prop where
  count : records.length = view.tlvCount.toNat
  first : records.head?.map BibRecordView.start = some view.tlvOffset.toNat
  next : ∀ index (hindex : index + 1 < records.length),
    records[index + 1].start = records[index].finish
  last : records.getLast?.map BibRecordView.finish = some view.totalLength.toNat
  aligned : ∀ record ∈ records, record.start % 8 = 0
  payload : ∀ record ∈ records, record.payload = record.start + 16 ∧
    record.payload + record.payloadLength.toNat ≤ record.finish

/-- There is a first record, since two are required. -/
theorem ImageRecordsAccepted.ne_nil (haccepted : ImageRecordsAccepted p) : imageRecords p ≠ [] := by
  intro hnil
  have hservice := haccepted.one_service
  rw [hnil] at hservice
  exact absurd hservice (by decide)

theorem ImageRecordsAccepted.tile (haccepted : ImageRecordsAccepted p) :
    (viewOf p).RecordsTile (imageRecords p) := by
  have hlie := haccepted.lie
  have hcarries := hlie.carries haccepted.offset_aligned
  refine ⟨length_recordViewsFrom _ _, ?_, ?_, ?_, ?_, ?_⟩
  case refine_1 =>
    obtain ⟨record, records, hrecords⟩ := List.exists_cons_of_ne_nil haccepted.ne_nil
    rw [hrecords] at hlie ⊢
    exact congrArg some hlie.head_start
  case refine_2 =>
    intro index hindex
    exact List.isChain_iff_getElem.mp hlie.chain index hindex
  case refine_3 =>
    have hlast := List.getLast?_eq_some_getLast haccepted.ne_nil
    rw [hlast]
    exact congrArg some (hlie.finish_getLast? _ hlast)
  case refine_4 => exact fun record hrecord => (hcarries record hrecord).1
  case refine_5 => exact fun record hrecord => (hcarries record hrecord).2

/-- The accessors of an opened view see one partition of the block: by index, the
records that tile it, and by type, the first of them of that type. -/
theorem accepted_records_tile
    (hopen : (bibReaderOpen (some prior) (some p) windowLength).value = (.ok, some opened)) :
    (∀ index slot, (bibReaderRecord (some opened) index (some slot)).value.1 = .ok ↔
      index < opened.tlvCount) ∧
    (∀ index slot, opened.tlvCount ≤ index →
      (bibReaderRecord (some opened) index (some slot)).value = (.tlvBounds, some slot)) ∧
    ∃ records, opened.RecordsTile records ∧
      (∀ record ∈ records, record = recordViewAt p record.start) ∧
      (∀ index slot record,
        (bibReaderRecord (some opened) index (some slot)).value = (.ok, some record) ↔
          records[index.toNat]? = some record) ∧
      (∀ type slot reference,
        (bibReaderFindReference (some opened) type (some slot)).value = (.ok, some reference) ↔
          ∃ record, records.find? (·.type = type) = some record ∧
            40 + declaredIntegrity p record ≤ record.payloadLength.toNat ∧
            reference = referenceViewAt p record.payload) ∧
      ∀ type slot, (∀ record ∈ records, record.type ≠ type) →
        (bibReaderFindReference (some opened) type (some slot)).value =
          (.requiredRecord, some slot) := by
  obtain ⟨haccepted, rfl⟩ := imageRecordsAccepted_of_open hopen
  have hlength : (imageRecords p).length = (p.load32 52).toNat := length_recordViewsFrom _ _
  refine ⟨?_, ?_, imageRecords p, haccepted.tile,
    haccepted.lie.eq_recordViewAt, ?_, ?_, ?_⟩
  · intro index slot
    by_cases hindex : index.toNat < (imageRecords p).length
    · have hfound := (bibReaderRecord_ok_iff haccepted slot).mpr
        (List.getElem?_eq_getElem hindex)
      rw [hfound]
      rw [hlength] at hindex
      exact iff_of_true rfl hindex
    · have hle : (p.load32 52).toNat ≤ index.toNat := by omega
      rw [bibReaderRecord_of_le hle]
      exact iff_of_false BibError.noConfusion (Nat.not_lt.mpr hle)
  · intro index slot hle
    exact bibReaderRecord_of_le (BitVec.le_def.mp hle) slot
  · intro index slot record
    exact bibReaderRecord_ok_iff haccepted slot
  · intro type slot reference
    rw [findReference_ok_iff haccepted, lookupReference_ok_iff]
  · intro type slot hnone
    have hfind : (imageRecords p).find? (·.type = type) = none := by
      simpa using hnone
    rw [bibReaderFindReference_of_accepted haccepted, lookupReference, hfind]
    rfl

theorem accepted_records_tile_sample :
    let p := ofList (sampleBlock 0 0x300000).encode
    (∀ index slot, (bibReaderRecord (some (viewOf p)) index (some slot)).value.1 = .ok ↔
      index < (viewOf p).tlvCount) := by
  intro p
  have hopened : (bibReaderOpen (some .zero) (some p) 232).value = (.ok, some (viewOf p)) :=
    sampleBlock_opened ⟨by decide, by decide, by decide, by decide⟩
  exact (accepted_records_tile hopened).1

end Atarix
