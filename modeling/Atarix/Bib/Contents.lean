import Atarix.Bib.Insertion

/-! # What can be read of a block

A reader of an open block asks for its header fields, for a record by index and
for a reference by type. Where the records lie, how they are padded and what lies
between them never shows: the answers are those of the block as a value.
-/

namespace Atarix

open Memory

variable {p : Memory} {prior opened : BibView} {windowLength : Nat}

/-! ## What a block answers -/

/-- The reference in the payload of a record. -/
def BibRecord.reference (record : BibRecord) : Except BibError ReferenceContents :=
  let payload := ofList record.payload
  if record.payload.length < 40 then .error .tlvBounds
  else if record.payload.length < 40 + (payload.load32 36).toNat then .error .referenceIntegrity
  else
    .ok
      { objectId := payload.load64 0
        address := payload.load64 8
        length := payload.load64 16
        formatMajor := payload.load32 24
        formatMinor := payload.load32 28
        integrityKind := payload.load32 32
        integrity := (record.payload.drop 40).take (payload.load32 36).toNat }

namespace BibBlock

/-- The record with an index. -/
def record (block : BibBlock) (index : BitVec 32) : Except BibError BibRecord :=
  block.records[index.toNat]?.elim (.error .tlvBounds) .ok

/-- The reference of the first record of a type. -/
def reference (block : BibBlock) (type : BitVec 16) : Except BibError ReferenceContents :=
  (block.records.find? (·.type = type)).elim (.error .requiredRecord) BibRecord.reference

end BibBlock

/-! ## What the reader answers -/

/-- What a call has answered that leaves an error and an object. -/
def readAnswer {α β : Type} (contents : α → β) : BibError × Option α → Except BibError β
  | (.ok, some found) => .ok (contents found)
  | (error, _) => .error error

theorem readAnswer_ok {α β : Type} (contents : α → β) (found : α) :
    readAnswer contents (.ok, some found) = .ok (contents found) := rfl

theorem readAnswer_error {α β : Type} (contents : α → β) {error : BibError} (herror : error ≠ .ok)
    (found : Option α) : readAnswer contents (error, found) = .error error := by
  cases error with
  | ok => exact absurd rfl herror
  | _ => rfl

/-- The answer to a request for a record, with the object as it was before. -/
def readRecord (p : Memory) (view : BibView) (prior : BibRecordView) (index : BitVec 32) :
    Except BibError BibRecord :=
  readAnswer (decodedRecord p) (bibReaderRecord (some view) index (some prior)).value

def readReference (p : Memory) (view : BibView) (prior : BibReferenceView) (type : BitVec 16) :
    Except BibError ReferenceContents :=
  readAnswer (·.contents p) (bibReaderFindReference (some view) type (some prior)).value

/-- The open view answers whatever it is asked as the block does. -/
structure BibView.Answers (view : BibView) (p : Memory) (block : BibBlock) : Prop where
  flags : view.flags = block.flags
  bootId : view.bootId = block.bootId
  producerId : view.producerId = block.producerId
  createdCounter : view.createdCounter = block.createdCounter
  record : ∀ prior index, readRecord p view prior index = block.record index
  reference : ∀ prior type, readReference p view prior type = block.reference type

/-! ## Records -/

theorem holds_decodedPayload (p : Memory) (record : BibRecordView) :
    p.Holds record.payload (decodedRecord p record).payload := by
  rw [Holds, decodedRecord, length_slice]

theorem length_decodedPayload (p : Memory) (record : BibRecordView) :
    (decodedRecord p record).payload.length = record.payloadLength.toNat :=
  length_slice _ _ _

/-- Decoding a reference in the buffer is decoding the payload. -/
theorem decodeReference_contents (p : Memory) (record : BibRecordView) :
    (decodeReference p record).value.map (·.contents p) = (decodedRecord p record).reference := by
  have hholds := holds_decodedPayload p record
  have hlength := length_decodedPayload p record
  rw [decodeReference_eq, BibRecord.reference]
  simp only [hlength]
  by_cases hshort : record.payloadLength.toNat < 40
  · rw [if_pos hshort, if_pos hshort]
    rfl
  have h32 : ∀ first, first + 4 ≤ 40 → p.load32 (record.payload + first) =
      (ofList (decodedRecord p record).payload).load32 first :=
    fun first hfirst => hholds.load32_inside (by omega)
  have h64 : ∀ first, first + 8 ≤ 40 → p.load64 (record.payload + first) =
      (ofList (decodedRecord p record).payload).load64 first :=
    fun first hfirst => hholds.load64_inside (by omega)
  rw [if_neg hshort, if_neg hshort, declaredIntegrity, ← h32 36 (by decide)]
  by_cases hlong : record.payloadLength.toNat < 40 + (p.load32 (record.payload + 36)).toNat
  · rw [if_pos hlong, if_pos hlong]
    rfl
  have hintegrity : ((decodedRecord p record).payload.drop 40).take
      (p.load32 (record.payload + 36)).toNat =
      p.slice (record.payload + 40) (p.load32 (record.payload + 36)).toNat :=
    take_drop_slice (by omega)
  rw [if_neg hlong, if_neg hlong, Except.map, hintegrity, ← h64 0 (by decide), ← h64 8 (by decide),
    ← h64 16 (by decide), ← h32 24 (by decide), ← h32 28 (by decide), ← h32 32 (by decide)]
  rfl

/-! ## The block an image describes -/

/-- The records of an image as values. -/
def imageContents (p : Memory) : List BibRecord := (imageRecords p).map (decodedRecord p)

theorem ImageRecordsAccepted.readRecord_eq (haccepted : ImageRecordsAccepted p)
    (prior : BibRecordView) (index : BitVec 32) :
    readRecord p (viewOf p) prior index =
      (imageContents p)[index.toNat]?.elim (.error .tlvBounds) .ok := by
  have hlength : (imageRecords p).length = (p.load32 52).toNat := length_recordViewsFrom _ _
  rw [imageContents, List.getElem?_map]
  by_cases hindex : index.toNat < (imageRecords p).length
  · have hread := bibReaderRecord_of_accepted haccepted prior index.toNat hindex
    rw [BitVec.ofNat_toNat, BitVec.setWidth_eq] at hread
    rw [readRecord, hread, readAnswer_ok, List.getElem?_eq_getElem hindex]
    rfl
  · have hge : index ≥ (viewOf p).tlvCount := by
      change p.load32 52 ≤ index
      rw [BitVec.le_def]
      omega
    have hbuffer : (viewOf p).buffer = some p := rfl
    have hread : (bibReaderRecord (some (viewOf p)) index (some prior)).value =
        (.tlvBounds, some prior) := by
      simp only [bibReaderRecord, hbuffer]
      rw [if_pos hge]
      rfl
    rw [readRecord, hread, readAnswer_error _ (by decide),
      List.getElem?_eq_none (Nat.not_lt.mp hindex)]
    rfl

theorem lookupReference_contents (p : Memory) (type : BitVec 16) (records : List BibRecordView) :
    (lookupReference p type records).map (·.contents p) =
      ((records.map (decodedRecord p)).find? (·.type = type)).elim (.error .requiredRecord)
        BibRecord.reference := by
  have hfind : (records.map (decodedRecord p)).find? (·.type = type) =
      (records.find? fun record => record.type = type).map (decodedRecord p) :=
    List.find?_map
  rw [lookupReference, hfind]
  cases records.find? fun record => record.type = type with
  | none => rfl
  | some record => exact decodeReference_contents p record

theorem ImageRecordsAccepted.readReference_eq (haccepted : ImageRecordsAccepted p)
    (prior : BibReferenceView) (type : BitVec 16) :
    readReference p (viewOf p) prior type =
      ((imageContents p).find? (·.type = type)).elim (.error .requiredRecord)
        BibRecord.reference := by
  rw [readReference, bibReaderFindReference_of_accepted haccepted, imageContents,
    ← lookupReference_contents]
  cases hlookup : lookupReference p type (imageRecords p) with
  | error error =>
      have hne : error ≠ .ok := fun heq => lookupReference_ne_error_ok p type _ (heq ▸ hlookup)
      exact readAnswer_error _ hne _
  | ok reference => rfl

/-- An accepted image answers as a block with its header fields and its records. -/
theorem ImageRecordsAccepted.answers (haccepted : ImageRecordsAccepted p) {block : BibBlock}
    (hflags : block.flags = p.load16 14) (hboot : block.bootId = p.load64 24)
    (hproducer : block.producerId = p.load64 32) (hcounter : block.createdCounter = p.load64 40)
    (hrecords : block.records = imageContents p) : (viewOf p).Answers p block := by
  refine ⟨hflags.symm, hboot.symm, hproducer.symm, hcounter.symm, ?_, ?_⟩
  · intro prior index
    rw [haccepted.readRecord_eq, BibBlock.record, hrecords]
  · intro prior type
    rw [haccepted.readReference_eq, BibBlock.reference, hrecords]

/-! ## Its records are acceptable and fit -/

/-- What the record loop asks of a view it asks of the record as a value. -/
theorem RecordChecked.passes {record : BibRecordView} (hchecked : RecordChecked p record) :
    (decodedRecord p record).Passes := by
  have hholds := holds_decodedPayload p record
  have hlength := length_decodedPayload p record
  refine ⟨hchecked.known_or_optional.imp_left (knownType_iff _).mp, fun hrequired => ?_⟩
  obtain ⟨hfixed, hrange⟩ := checkRequiredReference_ok_iff.mp hchecked.reference hrequired
  rw [hholds.load64_inside (by omega), hholds.load64_inside (by omega)] at hrange
  rw [hlength]
  exact ⟨hfixed, hrange⟩

theorem countType_imageContents (type : BitVec 16) :
    countType type (imageContents p) = viewCount type (imageRecords p) :=
  List.countP_map

theorem ImageRecordsAccepted.recordsAcceptable (haccepted : ImageRecordsAccepted p) :
    RecordsAcceptable (imageContents p) := by
  have hpasses : ∀ record ∈ imageContents p, record.Passes := by
    intro record hrecord
    obtain ⟨view, hview, rfl⟩ := List.mem_map.mp hrecord
    exact (haccepted.checked view hview).passes
  refine ⟨fun record hrecord => (hpasses record hrecord).known_or_optional, ?_, ?_,
    fun record hrecord => (hpasses record hrecord).reference⟩
  · rw [countType_imageContents, haccepted.one_service]
  · rw [countType_imageContents, haccepted.one_memory]

/-- The padded form of a record is no longer than the record that was read. -/
theorem RecordsLie.recordsSize_le {totalLength offset last : Nat} {views : List BibRecordView}
    (hlie : RecordsLie p totalLength offset views last) :
    offset + recordsSize (views.map (decodedRecord p)) ≤ last := by
  induction hlie with
  | nil offset => exact le_rfl
  | @cons offset last records fits rest ih =>
      have hpayload := fits.payload_le
      have haligned := fits.aligned
      have hlength : (decodedRecord p (recordViewAt p offset)).payload.length =
          (p.load32 (offset + 8)).toNat := length_decodedPayload _ _
      rw [List.map_cons, recordsSize_cons, BibRecord.size, hlength]
      omega

theorem ImageRecordsAccepted.recordsSize_le (haccepted : ImageRecordsAccepted p) :
    64 + recordsSize (imageContents p) ≤ (p.load32 16).toNat := by
  have hle := haccepted.lie.recordsSize_le
  have hge := haccepted.offset_ge
  rw [imageContents]
  omega

end Atarix
