import Atarix.Bib.Canonical
import Atarix.Bib.Corruption

/-! # Inserting a record that old consumers skip

A block with one more optional record of an unknown type, anywhere among its
records, is accepted as before: the records behind it move, and nothing that a
consumer looks up by a known type changes.
-/

namespace Atarix

open Memory

variable {p q : Memory} {prior opened : BibView} {windowLength : Nat}

/-! ## Records that were moved -/

/-- The record `distance` bytes further behind. -/
def BibRecordView.moved (record : BibRecordView) (distance : Nat) : BibRecordView :=
  { record with payload := record.payload + distance }

/-- The payload of a record of `p`, `distance` bytes further behind in `q`. -/
def PayloadMoved (p q : Memory) (distance : Nat) (record : BibRecordView) : Prop :=
  ∀ step < record.payloadLength.toNat,
    q (record.payload + step + distance) = p (record.payload + step)

namespace RecordsLie

variable {totalLength offset last : Nat} {records : List BibRecordView}

theorem le_last (hlie : RecordsLie p totalLength offset records last) : offset ≤ last := by
  induction hlie with
  | nil offset => exact le_rfl
  | cons fits rest ih => exact (Nat.le_add_right _ _).trans ih

/-- The payloads lie between the two ends. -/
theorem payload_inside (hlie : RecordsLie p totalLength offset records last) :
    ∀ record ∈ records, offset ≤ record.payload ∧
      record.payload + record.payloadLength.toNat ≤ last := by
  induction hlie with
  | nil offset => simp
  | @cons offset last records fits rest ih =>
      have hpayload := fits.payload_le
      have hlast := rest.le_last
      refine List.forall_mem_cons.mpr ⟨?_, fun record hrecord => ?_⟩
      · simp only [recordViewAt]
        omega
      · obtain ⟨hfirst, hinside⟩ := ih record hrecord
        omega

theorem length_le (hlie : RecordsLie p totalLength offset records last) :
    offset + 16 * records.length ≤ last := by
  induction hlie with
  | nil offset => exact le_rfl
  | cons fits rest ih =>
      have hheader := fits.header_le
      rw [List.length_cons]
      omega

theorem append {middle : Nat} {others : List BibRecordView}
    (hfirst : RecordsLie p totalLength offset records middle)
    (hsecond : RecordsLie p totalLength middle others last) :
    RecordsLie p totalLength offset (records ++ others) last := by
  induction hfirst with
  | nil offset => exact hsecond
  | cons fits rest ih => exact .cons fits (ih hsecond)

/-- Records that lie behind one another part at any of them. -/
theorem split (hlie : RecordsLie p totalLength offset records last) (index : Nat) :
    RecordsLie p totalLength offset (records.take index)
      (offset + ((records.take index).map (·.serializedLength.toNat)).sum) ∧
    RecordsLie p totalLength (offset + ((records.take index).map (·.serializedLength.toNat)).sum)
      (records.drop index) last := by
  induction hlie generalizing index with
  | nil offset => simpa using RecordsLie.nil offset
  | @cons offset last records fits rest ih =>
      cases index with
      | zero => exact ⟨.nil offset, .cons fits rest⟩
      | succ index =>
          obtain ⟨hfirst, hsecond⟩ := ih index
          rw [List.take_succ_cons, List.drop_succ_cons, List.map_cons, List.sum_cons]
          rw [Nat.add_assoc] at hfirst hsecond
          exact ⟨.cons fits hfirst, hsecond⟩

/-- The same bytes further behind are the same records there. -/
theorem moved (hlie : RecordsLie p totalLength offset records last) {distance total : Nat}
    (heq : ∀ index, offset ≤ index → index < last → q (index + distance) = p index)
    (htotal : totalLength + distance ≤ total) :
    RecordsLie q total (offset + distance) (records.map (·.moved distance)) (last + distance) := by
  induction hlie with
  | nil offset => exact .nil _
  | @cons offset last records fits rest ih =>
      have hlast := rest.le_last
      have hbody := fits.header_le
      have hword : ∀ first, first + 4 ≤ 16 →
          q.load32 (offset + distance + first) = p.load32 (offset + first) := by
        intro first hfirst
        refine load32_congr fun step hstep => ?_
        rw [← heq _ (by omega) (by omega)]
        exact congrArg q (by omega)
      have hhalf : ∀ first, first + 2 ≤ 16 →
          q.load16 (offset + distance + first) = p.load16 (offset + first) := by
        intro first hfirst
        refine load16_congr fun step hstep => ?_
        rw [← heq _ (by omega) (by omega)]
        exact congrArg q (by omega)
      have hview : recordViewAt q (offset + distance) = (recordViewAt p offset).moved distance := by
        have htype := hhalf 0 (by omega)
        rw [Nat.add_zero, Nat.add_zero] at htype
        rw [recordViewAt, htype, hhalf 2 (by omega), hword 4 (by omega), hword 8 (by omega)]
        simp only [BibRecordView.moved, recordViewAt, BibRecordView.mk.injEq, and_true, true_and]
        omega
      have hrest := ih fun index hfirst hindex => heq index (by omega) hindex
      have hnext : offset + (p.load32 (offset + 4)).toNat + distance =
          offset + distance + (q.load32 (offset + distance + 4)).toNat := by
        rw [hword 4 (by omega)]
        omega
      rw [hnext] at hrest
      rw [List.map_cons, ← hview]
      refine .cons ⟨?_, ?_, ?_, ?_, ?_, ?_⟩ hrest
      case refine_1 => rw [hword 4 (by omega)]; exact fits.header_le
      case refine_2 => rw [hword 4 (by omega)]; exact fits.aligned
      case refine_3 =>
        have hend := fits.le_total
        rw [hword 4 (by omega)]
        omega
      case refine_4 => rw [hword 4 (by omega), hword 8 (by omega)]; exact fits.payload_le
      case refine_5 => rw [hhalf 2 (by omega)]; exact fits.flags_known
      case refine_6 => rw [hword 12 (by omega)]; exact fits.reserved

end RecordsLie

/-! ## What moved payloads say -/

/-- A decoded reference, with the integrity bytes in place of where they lie. -/
structure ReferenceContents where
  objectId : BitVec 64
  address : BitVec 64
  length : BitVec 64
  formatMajor : BitVec 32
  formatMinor : BitVec 32
  integrityKind : BitVec 32
  integrity : List (BitVec 8)
deriving DecidableEq, Repr

def BibReferenceView.contents (p : Memory) (reference : BibReferenceView) : ReferenceContents where
  objectId := reference.objectId
  address := reference.address
  length := reference.length
  formatMajor := reference.formatMajor
  formatMinor := reference.formatMinor
  integrityKind := reference.integrityKind
  integrity := p.slice reference.integrity reference.integrityLength.toNat

namespace PayloadMoved

variable {distance : Nat} {record : BibRecordView}

theorem load64 (hmoved : PayloadMoved p q distance record) {first : Nat}
    (hfirst : first + 8 ≤ record.payloadLength.toNat) :
    q.load64 (record.payload + distance + first) = p.load64 (record.payload + first) := by
  refine load64_congr fun step hstep => ?_
  rw [Nat.add_assoc record.payload first, ← hmoved (first + step) (by omega)]
  exact congrArg q (by omega)

theorem load32 (hmoved : PayloadMoved p q distance record) {first : Nat}
    (hfirst : first + 4 ≤ record.payloadLength.toNat) :
    q.load32 (record.payload + distance + first) = p.load32 (record.payload + first) := by
  refine load32_congr fun step hstep => ?_
  rw [Nat.add_assoc record.payload first, ← hmoved (first + step) (by omega)]
  exact congrArg q (by omega)

theorem recordChecked (hmoved : PayloadMoved p q distance record)
    (hchecked : RecordChecked p record) : RecordChecked q (record.moved distance) := by
  refine ⟨hchecked.known_or_optional, checkRequiredReference_ok_iff.mpr fun hrequired => ?_⟩
  obtain ⟨hlength, hrange⟩ := checkRequiredReference_ok_iff.mp hchecked.reference hrequired
  refine ⟨hlength, ?_⟩
  change (q.load64 (record.payload + distance + 8)).toNat +
    (q.load64 (record.payload + distance + 16)).toNat < 2 ^ 64
  rwa [hmoved.load64 (by omega), hmoved.load64 (by omega)]

theorem decodedRecord_eq (hmoved : PayloadMoved p q distance record) :
    decodedRecord q (record.moved distance) = decodedRecord p record := by
  have hpayload : q.slice (record.payload + distance) record.payloadLength.toNat =
      p.slice record.payload record.payloadLength.toNat := by
    simp only [slice, List.map_inj_left, List.mem_range]
    intro step hstep
    rw [← hmoved step hstep]
    exact congrArg q (by omega)
  rw [decodedRecord, decodedRecord, ← hpayload]
  rfl

/-- A moved reference decodes to the same contents. -/
theorem decodeReference_contents (hmoved : PayloadMoved p q distance record) :
    (decodeReference q (record.moved distance)).value.map (·.contents q) =
      (decodeReference p record).value.map (·.contents p) := by
  rw [decodeReference_eq, decodeReference_eq]
  change Except.map _ (if record.payloadLength.toNat < 40 then _
    else if record.payloadLength.toNat < 40 + declaredIntegrity q (record.moved distance) then _
    else _) = _
  by_cases hshort : record.payloadLength.toNat < 40
  · rw [if_pos hshort, if_pos hshort]
    rfl
  have hword : q.load32 (record.payload + distance + 36) = p.load32 (record.payload + 36) :=
    hmoved.load32 (by omega)
  have hdeclared : declaredIntegrity q (record.moved distance) = declaredIntegrity p record :=
    congrArg BitVec.toNat hword
  rw [if_neg hshort, if_neg hshort, hdeclared]
  by_cases hlong : record.payloadLength.toNat < 40 + declaredIntegrity p record
  · rw [if_pos hlong, if_pos hlong]
    rfl
  have hview : (referenceViewAt q (record.moved distance).payload).contents q =
      (referenceViewAt p record.payload).contents p := by
    have hobject : q.load64 (record.payload + distance + 0) = p.load64 (record.payload + 0) :=
      hmoved.load64 (by omega)
    have hintegrity : q.slice (record.payload + distance + 40)
        (p.load32 (record.payload + 36)).toNat =
        p.slice (record.payload + 40) (p.load32 (record.payload + 36)).toNat := by
      simp only [slice, List.map_inj_left, List.mem_range]
      intro step hstep
      rw [declaredIntegrity] at hlong
      rw [Nat.add_assoc record.payload 40, ← hmoved (40 + step) (by omega)]
      exact congrArg q (by omega)
    simp only [BibReferenceView.contents, referenceViewAt, BibRecordView.moved, hword, hintegrity,
      ReferenceContents.mk.injEq, and_true]
    exact ⟨hobject, hmoved.load64 (by omega), hmoved.load64 (by omega), hmoved.load32 (by omega),
      hmoved.load32 (by omega), hmoved.load32 (by omega)⟩
  rw [if_neg hlong, if_neg hlong, Except.map, Except.map, hview]

end PayloadMoved

/-! ## The image with one more record -/

/-- Where the record with an index starts; behind the last one, the end of the block. -/
def recordPosition (p : Memory) (index : Nat) : Nat :=
  (p.load32 48).toNat + (((imageRecords p).take index).map (·.serializedLength.toNat)).sum

/-- The image with an encoded record inserted, its length and its record count
adapted. -/
def spliceRecord (p : Memory) (index : Nat) (record : BibRecord) : Memory :=
  ((p.insert (recordPosition p index) record.encode).write 16
    (le32 (p.load32 16 + BitVec.ofNat 32 record.size))).write 52 (le32 (p.load32 52 + 1))

/-- The image with an encoded record inserted and its checksum computed anew. -/
def insertRecord (p : Memory) (index : Nat) (record : BibRecord) : Memory :=
  (spliceRecord p index record).write 20 (le32 (crc32cWithZeroedField (spliceRecord p index record)
    (p.load32 16 + BitVec.ofNat 32 record.size)).value)

/-- A record that consumers without knowledge of its type skip. -/
structure BibRecord.Skippable (record : BibRecord) : Prop where
  unknown : ¬ knownType record.type
  flags_known : bibTlvFlagsAreKnown record.flags
  optional : record.flags &&& bibTlvFlagMandatory = 0

section Inserted

variable {index : Nat} {record : BibRecord}

/-- The header of the image but for its length, its checksum and its record count. -/
theorem insertRecord_header (hposition : 64 ≤ recordPosition p index) {offset : Nat}
    (hheader : offset < 16 ∨ 24 ≤ offset ∧ offset < 52 ∨ 56 ≤ offset ∧ offset < 64) :
    insertRecord p index record offset = p offset := by
  rw [insertRecord, write_of_outside (by simp; omega), spliceRecord,
    write_of_outside (by simp; omega), write_of_outside (by simp; omega),
    insert_of_lt (by omega)]

/-- The record area is the old one with the record inserted. -/
theorem insertRecord_area {offset : Nat} (harea : 64 ≤ offset) :
    insertRecord p index record offset =
      p.insert (recordPosition p index) record.encode offset := by
  rw [insertRecord, write_of_outside (by simp; omega), spliceRecord,
    write_of_outside (by simp; omega), write_of_outside (by simp; omega)]

theorem insertRecord_totalLength (p : Memory) (index : Nat) (record : BibRecord) :
    (insertRecord p index record).load32 16 = p.load32 16 + BitVec.ofNat 32 record.size := by
  apply holds_le32_iff.mp
  rw [insertRecord, holds_write_of_disjoint (by simp), spliceRecord,
    holds_write_of_disjoint (by simp)]
  exact holds_write_same _ _ _

theorem insertRecord_tlvCount (p : Memory) (index : Nat) (record : BibRecord) :
    (insertRecord p index record).load32 52 = p.load32 52 + 1 := by
  apply holds_le32_iff.mp
  rw [insertRecord, holds_write_of_disjoint (by simp), spliceRecord]
  exact holds_write_same _ _ _

theorem insertRecord_crc (p : Memory) (index : Nat) (record : BibRecord) :
    (insertRecord p index record).load32 20 =
      (crc32cWithZeroedField (insertRecord p index record)
        ((insertRecord p index record).load32 16)).value := by
  have hstored : (insertRecord p index record).load32 20 = _ :=
    holds_le32_iff.mp (holds_write_same _ _ _)
  rw [hstored, insertRecord_totalLength]
  apply crc32cWithZeroedField_congr
  intro offset _ hoff
  exact (write_of_outside (by simp; omega)).symm

theorem insertRecord_header32 (hposition : 64 ≤ recordPosition p index) {offset : Nat}
    (hheader : offset + 4 ≤ 16 ∨ 24 ≤ offset ∧ offset + 4 ≤ 52 ∨ 56 ≤ offset ∧ offset + 4 ≤ 64) :
    (insertRecord p index record).load32 offset = p.load32 offset :=
  load32_congr fun step hstep => insertRecord_header hposition (by omega)

theorem insertRecord_header16 (hposition : 64 ≤ recordPosition p index) {offset : Nat}
    (hheader : offset + 2 ≤ 16) :
    (insertRecord p index record).load16 offset = p.load16 offset :=
  load16_congr fun step hstep => insertRecord_header hposition (by omega)

/-- The old and the new length. -/
theorem insertRecord_total {total : Nat} (htotal : (p.load32 16).toNat + record.size = total)
    (hlt : total < 2 ^ 32) : ((insertRecord p index record).load32 16).toNat = total := by
  rw [insertRecord_totalLength, BitVec.toNat_add, BitVec.toNat_ofNat,
    Nat.mod_eq_of_lt (by omega : record.size < 2 ^ 32), htotal]
  exact Nat.mod_eq_of_lt hlt

theorem insertRecord_headerAccepted (hheader : HeaderAccepted p windowLength)
    (hposition : 64 ≤ recordPosition p index) {window : Nat}
    (hmax : (p.load32 16).toNat + record.size ≤ 65536)
    (hwindow : (p.load32 16).toNat + record.size ≤ window) :
    HeaderAccepted (insertRecord p index record) window := by
  have htotal : ((insertRecord p index record).load32 16).toNat =
      (p.load32 16).toNat + record.size := insertRecord_total rfl (by omega)
  have haligned := record.size_aligned
  have hold := hheader.total_aligned
  have hge := hheader.total_ge
  refine ⟨?_, ?_, ?_, ?_, ?_, ?_, ?_, insertRecord_crc p index record, ?_, ?_⟩
  case refine_1 =>
    rw [← hheader.magic]
    exact slice_congr fun step hstep => insertRecord_header hposition (by omega)
  case refine_2 => rw [insertRecord_header16 hposition (by omega), hheader.version]
  case refine_3 => rw [insertRecord_header16 hposition (by omega), hheader.header_length]
  case refine_4 => omega
  case refine_5 => omega
  case refine_6 => omega
  case refine_7 => omega
  case refine_8 =>
    rw [insertRecord_header16 hposition (by omega)]
    exact hheader.flags_known
  case refine_9 =>
    rw [← hheader.reserved]
    exact load64_congr fun step hstep => insertRecord_header hposition (by omega)

end Inserted

/-! ## The records of the new image -/

/-- The records of `q` are those of `p` with one encoded record among them. -/
structure IsInsertion (p q : Memory) (before after : List BibRecordView) (record : BibRecord)
    (position : Nat) : Prop where
  old : imageRecords p = before ++ after
  new : imageRecords q = before ++ record.view position :: after.map (·.moved record.size)
  kept : ∀ other ∈ before, PayloadMoved p q 0 other
  moved : ∀ other ∈ after, PayloadMoved p q record.size other
  holds : q.Holds position record.encode
  size_lt : record.size < 2 ^ 32

@[simp] theorem BibRecordView.moved_zero (record : BibRecordView) : record.moved 0 = record := rfl

section Records

variable {index : Nat} {record : BibRecord}

/-- An accepted image parts at any of its records. -/
theorem ImageRecordsAccepted.split (haccepted : ImageRecordsAccepted p) (index : Nat) :
    RecordsLie p (p.load32 16).toNat (p.load32 48).toNat ((imageRecords p).take index)
      (recordPosition p index) ∧
    RecordsLie p (p.load32 16).toNat (recordPosition p index) ((imageRecords p).drop index)
      (p.load32 16).toNat :=
  haccepted.lie.split index

theorem ImageRecordsAccepted.le_recordPosition (haccepted : ImageRecordsAccepted p) (index : Nat) :
    64 ≤ recordPosition p index ∧ recordPosition p index ≤ (p.load32 16).toNat := by
  obtain ⟨hfirst, hsecond⟩ := haccepted.split index
  exact ⟨haccepted.offset_ge.trans hfirst.le_last, hsecond.le_last⟩

theorem insertRecord_holds (haccepted : ImageRecordsAccepted p) (index : Nat) (record : BibRecord) :
    (insertRecord p index record).Holds (recordPosition p index) record.encode := by
  have hposition := (haccepted.le_recordPosition index).1
  rw [Holds, slice_congr fun step hstep => insertRecord_area (by omega)]
  exact holds_insert_same _ _ _

/-- A byte in front of the inserted record keeps its place. -/
theorem insertRecord_before {offset : Nat} (harea : 64 ≤ offset)
    (hbefore : offset < recordPosition p index) :
    insertRecord p index record offset = p offset := by
  rw [insertRecord_area harea, insert_of_lt hbefore]

/-- A byte behind the inserted record is moved by its size. -/
theorem insertRecord_behind {offset : Nat} (hposition : 64 ≤ recordPosition p index)
    (hbehind : recordPosition p index ≤ offset) :
    insertRecord p index record (offset + record.size) = p offset := by
  rw [insertRecord_area (by omega), ← record.length_encode, insert_of_le hbehind]

/-- The new image holds the old records, in the old place or moved, and the new one. -/
theorem insertRecord_lie (haccepted : ImageRecordsAccepted p) (hskip : record.Skippable)
    (hmax : (p.load32 16).toNat + record.size ≤ 65536) :
    RecordsLie (insertRecord p index record) ((p.load32 16).toNat + record.size)
      (p.load32 48).toNat
      ((imageRecords p).take index ++ record.view (recordPosition p index) ::
        ((imageRecords p).drop index).map (·.moved record.size))
      ((p.load32 16).toNat + record.size) := by
  obtain ⟨hge, hle⟩ := haccepted.le_recordPosition index
  have hoffset := haccepted.offset_ge
  obtain ⟨hfirst, hsecond⟩ := haccepted.split index
  have hholds := insertRecord_holds haccepted index record
  have hkept : RecordsLie (insertRecord p index record) ((p.load32 16).toNat + record.size)
      (p.load32 48).toNat ((imageRecords p).take index) (recordPosition p index) := by
    have hbytes : ∀ offset, (p.load32 48).toNat ≤ offset → offset < recordPosition p index →
        insertRecord p index record (offset + 0) = p offset :=
      fun offset hlow hhigh => insertRecord_before (by omega) hhigh
    have hzero := hfirst.moved hbytes (Nat.le_add_right _ record.size)
    simp only [BibRecordView.moved_zero, List.map_id', Nat.add_zero] at hzero
    exact hzero
  have hbytes : ∀ offset, recordPosition p index ≤ offset → offset < (p.load32 16).toNat →
      insertRecord p index record (offset + record.size) = p offset :=
    fun offset hlow _ => insertRecord_behind hge hlow
  have hmoved := hsecond.moved hbytes le_rfl
  have hsize : ((insertRecord p index record).load32 (recordPosition p index + 4)).toNat =
      record.size := by
    obtain ⟨-, -, hsize, -⟩ := record.holds_encode.mp hholds
    rw [hsize.load32]
    exact Nat.mod_eq_of_lt (by omega)
  have hfits : BibRecordFits (insertRecord p index record) ((p.load32 16).toNat + record.size)
      (recordPosition p index) :=
    BibRecord.fits hholds hskip.flags_known (by omega) (by omega)
  have hview := BibRecord.recordViewAt_eq hholds
  refine hkept.append ?_
  rw [← hview]
  refine .cons hfits ?_
  rw [hsize]
  exact hmoved

theorem insertRecord_isInsertion (haccepted : ImageRecordsAccepted p) (hskip : record.Skippable)
    (hindex : index ≤ (imageRecords p).length)
    (hmax : (p.load32 16).toNat + record.size ≤ 65536) :
    IsInsertion p (insertRecord p index record) ((imageRecords p).take index)
      ((imageRecords p).drop index) record (recordPosition p index) := by
  obtain ⟨hge, hle⟩ := haccepted.le_recordPosition index
  obtain ⟨hfirst, hsecond⟩ := haccepted.split index
  have hoffset := haccepted.offset_ge
  refine ⟨(List.take_append_drop _ _).symm, ?_, ?_, ?_, insertRecord_holds haccepted index record,
    by omega⟩
  case refine_1 =>
    have hlie : RecordsLie (insertRecord p index record) _ _
      ((imageRecords p).take index ++ _) _ := insertRecord_lie haccepted hskip hmax
    have hlength := haccepted.lie.length_le
    have hcount : (imageRecords p).length = (p.load32 52).toNat := length_recordViewsFrom _ _
    have hadded : (p.load32 52 + 1).toNat = (p.load32 52).toNat + 1 := by
      rw [BitVec.toNat_add]
      exact Nat.mod_eq_of_lt (by change _ + 1 < _; omega)
    have hall : ((imageRecords p).take index ++ record.view (recordPosition p index) ::
        ((imageRecords p).drop index).map (·.moved record.size)).length =
        (p.load32 52).toNat + 1 := by
      rw [List.length_append, List.length_cons, List.length_map, List.length_take,
        List.length_drop]
      omega
    rw [hlie.eq_recordViewsFrom, hall, imageRecords, insertRecord_tlvCount, hadded,
      insertRecord_header32 hge (by omega)]
  case refine_2 =>
    intro other hother step hstep
    obtain ⟨hlow, hhigh⟩ := hfirst.payload_inside other hother
    exact insertRecord_before (by omega) (by omega)
  case refine_3 =>
    intro other hother step hstep
    obtain ⟨hlow, hhigh⟩ := hsecond.payload_inside other hother
    exact insertRecord_behind hge (by omega)

end Records

/-! ## What consumers see -/

namespace IsInsertion

variable {before after : List BibRecordView} {record : BibRecord} {position : Nat}

/-- The old records with the new one among them. -/
theorem decodedRecords (hinsertion : IsInsertion p q before after record position) :
    (imageRecords q).map (decodedRecord q) =
      before.map (decodedRecord p) ++ record :: after.map (decodedRecord p) := by
  obtain ⟨-, -, -, -, -, hpayload, -⟩ := record.holds_encode.mp hinsertion.holds
  have hkept : before.map (decodedRecord q) = before.map (decodedRecord p) :=
    List.map_congr_left fun other hother => (hinsertion.kept other hother).decodedRecord_eq
  have hmoved : (after.map (·.moved record.size)).map (decodedRecord q) =
      after.map (decodedRecord p) := by
    rw [List.map_map]
    exact List.map_congr_left fun other hother => (hinsertion.moved other hother).decodedRecord_eq
  have hnew : decodedRecord q (record.view position) = record := by
    rw [decodedRecord, BibRecord.view_payloadLength hinsertion.size_lt]
    change (⟨record.type, record.flags, q.slice (position + 16) record.payload.length⟩ :
      BibRecord) = record
    rw [show q.slice (position + 16) record.payload.length = record.payload from hpayload]
  rw [hinsertion.new, List.map_append, List.map_cons, hkept, hmoved, hnew]

/-- The first record of another type is the old one, in its place or moved. -/
theorem lookupReference_contents (hinsertion : IsInsertion p q before after record position)
    {type : BitVec 16} (hother : record.type ≠ type) :
    (lookupReference q type (imageRecords q)).map (·.contents q) =
      (lookupReference p type (imageRecords p)).map (·.contents p) := by
  have hskip : ¬ (record.view position).type = type := hother
  rw [lookupReference, lookupReference, hinsertion.new, hinsertion.old, List.find?_append,
    List.find?_append, List.find?_cons, decide_eq_false hskip]
  cases hfirst : before.find? (·.type = type) with
  | some first =>
      exact (hinsertion.kept first (List.mem_of_find?_eq_some hfirst)).decodeReference_contents
  | none =>
      rw [List.find?_map]
      change Except.map _ (Option.elim (Option.or none
        (Option.map _ (after.find? (·.type = type)))) _ _) = _
      cases hfirst' : after.find? (·.type = type) with
      | some first =>
          have hmem := List.mem_of_find?_eq_some hfirst'
          exact (hinsertion.moved first hmem).decodeReference_contents
      | none => simp only [Option.map_none, Option.or_none, Option.elim_none, Except.map]

theorem recordChecked (hinsertion : IsInsertion p q before after record position)
    (hskip : record.Skippable) (hchecked : ∀ other ∈ imageRecords p, RecordChecked p other) :
    ∀ other ∈ imageRecords q, RecordChecked q other := by
  rw [hinsertion.old] at hchecked
  rw [hinsertion.new]
  intro other hother
  rcases List.mem_append.mp hother with hbefore | hother
  · exact (hinsertion.kept other hbefore).recordChecked
      (hchecked other (List.mem_append_left _ hbefore))
  rcases List.mem_cons.mp hother with rfl | hafter
  · refine ⟨.inr hskip.optional, checkRequiredReference_ok_iff.mpr fun hrequired => ?_⟩
    -- a required reference would be of a known type
    have hknown : knownType record.type := by
      rcases hrequired with htype | htype
      all_goals
        rw [show record.type = _ from htype]
        decide
    exact absurd hknown hskip.unknown
  · obtain ⟨old, hold, rfl⟩ := List.mem_map.mp hafter
    exact (hinsertion.moved old hold).recordChecked (hchecked old (List.mem_append_right _ hold))

theorem viewCount_eq (hinsertion : IsInsertion p q before after record position)
    {type : BitVec 16} (hother : record.type ≠ type) :
    viewCount type (imageRecords q) = viewCount type (imageRecords p) := by
  have hskip : ¬ (record.view position).type = type := hother
  rw [viewCount, viewCount, hinsertion.new, hinsertion.old, List.countP_append, List.countP_append,
    List.countP_cons, decide_eq_false hskip, List.countP_map]
  rfl

end IsInsertion

theorem BibRecord.Skippable.type_ne {record : BibRecord} (hskip : record.Skippable)
    {type : BitVec 16} (hknown : knownType type) : record.type ≠ type :=
  fun heq => hskip.unknown (heq ▸ hknown)

theorem insertRecord_imageAccepted {index : Nat} {record : BibRecord}
    (haccepted : ImageRecordsAccepted p) (hskip : record.Skippable)
    (hindex : index ≤ (imageRecords p).length)
    (hmax : (p.load32 16).toNat + record.size ≤ 65536) :
    ImageRecordsAccepted (insertRecord p index record) := by
  have hge := (haccepted.le_recordPosition index).1
  have hinsertion := insertRecord_isInsertion haccepted hskip hindex hmax
  have htotal : ((insertRecord p index record).load32 16).toNat =
      (p.load32 16).toNat + record.size := insertRecord_total rfl (by omega)
  have hoffset : (insertRecord p index record).load32 48 = p.load32 48 :=
    insertRecord_header32 hge (by omega)
  have hle := haccepted.offset_le
  have hlie : RecordsLie (insertRecord p index record) _ _ ((imageRecords p).take index ++ _) _ :=
    insertRecord_lie haccepted hskip hmax
  refine ⟨?_, ?_, ?_, ?_, hinsertion.recordChecked hskip haccepted.checked, ?_, ?_⟩
  case refine_1 => rw [hoffset]; exact haccepted.offset_ge
  case refine_2 => rw [hoffset, htotal]; omega
  case refine_3 => rw [hoffset]; exact haccepted.offset_aligned
  case refine_4 => rwa [hoffset, htotal, hinsertion.new]
  case refine_5 => rw [hinsertion.viewCount_eq (hskip.type_ne (by decide)), haccepted.one_service]
  case refine_6 => rw [hinsertion.viewCount_eq (hskip.type_ne (by decide)), haccepted.one_memory]

/-- Lookups with the same contents leave the same status and the same contents. -/
theorem referenceOutcome_contents {found found' : Except BibError BibReferenceView}
    (hcontents : found'.map (·.contents q) = found.map (·.contents p)) (slot : BibReferenceView) :
    (referenceOutcome slot found').1 = (referenceOutcome slot found).1 ∧
      ((referenceOutcome slot found).1 = .ok → found ≠ .error .ok →
        (referenceOutcome slot found').2.map (·.contents q) =
          (referenceOutcome slot found).2.map (·.contents p)) := by
  cases found with
  | error error =>
      cases found' with
      | error error' =>
          obtain rfl : error' = error := Except.error.inj hcontents
          refine ⟨rfl, fun hok hne => absurd ?_ hne⟩
          obtain rfl : error' = .ok := hok
          rfl
      | ok reference' => cases hcontents
  | ok reference =>
      cases found' with
      | error error' => cases hcontents
      | ok reference' => exact ⟨rfl, fun _ _ => congrArg some (Except.ok.inj hcontents)⟩

/-- The records that the open view hands out, by their index. -/
def BibView.HandsOut (view : BibView) (p : Memory) (records : List BibRecord) : Prop :=
  ∀ index slot decoded,
    (∃ read, (bibReaderRecord (some view) index (some slot)).value = (.ok, some read) ∧
      decodedRecord p read = decoded) ↔ records[index.toNat]? = some decoded

theorem ImageRecordsAccepted.handsOut (haccepted : ImageRecordsAccepted p) :
    (viewOf p).HandsOut p ((imageRecords p).map (decodedRecord p)) := by
  intro index slot decoded
  simp only [bibReaderRecord_ok_iff haccepted, List.getElem?_map, Option.map_eq_some_iff]

/-- What a consumer sees of `q` is what it saw of `p`, with one record more at `index`. -/
structure InsertionSeen (p q : Memory) (opened view : BibView) (index : Nat)
    (record : BibRecord) : Prop where
  length : view.totalLength.toNat = opened.totalLength.toNat + record.size
  records : (imageRecords q).map (decodedRecord q) =
    ((imageRecords p).map (decodedRecord p)).take index ++
      record :: ((imageRecords p).map (decodedRecord p)).drop index
  handedOut : opened.HandsOut p ((imageRecords p).map (decodedRecord p)) ∧
    view.HandsOut q (((imageRecords p).map (decodedRecord p)).take index ++
      record :: ((imageRecords p).map (decodedRecord p)).drop index)
  references : ∀ type, knownType type → ∀ slot,
    (bibReaderFindReference (some view) type (some slot)).value.1 =
      (bibReaderFindReference (some opened) type (some slot)).value.1 ∧
    ((bibReaderFindReference (some opened) type (some slot)).value.1 = .ok →
      (bibReaderFindReference (some view) type (some slot)).value.2.map (·.contents q) =
        (bibReaderFindReference (some opened) type (some slot)).value.2.map (·.contents p))

/-- Two accepted images, one with a record inserted, look alike but for the record. -/
theorem IsInsertion.seen {record : BibRecord} {position index : Nat}
    (hinsertion : IsInsertion p q ((imageRecords p).take index) ((imageRecords p).drop index)
      record position)
    (hskip : record.Skippable) (haccepted : ImageRecordsAccepted p)
    (himage : ImageRecordsAccepted q)
    (htotal : (q.load32 16).toNat = (p.load32 16).toNat + record.size) :
    InsertionSeen p q (viewOf p) (viewOf q) index record := by
  have hrecords := hinsertion.decodedRecords
  rw [List.map_take, List.map_drop] at hrecords
  refine ⟨htotal, hrecords, ⟨haccepted.handsOut, ?_⟩, ?_⟩
  · rw [← hrecords]
    exact himage.handsOut
  · intro type hknown slot
    rw [bibReaderFindReference_of_accepted himage, bibReaderFindReference_of_accepted haccepted]
    obtain ⟨hstatus, hcontents⟩ := referenceOutcome_contents
      (hinsertion.lookupReference_contents (hskip.type_ne hknown)) slot
    exact ⟨hstatus, fun hok => hcontents hok (lookupReference_ne_error_ok p type _)⟩

/-- An accepted block stays accepted with one more optional record of an unknown type
at any place. Consumers are handed that record among the old ones, and find the
references of known types as before. -/
theorem insertRecord_compatible
    (hopen : (bibReaderOpen (some prior) (some p) windowLength).value = (.ok, some opened))
    {index : Nat} (hindex : index ≤ opened.tlvCount.toNat) {record : BibRecord}
    (hskip : record.Skippable) (hmax : opened.totalLength.toNat + record.size ≤ 65536)
    {window : Nat} (hwindow : opened.totalLength.toNat + record.size ≤ window) :
    ∃ view, (bibReaderOpen (some prior) (some (insertRecord p index record)) window).value =
        (.ok, some view) ∧
      InsertionSeen p (insertRecord p index record) opened view index record := by
  obtain ⟨haccepted, rfl⟩ := imageRecordsAccepted_of_open hopen
  obtain ⟨-, hheader, -⟩ :=
    (bibReaderOpen_ok_iff prior p windowLength).mp (congrArg Prod.fst hopen)
  have hcount : index ≤ (imageRecords p).length :=
    hindex.trans_eq (length_recordViewsFrom _ _).symm
  change (p.load32 16).toNat + record.size ≤ 65536 at hmax
  change (p.load32 16).toNat + record.size ≤ window at hwindow
  have hge := (haccepted.le_recordPosition index).1
  have hsixtyfour : 64 ≤ window :=
    hheader.total_ge.trans ((Nat.le_add_right _ _).trans hwindow)
  have htotal : ((insertRecord p index record).load32 16).toNat =
      (p.load32 16).toNat + record.size := insertRecord_total rfl (by omega)
  have himage := insertRecord_imageAccepted haccepted hskip hcount hmax
  have hinsertion := insertRecord_isInsertion haccepted hskip hcount hmax
  have hok := (bibReaderOpen_ok_iff_imageRecords prior (insertRecord p index record) window).mpr
    ⟨hsixtyfour, insertRecord_headerAccepted hheader hge hmax hwindow, himage⟩
  exact ⟨viewOf (insertRecord p index record), Prod.ext hok (bibReaderOpen_view hok),
    hinsertion.seen hskip haccepted himage htotal⟩

/-- A sensitive record of an experiment. -/
def experimentalRecord : BibRecord := ⟨BibTlv.experimentalBegin, bibTlvFlagSensitive, [1, 2, 3]⟩

/-- The record of the experiment in front of the audit log. -/
theorem insertRecord_compatible_sample :
    let p := ofList (sampleBlock 0 0x300000).encode
    let q := insertRecord p 2 experimentalRecord
    ∃ view, (bibReaderOpen (some .zero) (some q) 256).value = (.ok, some view) ∧
      view.totalLength.toNat = 256 ∧ InsertionSeen p q (viewOf p) view 2 experimentalRecord := by
  intro p q
  have hopened : (bibReaderOpen (some .zero) (some p) 232).value = (.ok, some (viewOf p)) :=
    sampleBlock_opened ⟨by decide, by decide, by decide, by decide⟩
  have htotal : (viewOf p).totalLength.toNat = 232 := by decide +kernel
  have hsize : experimentalRecord.size = 24 := rfl
  have hlength : (viewOf p).totalLength.toNat + experimentalRecord.size = 256 := by
    rw [htotal, hsize]
  have hindex : 2 ≤ (viewOf p).tlvCount.toNat := by decide +kernel
  have hskip : experimentalRecord.Skippable := ⟨by decide, by decide, by decide⟩
  obtain ⟨view, hview, hseen⟩ := insertRecord_compatible hopened hindex hskip
    (hlength.le.trans (by decide)) hlength.le
  exact ⟨view, hview, hseen.length.trans hlength, hseen⟩

end Atarix
