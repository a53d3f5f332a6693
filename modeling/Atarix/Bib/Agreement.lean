import Atarix.Bib.Records

/-! # Images that agree outside some payloads

The records of an accepted image do not overlap, and where they lie is decided by
their headers alone. So two images with the same header bytes have the same
records, and a payload reads the same as long as its own bytes agree.
-/

namespace Atarix

/-- A byte of the record's header. -/
def BibRecordView.HeaderByte (record : BibRecordView) (index : Nat) : Prop :=
  record.payload ≤ index + 16 ∧ index < record.payload

/-- A byte of the record's payload. -/
def BibRecordView.PayloadByte (record : BibRecordView) (index : Nat) : Prop :=
  record.payload ≤ index ∧ index < record.payload + record.payloadLength.toNat

variable {p q : Memory} {totalLength offset last : Nat} {records : List BibRecordView}

/-! ## Where the records lie -/

/-- A record lies between where the records start and the end of the block. -/
theorem RecordsLie.bounds (hlie : RecordsLie p totalLength offset records last)
    {record : BibRecordView} (hrecord : record ∈ records) :
    offset + 16 ≤ record.payload ∧ record.payload + record.payloadLength.toNat ≤ totalLength := by
  induction hlie with
  | nil offset => cases hrecord
  | cons fits rest ih =>
      have hpayload := fits.payload_le
      have htotal := fits.le_total
      rcases List.mem_cons.mp hrecord with rfl | hrest
      · simp only [recordViewAt]
        omega
      · obtain ⟨hfirst, hlast⟩ := ih hrest
        omega

/-- Records that share a byte are one record. -/
theorem RecordsLie.eq_of_shared (hlie : RecordsLie p totalLength offset records last)
    {record other : BibRecordView} (hrecord : record ∈ records) (hother : other ∈ records)
    {index : Nat} (hbyte : record.HeaderByte index ∨ record.PayloadByte index)
    (hbyte' : other.HeaderByte index ∨ other.PayloadByte index) : record = other := by
  unfold BibRecordView.HeaderByte BibRecordView.PayloadByte at hbyte hbyte'
  induction hlie with
  | nil offset => cases hrecord
  | cons fits rest ih =>
      have hpayload := fits.payload_le
      -- the head ends where the records behind it start
      rcases List.mem_cons.mp hrecord with rfl | hrecord
      · rcases List.mem_cons.mp hother with rfl | hother
        · rfl
        · obtain ⟨hfirst, -⟩ := rest.bounds hother
          simp only [recordViewAt] at hbyte
          omega
      · rcases List.mem_cons.mp hother with rfl | hother
        · obtain ⟨hfirst, -⟩ := rest.bounds hrecord
          simp only [recordViewAt] at hbyte'
          omega
        · exact ih hrecord hother

/-- A header byte is no payload byte, of its own record or of another one. -/
theorem RecordsLie.not_payloadByte (hlie : RecordsLie p totalLength offset records last)
    {record other : BibRecordView} (hrecord : record ∈ records) (hother : other ∈ records)
    {index : Nat} (hheader : record.HeaderByte index) : ¬ other.PayloadByte index := by
  intro hpayload
  obtain rfl := hlie.eq_of_shared hrecord hother (.inl hheader) (.inr hpayload)
  exact absurd hpayload.1 (Nat.not_le.mpr hheader.2)

/-! ## Equal headers -/

theorem recordViewAt_congr (heq : ∀ index, offset ≤ index → index < offset + 16 →
    q index = p index) : recordViewAt q offset = recordViewAt p offset := by
  have htype : q.load16 offset = p.load16 offset := by
    simp only [Memory.load16, heq offset le_rfl (by omega), heq (offset + 1) (by omega) (by omega)]
  have hflags : q.load16 (offset + 2) = p.load16 (offset + 2) := by
    simp only [Memory.load16, heq (offset + 2) (by omega) (by omega),
      heq (offset + 2 + 1) (by omega) (by omega)]
  have hlength : q.load32 (offset + 4) = p.load32 (offset + 4) :=
    Memory.load32_congr fun step hstep => heq _ (by omega) (by omega)
  have hpayload : q.load32 (offset + 8) = p.load32 (offset + 8) :=
    Memory.load32_congr fun step hstep => heq _ (by omega) (by omega)
  rw [recordViewAt, recordViewAt, htype, hflags, hlength, hpayload]

theorem BibRecordFits.congr (fits : BibRecordFits p totalLength offset)
    (heq : ∀ index, offset ≤ index → index < offset + 16 → q index = p index) :
    BibRecordFits q totalLength offset := by
  have hview := recordViewAt_congr heq
  have hlength : q.load32 (offset + 4) = p.load32 (offset + 4) :=
    congrArg BibRecordView.serializedLength hview
  have hpayload : q.load32 (offset + 8) = p.load32 (offset + 8) :=
    congrArg BibRecordView.payloadLength hview
  have hflags : q.load16 (offset + 2) = p.load16 (offset + 2) :=
    congrArg BibRecordView.flags hview
  have hreserved : q.load32 (offset + 12) = p.load32 (offset + 12) :=
    Memory.load32_congr fun step hstep => heq _ (by omega) (by omega)
  obtain ⟨hheader, haligned, htotal, hbody, hknown, hzero⟩ := fits
  rw [← hlength] at hheader haligned htotal hbody
  rw [← hpayload] at hbody
  rw [← hflags] at hknown
  rw [← hreserved] at hzero
  exact ⟨hheader, haligned, htotal, hbody, hknown, hzero⟩

/-- Records with the same header bytes lie at the same offsets. -/
theorem RecordsLie.congr (hlie : RecordsLie p totalLength offset records last)
    (heq : ∀ record ∈ records, ∀ index, record.HeaderByte index → q index = p index) :
    RecordsLie q totalLength offset records last := by
  induction hlie with
  | nil offset => exact .nil offset
  | @cons offset last records fits rest ih =>
      obtain ⟨hhead, htail⟩ := List.forall_mem_cons.mp heq
      have hheader : ∀ index, offset ≤ index → index < offset + 16 → q index = p index :=
        fun index hle hlt => hhead index ⟨Nat.add_le_add_right hle 16, hlt⟩
      have hview := recordViewAt_congr hheader
      have hlength : q.load32 (offset + 4) = p.load32 (offset + 4) :=
        congrArg BibRecordView.serializedLength hview
      -- the length in the header says where the next record lies
      apply recordsLie_cons.mpr
      refine ⟨fits.congr hheader, hview.symm, ?_⟩
      rw [hlength]
      exact ih htail

/-! ## Equal payloads -/

/-- A reference payload decodes the same if its fixed part agrees. -/
theorem decodeReference_congr {record : BibRecordView}
    (heq : 40 ≤ record.payloadLength.toNat → ∀ step < 40,
      q (record.payload + step) = p (record.payload + step)) :
    (decodeReference q record).value = (decodeReference p record).value := by
  rw [decodeReference_eq, decodeReference_eq]
  by_cases hshort : record.payloadLength.toNat < 40
  · rw [if_pos hshort, if_pos hshort]
  · have hbytes := heq (Nat.not_lt.mp hshort)
    have h64 : ∀ first, first + 8 ≤ 40 →
        q.load64 (record.payload + first) = p.load64 (record.payload + first) := by
      intro first hfirst
      refine Memory.load64_congr fun step hstep => ?_
      rw [Nat.add_assoc]
      exact hbytes (first + step) (by omega)
    have h32 : ∀ first, first + 4 ≤ 40 →
        q.load32 (record.payload + first) = p.load32 (record.payload + first) := by
      intro first hfirst
      refine Memory.load32_congr fun step hstep => ?_
      rw [Nat.add_assoc]
      exact hbytes (first + step) (by omega)
    have hobject : q.load64 record.payload = p.load64 record.payload := h64 0 (by decide)
    have hdeclared : declaredIntegrity q record = declaredIntegrity p record :=
      congrArg BitVec.toNat (h32 36 (by decide))
    have hview : referenceViewAt q record.payload = referenceViewAt p record.payload := by
      simp only [referenceViewAt, hobject, h64 8 (by decide), h64 16 (by decide),
        h32 24 (by decide), h32 28 (by decide), h32 32 (by decide), h32 36 (by decide)]
    rw [hdeclared, hview]

/-- The record loop checks the same if address and length of a reference agree. -/
theorem RecordChecked.congr {record : BibRecordView} (hchecked : RecordChecked p record)
    (heq : 40 ≤ record.payloadLength.toNat → ∀ step, 8 ≤ step → step < 24 →
      q (record.payload + step) = p (record.payload + step)) : RecordChecked q record := by
  refine ⟨hchecked.known_or_optional, checkRequiredReference_ok_iff.mpr fun hrequired => ?_⟩
  obtain ⟨hlength, hrange⟩ := checkRequiredReference_ok_iff.mp hchecked.reference hrequired
  have h64 : ∀ first, 8 ≤ first → first ≤ 16 →
      q.load64 (record.payload + first) = p.load64 (record.payload + first) := by
    intro first hle hge
    refine Memory.load64_congr fun step hstep => ?_
    rw [Nat.add_assoc]
    exact heq hlength (first + step) (by omega) (by omega)
  rw [h64 8 le_rfl (by decide), h64 16 (by decide) le_rfl]
  exact ⟨hlength, hrange⟩

/-! ## Equal block headers -/

/-- A byte of the block header outside the checksum. -/
def HeaderByte (index : Nat) : Prop := index < 64 ∧ ¬ (20 ≤ index ∧ index < 24)

/-- Words of the block header that do not touch the checksum. -/
structure SameHeader (p q : Memory) : Prop where
  bytes : ∀ index, HeaderByte index → q index = p index

namespace SameHeader

variable (hsame : SameHeader p q)
include hsame

theorem load16 (first : Nat) (hfirst : first + 2 ≤ 20 ∨ 24 ≤ first ∧ first + 2 ≤ 64) :
    q.load16 first = p.load16 first := by
  simp only [Memory.load16, hsame.bytes first ⟨by omega, by omega⟩,
    hsame.bytes (first + 1) ⟨by omega, by omega⟩]

theorem load32 (first : Nat) (hfirst : first + 4 ≤ 20 ∨ 24 ≤ first ∧ first + 4 ≤ 64) :
    q.load32 first = p.load32 first :=
  Memory.load32_congr fun step hstep => hsame.bytes _ ⟨by omega, by omega⟩

theorem load64 (first : Nat) (hfirst : first + 8 ≤ 20 ∨ 24 ≤ first ∧ first + 8 ≤ 64) :
    q.load64 first = p.load64 first :=
  Memory.load64_congr fun step hstep => hsame.bytes _ ⟨by omega, by omega⟩

theorem viewOf_eq : viewOf q = { viewOf p with buffer := some q } := by
  simp only [viewOf, hsame.load32 16 (by decide), hsame.load32 48 (by decide),
    hsame.load32 52 (by decide), hsame.load16 14 (by decide),
    hsame.load64 24 (by decide), hsame.load64 32 (by decide),
    hsame.load64 40 (by decide)]

/-- The header checks pass again, once the checksum is right. -/
theorem headerAccepted {windowLength : Nat} (haccepted : HeaderAccepted p windowLength)
    (hcrc : q.load32 20 = (crc32cWithZeroedField q (q.load32 16)).value) :
    HeaderAccepted q windowLength := by
  have htotal := hsame.load32 16 (by decide)
  have hmagic : q.slice 0 8 = p.slice 0 8 := by
    apply Memory.slice_congr
    intro index hindex
    exact hsame.bytes _ ⟨by omega, by omega⟩
  refine ⟨?_, ?_, ?_, ?_, ?_, ?_, ?_, hcrc, ?_, ?_⟩
  case refine_1 => rw [hmagic, haccepted.magic]
  case refine_2 => rw [hsame.load16 8 (by decide), haccepted.version]
  case refine_3 => rw [hsame.load16 12 (by decide), haccepted.header_length]
  case refine_4 =>
    rw [htotal]
    exact haccepted.total_ge
  case refine_5 =>
    rw [htotal]
    exact haccepted.total_le_window
  case refine_6 =>
    rw [htotal]
    exact haccepted.total_le_max
  case refine_7 =>
    rw [htotal]
    exact haccepted.total_aligned
  case refine_8 =>
    rw [hsame.load16 14 (by decide)]
    exact haccepted.flags_known
  case refine_9 => rw [hsame.load64 56 (by decide), haccepted.reserved]

/-- With the same record headers an image has the same records. -/
theorem imageRecords_eq
    (hlie : RecordsLie q (q.load32 16).toNat (q.load32 48).toNat (imageRecords p)
      (q.load32 16).toNat) : imageRecords q = imageRecords p := by
  have hlength : (imageRecords p).length = (p.load32 52).toNat := length_recordViewsFrom _ _
  rw [imageRecords, hsame.load32 52 (by decide), ← hlength]
  exact hlie.eq_recordViewsFrom.symm

end SameHeader

/-- An image with the headers of an accepted one is accepted, if its references
pass the checks, and has the same records. -/
theorem ImageRecordsAccepted.congr (haccepted : ImageRecordsAccepted p) (hsame : SameHeader p q)
    (hheaders : ∀ record ∈ imageRecords p, ∀ index, record.HeaderByte index → q index = p index)
    (hchecked : ∀ record ∈ imageRecords p, RecordChecked q record) :
    ImageRecordsAccepted q ∧ imageRecords q = imageRecords p := by
  have htotal := hsame.load32 16 (by decide)
  have hoffset := hsame.load32 48 (by decide)
  have hlie := haccepted.lie.congr hheaders
  rw [← htotal, ← hoffset] at hlie
  have hrecords := hsame.imageRecords_eq hlie
  refine ⟨⟨?_, ?_, ?_, ?_, ?_, ?_, ?_⟩, hrecords⟩
  case refine_1 =>
    rw [hoffset]
    exact haccepted.offset_ge
  case refine_2 =>
    rw [hoffset, htotal]
    exact haccepted.offset_le
  case refine_3 =>
    rw [hoffset]
    exact haccepted.offset_aligned
  case refine_4 => rwa [hrecords]
  case refine_5 => rwa [hrecords]
  case refine_6 => rw [hrecords, haccepted.one_service]
  case refine_7 => rw [hrecords, haccepted.one_memory]

end Atarix
