import Atarix.Bib.Agreement
import Atarix.Discovery.Integrity
import Atarix.Foundation.CrcPreimage
import Atarix.Tools.Checksums

/-! # What the checksums let through

The checksums of the formats are integrity checks and no authentication: whoever
alters accepted data, in bytes that only the checksum covers, has it accepted again
by the choice of four of these bytes, with the stored checksum left as it is.
-/

namespace Atarix

open Memory

/-- However the bytes `free` of `data` are altered, there is one word in each place
among them with which the outcome is accepted. -/
def Forgeable (accepted : Memory → Prop) (length : Nat) (free : Nat → Prop) (data : Memory) :
    Prop :=
  ∀ altered : Memory, (∀ index < length, ¬ free index → altered index = data index) →
    ∀ start, (∀ step < 4, free (start + step)) →
      ∃! word : BitVec 32, accepted (altered.write start (le32 word))

/-- A word among the free bytes alters nothing else. -/
theorem write_eq_of_not_free {data altered : Memory} {length start : Nat} {free : Nat → Prop}
    (haltered : ∀ index < length, ¬ free index → altered index = data index)
    (hfree : ∀ step < 4, free (start + step)) (word : BitVec 32) :
    ∀ index < length, ¬ free index → altered.write start (le32 word) index = data index := by
  intro index hindex hfixed
  rw [write_of_outside, haltered index hindex hfixed]
  by_contra! hinside
  rw [length_le32] at hinside
  have hbyte := hfree (index - start) (by omega)
  rw [Nat.add_sub_cancel' hinside.1] at hbyte
  exact hfixed hbyte

/-! ## Packets -/

/-- A valid header stays valid exactly if the checksum of the payload does. -/
theorem validateHeader_ok_iff_of_valid {header : MailboxHeader} {payload altered : Memory}
    {length : Nat} (hvalid : mailboxValidateHeader (some header) (some payload) length = .ok) :
    mailboxValidateHeader (some header) (some altered) length = .ok ↔
      mailboxCrc32 (some altered) length = header.crc32 := by
  obtain ⟨hpresent, hmagic, htype, hmax, hlength, -⟩ := mailboxValidateHeader_ok_iff.mp hvalid
  rw [mailboxValidateHeader_ok_iff]
  constructor
  · rintro ⟨-, -, -, -, -, hcrc⟩
    exact hcrc
  · exact fun hcrc => ⟨hpresent, hmagic, htype, hmax, hlength, hcrc⟩

theorem forgeable_payload {header : MailboxHeader} {payload : Memory} {length : Nat}
    (hvalid : mailboxValidateHeader (some header) (some payload) length = .ok) :
    Forgeable (fun altered => mailboxValidateHeader (some header) (some altered) length = .ok)
      length (· < length) payload := by
  intro altered _ start hfree
  have hinside : start + 4 ≤ length := hfree 3 (by decide)
  have hword := @Crc.existsUnique_update_write 0xEDB88320 start length (by decide) 0xFFFFFFFF
    0xFFFFFFFF header.crc32 altered hinside
  rw [← mailboxCrc32BitStep_eq] at hword
  exact (existsUnique_congr fun word => validateHeader_ok_iff_of_valid hvalid).mpr hword

/-! ## Blocks -/

/-- A payload byte that `open` only takes into the checksum: it also looks at the address
and the length in the two references that a block must have. -/
def FreePayloadByte (p : Memory) (index : Nat) : Prop :=
  ∃ record ∈ imageRecords p, record.PayloadByte index ∧
    (record.type = BibTlv.serviceDirectoryReference ∨ record.type = BibTlv.memoryMapReference →
      ¬ (record.payload + 8 ≤ index ∧ index < record.payload + 24))

section Block

variable {p q : Memory} (haccepted : ImageRecordsAccepted p)
include haccepted

/-- Free bytes lie in the block, behind its header. -/
theorem FreePayloadByte.bounds {index : Nat} (hfree : FreePayloadByte p index) :
    80 ≤ index ∧ index < (p.load32 16).toNat := by
  obtain ⟨record, hrecord, hpayload, -⟩ := hfree
  obtain ⟨hfirst, hlast⟩ := haccepted.lie.bounds hrecord
  have hoffset := haccepted.offset_ge
  have hle := hpayload.1
  have hlt := hpayload.2
  omega

theorem not_freePayloadByte_recordHeader {record : BibRecordView}
    (hrecord : record ∈ imageRecords p) {index : Nat} (hindex : record.HeaderByte index) :
    ¬ FreePayloadByte p index := by
  rintro ⟨other, hother, hpayload, -⟩
  exact haccepted.lie.not_payloadByte hrecord hother hindex hpayload

/-- The bytes that the record loop looks at are not free. -/
theorem not_freePayloadByte_range {record : BibRecordView} (hrecord : record ∈ imageRecords p)
    (hrequired : record.type = BibTlv.serviceDirectoryReference ∨
      record.type = BibTlv.memoryMapReference)
    (hlength : 40 ≤ record.payloadLength.toNat) {step : Nat} (hfirst : 8 ≤ step)
    (hlast : step < 24) : ¬ FreePayloadByte p (record.payload + step) := by
  rintro ⟨other, hother, hpayload, hfree⟩
  obtain rfl := haccepted.lie.eq_of_shared hother hrecord (.inr hpayload)
    (.inr ⟨by omega, by omega⟩)
  exact hfree hrequired ⟨by omega, by omega⟩

variable (haltered : ∀ index < (p.load32 16).toNat, ¬ FreePayloadByte p index → q index = p index)
include haltered

theorem sameHeader_of_altered : SameHeader p q := by
  refine ⟨fun index hindex => haltered index ?_ fun hfree => ?_⟩
  · have hge := haccepted.offset_ge
    have hle := haccepted.offset_le
    have hlt := hindex.1
    omega
  · have hge := (hfree.bounds haccepted).1
    have hlt := hindex.1
    omega

theorem recordChecked_of_altered {record : BibRecordView} (hrecord : record ∈ imageRecords p) :
    RecordChecked q record := by
  have hchecked := haccepted.checked record hrecord
  by_cases hrequired : record.type = BibTlv.serviceDirectoryReference ∨
      record.type = BibTlv.memoryMapReference
  · refine hchecked.congr fun hlength step hfirst hlast => haltered _ ?_ ?_
    · obtain ⟨-, hend⟩ := haccepted.lie.bounds hrecord
      omega
    · exact not_freePayloadByte_range haccepted hrecord hrequired hlength hfirst hlast
  · refine ⟨hchecked.known_or_optional, checkRequiredReference_ok_iff.mpr fun hreference => ?_⟩
    exact absurd hreference hrequired

theorem imageRecordsAccepted_of_altered : ImageRecordsAccepted q := by
  have hheaders : ∀ record ∈ imageRecords p, ∀ index, record.HeaderByte index →
      q index = p index := by
    intro record hrecord index hindex
    refine haltered index ?_ (not_freePayloadByte_recordHeader haccepted hrecord hindex)
    obtain ⟨-, hlast⟩ := haccepted.lie.bounds hrecord
    have hlt := hindex.2
    omega
  exact (haccepted.congr (sameHeader_of_altered haccepted haltered) hheaders fun record hrecord =>
    recordChecked_of_altered haccepted haltered hrecord).1

/-- An altered block is opened exactly if its checksum is still the stored one. -/
theorem open_ok_iff_of_altered {windowLength : Nat} (hwindow : 64 ≤ windowLength)
    (hheader : HeaderAccepted p windowLength) (prior : BibView) :
    (bibReaderOpen (some prior) (some q) windowLength).value.1 = .ok ↔
      (crc32cWithZeroedField q (p.load32 16)).value = p.load32 20 := by
  have hsame := sameHeader_of_altered haccepted haltered
  have htotal : q.load32 16 = p.load32 16 := hsame.load32 16 (by decide)
  have hge := haccepted.offset_ge
  have hle := haccepted.offset_le
  have hstored : q.load32 20 = p.load32 20 := by
    refine load32_congr fun step hstep => haltered _ (by omega) fun hfree => ?_
    have hbehind := (hfree.bounds haccepted).1
    omega
  rw [bibReaderOpen_ok_iff_imageRecords]
  constructor
  · rintro ⟨-, hopened, -⟩
    rw [← htotal, ← hopened.crc, hstored]
  · intro hcrc
    refine ⟨hwindow, hsame.headerAccepted hheader ?_,
      imageRecordsAccepted_of_altered haccepted haltered⟩
    rw [hstored, htotal, hcrc]

end Block

theorem forgeable_block {prior : BibView} {p : Memory} {windowLength : Nat}
    (hopen : (bibReaderOpen (some prior) (some p) windowLength).value.1 = .ok) :
    Forgeable (fun q => (bibReaderOpen (some prior) (some q) windowLength).value.1 = .ok)
      (p.load32 16).toNat (FreePayloadByte p) p := by
  obtain ⟨hwindow, hheader, haccepted⟩ :=
    (bibReaderOpen_ok_iff_imageRecords prior p windowLength).mp hopen
  intro altered haltered start hfree
  have hfirst := ((hfree 0 (by decide)).bounds haccepted).1
  have hlast := ((hfree 3 (by decide)).bounds haccepted).2
  have hword := @Crc.existsUnique_update_write 0x82F63B78 start (p.load32 16).toNat (by decide)
    0xFFFFFFFF 0xFFFFFFFF (p.load32 20) (altered.zeroRange 20 4) (by omega)
  rw [← crc32cBitStep_eq] at hword
  refine (existsUnique_congr fun word => ?_).mpr hword
  have haltered' := write_eq_of_not_free haltered hfree word
  refine (open_ok_iff_of_altered haccepted haltered' hwindow hheader prior).trans ?_
  rw [crc32cWithZeroedField_value, zeroRange_write_comm _ (by omega)]

/-! ## Discovery images -/

/-- A byte of one of the records, behind the header that they all have. -/
def RecordBodyByte (image : Memory) (records : List Nat) (index : Nat) : Prop :=
  ∃ record ∈ records, record + discoveryRecordHeaderSizeV1 ≤ index ∧
    index < record + recordLength image record

section Image

variable {image other : Memory} {totalLength first index imageSize : Nat} {records : List Nat}

theorem RecordChain.bounds (hchain : RecordChain image totalLength first records)
    (hbody : RecordBodyByte image records index) :
    first + discoveryRecordHeaderSizeV1 ≤ index ∧ index < totalLength := by
  obtain ⟨record, hrecord, hle, hlt⟩ := hbody
  induction hchain with
  | stop fits isEnd => cases hrecord
  | @next head rest fits notEnd chain ih =>
      have hfits := fits.le_total
      rcases List.mem_cons.mp hrecord with rfl | hrest
      · omega
      · obtain ⟨hfirst, hlast⟩ := ih hrest
        omega

theorem recordHeader_congr
    (heq : ∀ index, first ≤ index → index < first + discoveryRecordHeaderSizeV1 →
      other index = image index) :
    recordType other first = recordType image first ∧
      recordLength other first = recordLength image first := by
  have hsize : discoveryRecordHeaderSizeV1 = 8 := rfl
  constructor
  · rw [recordType, recordType, load16, load16, heq first le_rfl (by omega),
      heq (first + 1) (by omega) (by omega)]
  · exact congrArg BitVec.toNat (load32_congr fun step hstep => heq _ (by omega) (by omega))

theorem RecordFits.congr (fits : RecordFits image totalLength first)
    (hlength : recordLength other first = recordLength image first) :
    RecordFits other totalLength first := by
  obtain ⟨haligned, hheader, hlengthAligned, htotal⟩ := fits
  rw [← hlength] at hheader hlengthAligned htotal
  exact ⟨haligned, hheader, hlengthAligned, htotal⟩

/-- Records with other bodies lie where they lay. -/
theorem RecordChain.congr (hchain : RecordChain image totalLength first records)
    (haltered : ∀ index, first ≤ index → index < totalLength →
      ¬ RecordBodyByte image records index → other index = image index) :
    RecordChain other totalLength first records := by
  induction hchain with
  | @stop record fits isEnd =>
      have hheader : ∀ index, record ≤ index → index < record + discoveryRecordHeaderSizeV1 →
          other index = image index := by
        intro index hle hlt
        have hlength := fits.header_le
        have htotal := fits.le_total
        refine haltered index hle (by omega) ?_
        rintro ⟨_, hnone, -⟩
        cases hnone
      obtain ⟨htype, hsame⟩ := recordHeader_congr hheader
      rw [← htype] at isEnd
      exact .stop (fits.congr hsame) isEnd
  | @next record rest fits notEnd chain ih =>
      have hlength := fits.header_le
      have htotal := fits.le_total
      have hheader : ∀ index, record ≤ index → index < record + discoveryRecordHeaderSizeV1 →
          other index = image index := by
        intro index hle hlt
        refine haltered index hle (by omega) ?_
        rintro ⟨body, hbody, hinside⟩
        rcases List.mem_cons.mp hbody with rfl | hrest
        · exact absurd hinside.1 (Nat.not_le.mpr hlt)
        · obtain ⟨hbehind, -⟩ := chain.bounds ⟨body, hrest, hinside⟩
          omega
      obtain ⟨htype, hsame⟩ := recordHeader_congr hheader
      rw [← htype] at notEnd
      refine .next (fits.congr hsame) notEnd ?_
      rw [hsame]
      -- a byte behind the head is none of its body
      refine ih fun index hle hlt hfixed => haltered index (by omega) hlt ?_
      rintro ⟨body, hbody, hinside⟩
      rcases List.mem_cons.mp hbody with rfl | hrest
      · omega
      · exact hfixed ⟨body, hrest, hinside⟩

variable
  (hchain : RecordChain image (DiscoveryHeader.totalLength image) discoveryHeaderSizeV1 records)
  (haltered : ∀ index < DiscoveryHeader.totalLength image, ¬ RecordBodyByte image records index →
    other index = image index)
include hchain haltered

theorem header_eq_of_altered (hindex : index < discoveryHeaderSizeV1) :
    other index = image index := by
  refine haltered index ?_ fun hbody => ?_
  · cases hchain with
    | stop fits isEnd =>
        have hle := fits.le_total
        omega
    | next fits notEnd chain =>
        have hle := fits.le_total
        omega
  · have hbehind := (hchain.bounds hbody).1
    omega

/-- An altered image is accepted exactly if its checksum is still the stored one. -/
theorem validate_ok_iff_of_altered (hsize : imageSize ≤ 512)
    (hvalid : discoveryValidate (some image) imageSize = .ok) :
    discoveryValidate (some other) imageSize = .ok ↔
      crc32IsoHdlc (other.zeroRange 28 4) (DiscoveryHeader.totalLength image) =
        DiscoveryHeader.imageCrc32 image := by
  have hheader : ∀ index < 32, other index = image index := fun index hindex =>
    header_eq_of_altered hchain haltered hindex
  have h32 : ∀ offset, offset + 4 ≤ 32 → other.load32 offset = image.load32 offset :=
    fun offset hoffset => load32_congr fun step hstep => hheader _ (by omega)
  have hmagic : DiscoveryHeader.magic other = DiscoveryHeader.magic image := h32 0 (by decide)
  have htotal : DiscoveryHeader.totalLength other = DiscoveryHeader.totalLength image :=
    congrArg BitVec.toNat (h32 8 (by decide))
  have hcount : DiscoveryHeader.recordCount other = DiscoveryHeader.recordCount image :=
    h32 12 (by decide)
  have himage : DiscoveryHeader.imageCrc32 other = DiscoveryHeader.imageCrc32 image :=
    h32 28 (by decide)
  have hstored : DiscoveryHeader.headerCrc32 other = DiscoveryHeader.headerCrc32 image :=
    h32 24 (by decide)
  have hversion : DiscoveryHeader.versionMajor other = DiscoveryHeader.versionMajor image := by
    rw [DiscoveryHeader.versionMajor, DiscoveryHeader.versionMajor, load16, load16,
      hheader 4 (by decide), hheader 5 (by decide)]
  have hcleared : crc32IsoHdlc (other.zeroRange 24 8) discoveryHeaderSizeV1 =
      crc32IsoHdlc (image.zeroRange 24 8) discoveryHeaderSizeV1 := by
    refine congrArg (~~~ ·) (Crc.update_congr _ _ fun index hindex => ?_)
    unfold zeroRange
    rw [hheader index hindex]
  have hcrc := crcValid_of_validate hvalid
  obtain ⟨hheaderCrc, -⟩ := (discoveryCrcValid_iff image imageSize).mp hcrc
  have hcrcOther : discoveryCrcValid other imageSize = true ↔
      crc32IsoHdlc (other.zeroRange 28 4) (DiscoveryHeader.totalLength image) =
        DiscoveryHeader.imageCrc32 image := by
    rw [discoveryCrcValid_iff, hstored, hcleared, himage, htotal]
    exact ⟨fun hboth => (hboth.2 hsize).symm, fun heq => ⟨hheaderCrc, fun _ => heq.symm⟩⟩
  rw [← hcrcOther]
  refine ⟨crcValid_of_validate, fun hcrcValid => ?_⟩
  have hrecords : discoveryValidateRecords other (DiscoveryHeader.totalLength image)
      discoveryHeaderSizeV1 0 = discoveryValidateRecords image
        (DiscoveryHeader.totalLength image) discoveryHeaderSizeV1 0 := by
    rw [validateRecords_of_recordChain hchain, validateRecords_of_recordChain
      (hchain.congr fun index _ hlast hfixed => haltered index hlast hfixed)]
  rw [← hvalid]
  simp only [discoveryValidate, hmagic, hversion, htotal, hcount, hrecords, hcrc, hcrcValid]

end Image

theorem forgeable_image {image : Memory} {imageSize : Nat} {records : List Nat}
    (hchain : RecordChain image (DiscoveryHeader.totalLength image) discoveryHeaderSizeV1 records)
    (hsize : imageSize ≤ 512) (hvalid : discoveryValidate (some image) imageSize = .ok) :
    Forgeable (fun other => discoveryValidate (some other) imageSize = .ok)
      (DiscoveryHeader.totalLength image) (RecordBodyByte image records) image := by
  intro altered haltered start hfree
  have hfirst : discoveryHeaderSizeV1 + discoveryRecordHeaderSizeV1 ≤ start :=
    (hchain.bounds (hfree 0 (by decide))).1
  have hlast := (hchain.bounds (hfree 3 (by decide))).2
  have hbehind : 28 + 4 ≤ start := le_trans (by decide) hfirst
  have hword := @Crc.existsUnique_update_write isoHdlcPolynomial.reverse start
    (DiscoveryHeader.totalLength image) (by decide +kernel) 0xFFFFFFFF 0xFFFFFFFF
    (DiscoveryHeader.imageCrc32 image) (altered.zeroRange 28 4) (by omega)
  rw [← crc32IsoHdlcBitStep_eq] at hword
  refine (existsUnique_congr fun word => ?_).mpr hword
  have haltered' := write_eq_of_not_free haltered hfree word
  refine (validate_ok_iff_of_altered hchain haltered' hsize hvalid).trans ?_
  rw [crc32IsoHdlc, xor_ones_eq, zeroRange_write_comm _ hbehind]

/-! ## Every format -/

/-- The stored checksum of accepted data fits every alteration of it, up to one word. -/
structure ChecksumsForgeable : Prop where
  payload : ∀ {header : MailboxHeader} {payload : Memory} {length : Nat},
    mailboxValidateHeader (some header) (some payload) length = .ok →
    Forgeable (fun altered => mailboxValidateHeader (some header) (some altered) length = .ok)
      length (· < length) payload
  block : ∀ {prior : BibView} {p : Memory} {windowLength : Nat},
    (bibReaderOpen (some prior) (some p) windowLength).value.1 = .ok →
    Forgeable (fun q => (bibReaderOpen (some prior) (some q) windowLength).value.1 = .ok)
      (p.load32 16).toNat (FreePayloadByte p) p
  image : ∀ {image : Memory} {imageSize : Nat} {records : List Nat},
    RecordChain image (DiscoveryHeader.totalLength image) discoveryHeaderSizeV1 records →
    imageSize ≤ 512 → discoveryValidate (some image) imageSize = .ok →
    Forgeable (fun other => discoveryValidate (some other) imageSize = .ok)
      (DiscoveryHeader.totalLength image) (RecordBodyByte image records) image

theorem checksums_forgeable : ChecksumsForgeable :=
  ⟨forgeable_payload, forgeable_block, forgeable_image⟩

/-- The sample block with another service directory named in it. -/
theorem checksums_forgeable_sample :
    let p := ofList (sampleBlock 0 0x300000).encode
    ∃! word : BitVec 32,
      (bibReaderOpen (some .zero) (some ((p.write 80 (le32 7)).write 84 (le32 word))) 232).value.1 =
        .ok := by
  intro p
  have hopened : (bibReaderOpen (some .zero) (some p) 232).value = (.ok, some (viewOf p)) :=
    sampleBlock_opened ⟨by decide, by decide, by decide, by decide⟩
  have hopen := congrArg Prod.fst hopened
  have hrecords : imageRecords p = viewsAt 64 (sampleBlock 0 0x300000).records :=
    BibBlock.imageRecords_eq (holds_ofList _) (by rw [sampleBlock_size]; decide)
  have hrecord : (sampleReference BibTlv.serviceDirectoryReference bibTlvFlagMandatory 0x100000
      0x2000 0).view 64 ∈ imageRecords p := by
    rw [hrecords]
    exact List.mem_cons_self
  have hfree : ∀ index, 80 ≤ index → index < 88 → FreePayloadByte p index := by
    intro index hle hlt
    refine ⟨_, hrecord, ⟨hle, lt_trans hlt (by decide)⟩, fun _ hinside => ?_⟩
    exact absurd hinside.1 (Nat.not_le.mpr hlt)
  refine checksums_forgeable.block hopen _ (fun index _ hfixed => ?_) 84
    fun step hstep => hfree _ (by omega) (by omega)
  refine write_of_outside ?_
  by_contra! hinside
  exact hfixed (hfree index hinside.1 (lt_trans hinside.2 (by decide)))

end Atarix
