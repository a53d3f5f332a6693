import Atarix.Bib.Reader

/-! # What the reader accepts

One specification for each function of the reader: when it succeeds, and with
which value.
-/

namespace Atarix

variable {buffer : Memory}

/-- A guarded computation succeeds if the guard is clear and the rest succeeds. -/
theorem ite_error_eq_ok {ε α : Type} {guard : Prop} [Decidable guard] {error : ε}
    {rest : Except ε α} {value : α} :
    (if guard then .error error else rest) = .ok value ↔ ¬ guard ∧ rest = .ok value := by
  split_ifs with hguard <;> simp [hguard]

/-! ## The checksum -/

/-- The reads among the bytes `indices`: those outside the field. -/
def crc32cReads (indices : List Nat) : List BibEvent :=
  (indices.filter fun index => ¬ (20 ≤ index ∧ index < 24)).map BibEvent.read

/-- One pass takes in a byte of the cleared block. -/
theorem crc32cZeroedFrom_of_lt (data : Memory) {length i : BitVec 32} (hlt : i < length)
    (crc : BitVec 32) :
    crc32cZeroedFrom data length i crc =
      (⟨data.zeroRange 20 4 i.toNat, crc32cReads [i.toNat]⟩ : BibReading (BitVec 8)) >>= fun byte =>
        crc32cZeroedFrom data length (i + 1) (Crc.takeByte crc32cBitStep crc byte) := by
  rw [crc32cZeroedFrom, if_pos hlt]
  by_cases hfield : 20 ≤ i.toNat ∧ i.toNat < 24
  · have hguard : i ≥ 20 ∧ i < 24 := hfield
    have hbyte : data.zeroRange 20 4 i.toNat = 0 := if_pos hfield
    have hreads : crc32cReads [i.toNat] = [] :=
      congrArg (List.map BibEvent.read) (List.filter_eq_nil_iff.mpr (by simpa using hfield))
    rw [if_pos hguard, hbyte, hreads]
    rfl
  · have hguard : ¬ (i ≥ 20 ∧ i < 24) := hfield
    have hbyte : data.zeroRange 20 4 i.toNat = data i.toNat := if_neg hfield
    have hreads : crc32cReads [i.toNat] = [.read i.toNat] :=
      congrArg (List.map BibEvent.read) (List.filter_eq_self.mpr (by simp; omega))
    rw [if_neg hguard, hbyte, hreads]
    rfl

/-- From an index on the loop takes in the cleared bytes and reads the others. -/
theorem crc32cZeroedFrom_eq (data : Memory) (length : BitVec 32) {remaining : Nat} {i : BitVec 32}
    (hlength : i.toNat + remaining = length.toNat) :
    crc32cZeroedFrom data length i
        (Crc.update crc32cBitStep 0xFFFFFFFF (data.zeroRange 20 4) i.toNat) =
      ⟨Crc.update crc32cBitStep 0xFFFFFFFF (data.zeroRange 20 4) length.toNat,
        crc32cReads (List.range' i.toNat remaining)⟩ := by
  induction remaining generalizing i with
  | zero =>
      have hend : ¬ i < length := by
        rw [BitVec.lt_def]
        omega
      rw [crc32cZeroedFrom, if_neg hend, ← hlength]
      rfl
  | succ remaining ih =>
      have hlt : i < length := by
        rw [BitVec.lt_def]
        omega
      have hnext : (i + 1).toNat = i.toNat + 1 := by
        have hfits := length.isLt
        rw [BitVec.toNat_add]
        exact Nat.mod_eq_of_lt (show i.toNat + 1 < 2 ^ 32 by omega)
      have hrest := @ih (i + 1) (by omega)
      rw [hnext, Crc.update] at hrest
      have hreads : crc32cReads (List.range' i.toNat (remaining + 1)) =
          crc32cReads [i.toNat] ++ crc32cReads (List.range' (i.toNat + 1) remaining) := by
        rw [List.range'_succ, ← List.singleton_append]
        simp only [crc32cReads, List.filter_append, List.map_append]
      rw [crc32cZeroedFrom_of_lt data hlt, hreads]
      ext1
      · rw [Traced.value_bind, hrest]
      · rw [Traced.trace_bind, hrest]

/-- The whole loop, from the first byte on. -/
theorem crc32cZeroedFrom_zero (data : Memory) (length : BitVec 32) :
    crc32cZeroedFrom data length 0 0xFFFFFFFF =
      ⟨Crc.update crc32cBitStep 0xFFFFFFFF (data.zeroRange 20 4) length.toNat,
        crc32cReads (List.range length.toNat)⟩ := by
  rw [List.range_eq_range']
  exact @crc32cZeroedFrom_eq data length length.toNat 0 (Nat.zero_add _)

theorem crc32cWithZeroedField_value (data : Memory) (length : BitVec 32) :
    (crc32cWithZeroedField data length).value =
      Crc.update crc32cBitStep 0xFFFFFFFF (data.zeroRange 20 4) length.toNat ^^^ 0xFFFFFFFF := by
  rw [crc32cWithZeroedField, crc32cZeroedFrom_zero]
  rfl

theorem crc32cWithZeroedField_trace (data : Memory) (length : BitVec 32) :
    (crc32cWithZeroedField data length).trace = crc32cReads (List.range length.toNat) := by
  rw [crc32cWithZeroedField, crc32cZeroedFrom_zero]
  exact List.append_nil _

/-! ## Records -/

/-- A record lies at `offset`, inside the first `totalLength` bytes. -/
structure BibRecordFits (buffer : Memory) (totalLength offset : Nat) : Prop where
  header_le : 16 ≤ (buffer.load32 (offset + 4)).toNat
  aligned : (buffer.load32 (offset + 4)).toNat % 8 = 0
  le_total : offset + (buffer.load32 (offset + 4)).toNat ≤ totalLength
  payload_le : (buffer.load32 (offset + 8)).toNat + 16 ≤ (buffer.load32 (offset + 4)).toNat
  flags_known : bibTlvFlagsAreKnown (buffer.load16 (offset + 2))
  reserved : buffer.load32 (offset + 12) = 0

/-- The record at `offset`, as the reader hands it back. -/
def recordViewAt (buffer : Memory) (offset : Nat) : BibRecordView where
  type := buffer.load16 offset
  flags := buffer.load16 (offset + 2)
  payload := offset + 16
  payloadLength := buffer.load32 (offset + 8)
  serializedLength := buffer.load32 (offset + 4)

/-- The guard `total - offset < size`, once `offset > total` is excluded. -/
theorem fits_iff_not_sub_lt {offset totalLength size : BitVec 32} (hle : ¬ offset > totalLength) :
    ¬ totalLength - offset < size ↔ offset.toNat + size.toNat ≤ totalLength.toNat := by
  have hsub := BitVec.toNat_sub_of_le (BitVec.not_lt.mp hle)
  simp only [gt_iff_lt, BitVec.lt_def] at hle ⊢
  omega

theorem recordAtOffset_ok_iff {totalLength offset : BitVec 32} {record : BibRecordView} :
    (recordAtOffset buffer totalLength offset).value = .ok record ↔
      BibRecordFits buffer totalLength.toNat offset.toNat ∧
        record = recordViewAt buffer offset.toNat := by
  simp only [recordAtOffset, Traced.value_bind, Traced.value_ite, Traced.value_pure,
    ite_error_eq_ok, not_or, Except.ok.injEq]
  constructor
  · rintro ⟨hoffset, -, ⟨hheader, haligned⟩, hbody, hpayload, hflags, hreserved, rfl⟩
    have hinside := (fits_iff_not_sub_lt hoffset).mp hbody
    have hcarried := (fits_iff_not_sub_lt hheader).mp hpayload
    refine ⟨⟨BitVec.not_lt.mp hheader, (bibLengthIsAligned_iff _).mp (not_not.mp haligned),
      hinside, ?_, not_not.mp hflags, not_not.mp hreserved⟩, rfl⟩
    rw [Nat.add_comm]
    exact hcarried
  · rintro ⟨⟨hheader, haligned, htotal, hpayload, hflags, hreserved⟩, rfl⟩
    have hoffset : ¬ offset > totalLength := by
      simp only [gt_iff_lt, BitVec.lt_def]
      omega
    have hsixteen : ¬ (readLe32 buffer (offset.toNat + 4)).value < bibTlvHeaderSizeV1 :=
      BitVec.not_lt.mpr hheader
    refine ⟨hoffset, (fits_iff_not_sub_lt hoffset).mpr ?_,
      ⟨hsixteen, not_not.mpr ((bibLengthIsAligned_iff _).mpr haligned)⟩,
      (fits_iff_not_sub_lt hoffset).mpr htotal, (fits_iff_not_sub_lt hsixteen).mpr ?_,
      not_not.mpr hflags, not_not.mpr hreserved, rfl⟩
    · change offset.toNat + 16 ≤ totalLength.toNat
      omega
    · change 16 + (buffer.load32 (offset.toNat + 8)).toNat ≤
        (buffer.load32 (offset.toNat + 4)).toNat
      omega

/-- A record is refused with an error code only. -/
theorem recordAtOffset_ne_error_ok {totalLength offset : BitVec 32} :
    (recordAtOffset buffer totalLength offset).value ≠ .error .ok := by
  simp only [recordAtOffset, Traced.value_bind, Traced.value_ite, Traced.value_pure]
  split_ifs <;> simp

/-- The guard of the 64-bit range check. -/
theorem range_fits_iff (address length : BitVec 64) :
    ¬ address > 0xFFFFFFFFFFFFFFFF - length ↔ address.toNat + length.toNat < 2 ^ 64 := by
  have hlt := length.isLt
  have hmax : (0xFFFFFFFFFFFFFFFF : BitVec 64).toNat = 2 ^ 64 - 1 := rfl
  have hle : length ≤ 0xFFFFFFFFFFFFFFFF := by
    rw [BitVec.le_def, hmax]
    omega
  rw [gt_iff_lt, BitVec.not_lt, BitVec.le_def, BitVec.toNat_sub_of_le hle, hmax]
  omega

/-- Two reads and a guard on what they found. -/
theorem value_guarded {α β : Type} (first second : BibReading α) (guard : α → α → Prop)
    [DecidableRel guard] (yes no : β) :
    (do let left ← first
        let right ← second
        if guard left right then return yes else return no : BibReading β).value =
      if guard first.value second.value then yes else no := by
  change (if guard first.value second.value then pure yes else pure no : BibReading β).value = _
  rw [Traced.value_ite]
  rfl

/-- What the record loop asks of the two required references. -/
theorem checkRequiredReference_ok_iff {record : BibRecordView} :
    (checkRequiredReference buffer record).value = .ok ↔
      (record.type = BibTlv.serviceDirectoryReference ∨
        record.type = BibTlv.memoryMapReference →
        40 ≤ record.payloadLength.toNat ∧
          (buffer.load64 (record.payload + 8)).toNat +
            (buffer.load64 (record.payload + 16)).toNat < 2 ^ 64) := by
  have hlength : ¬ record.payloadLength < bibReferenceFixedSizeV1 ↔
      40 ≤ record.payloadLength.toNat := BitVec.not_lt
  -- the guard is kept out of the rewriting, which would evaluate the 64-bit bound
  have hguard := value_guarded (readLe64 buffer (record.payload + 8))
    (readLe64 buffer (record.payload + 16))
    (fun address length => address > 0xFFFFFFFFFFFFFFFF - length) BibError.referenceOverflow .ok
  by_cases hrequired : record.type = BibTlv.serviceDirectoryReference ∨
      record.type = BibTlv.memoryMapReference
  case neg =>
    rw [checkRequiredReference, if_neg hrequired]
    exact iff_of_true rfl fun hyes => absurd hyes hrequired
  case pos =>
    simp only [hrequired, forall_const, ← hlength, ← range_fits_iff]
    rw [checkRequiredReference, if_pos hrequired]
    by_cases hshort : record.payloadLength < bibReferenceFixedSizeV1
    · rw [if_pos hshort]
      exact iff_of_false BibError.noConfusion fun hall => hall.1 hshort
    · rw [if_neg hshort]
      refine (Eq.congr_left hguard).trans ?_
      split_ifs with hoverflow
      · exact iff_of_false id fun hall => hall.2 hoverflow
      · exact iff_of_true rfl ⟨hshort, hoverflow⟩

/-- The step to the next record does not wrap. -/
theorem BibRecordFits.next_toNat {totalLength offset : BitVec 32}
    (fits : BibRecordFits buffer totalLength.toNat offset.toNat) :
    (offset + (recordViewAt buffer offset.toNat).serializedLength).toNat =
      offset.toNat + (buffer.load32 (offset.toNat + 4)).toNat := by
  have htotal := fits.le_total
  have hlt := totalLength.isLt
  rw [BitVec.toNat_add]
  exact Nat.mod_eq_of_lt (show _ + (buffer.load32 (offset.toNat + 4)).toNat < 2 ^ 32 by omega)

theorem walkRecords_ne_error_ok {totalLength : BitVec 32} (count : Nat) (offset : BitVec 32) :
    (walkRecords buffer totalLength count offset).value ≠ .error .ok := by
  induction count generalizing offset with
  | zero => exact recordAtOffset_ne_error_ok
  | succ count ih =>
      simp only [walkRecords, Traced.value_bind]
      cases hrecord : (recordAtOffset buffer totalLength offset).value with
      | error error =>
          intro hok
          obtain rfl : error = .ok := by cases hok; rfl
          exact recordAtOffset_ne_error_ok hrecord
      | ok skip => exact ih _

/-! ## The header -/

theorem magicIsValidFrom_iff (buffer : Memory) (index : Nat) (magic : List (BitVec 8)) :
    (magicIsValidFrom buffer index magic).value ↔ buffer.slice index magic.length = magic := by
  induction magic generalizing index with
  | nil => simp [magicIsValidFrom, Memory.slice]
  | cons byte rest ih =>
      have hsplit : buffer.slice index (rest.length + 1) =
          buffer index :: buffer.slice (index + 1) rest.length := by
        rw [Nat.add_comm, Memory.slice_add]
        rfl
      simp only [magicIsValidFrom, Traced.value_bind, Traced.value_ite, Traced.value_pure,
        List.length_cons, hsplit, List.cons.injEq]
      split_ifs with hbyte <;> simp [hbyte, ih]

/-- The header checks that `open` makes. -/
structure HeaderAccepted (p : Memory) (windowLength : Nat) : Prop where
  magic : p.slice 0 8 = bibMagic
  version : p.load16 8 = bibVersionMajorV1
  header_length : p.load16 12 = 64
  total_ge : 64 ≤ (p.load32 16).toNat
  total_le_window : (p.load32 16).toNat ≤ windowLength
  total_le_max : (p.load32 16).toNat ≤ 65536
  total_aligned : (p.load32 16).toNat % 8 = 0
  crc : p.load32 20 = (crc32cWithZeroedField p (p.load32 16)).value
  flags_known : bibHeaderFlagsAreKnown (p.load16 14)
  reserved : p.load64 56 = 0

theorem checkIntegrity_ok_iff {p : Memory} {totalLength checked : BitVec 32} :
    (checkIntegrity p totalLength).value = .ok checked ↔
      p.load32 20 = (crc32cWithZeroedField p totalLength).value ∧
        bibHeaderFlagsAreKnown (p.load16 14) ∧ p.load64 56 = 0 ∧ totalLength = checked := by
  simp only [checkIntegrity, Traced.value_bind, Traced.value_ite, Traced.value_pure,
    ite_error_eq_ok, Except.ok.injEq, not_not, ne_eq]
  rfl

theorem headerLength_eq_iff (p : Memory) :
    (readLe16 p 12).value.setWidth 32 = bibHeaderSizeV1 ↔ p.load16 12 = 64 := by
  change (p.load16 12).setWidth 32 = 64 ↔ _
  constructor <;> intro heq <;> bv_omega

/-- The test of the total length, in numbers. -/
theorem totalLength_bounds_iff (p : Memory) (windowLength : Nat) :
    ¬ ((readLe32 p 16).value < bibHeaderSizeV1 ∨ (readLe32 p 16).value.toNat > windowLength ∨
        (readLe32 p 16).value > bibRecommendedMaxSizeV1 ∨
        ¬ bibLengthIsAligned (readLe32 p 16).value) ↔
      64 ≤ (p.load32 16).toNat ∧ (p.load32 16).toNat ≤ windowLength ∧
        (p.load32 16).toNat ≤ 65536 ∧ (p.load32 16).toNat % 8 = 0 := by
  rw [not_or, not_or, not_or, not_not, bibLengthIsAligned_iff, BitVec.not_lt, gt_iff_lt, gt_iff_lt,
    Nat.not_lt, BitVec.not_lt]
  rfl

theorem checkHeader_ok_iff {p : Memory} {windowLength : Nat} {totalLength : BitVec 32} :
    (checkHeader p windowLength).value = .ok totalLength ↔
      HeaderAccepted p windowLength ∧ p.load32 16 = totalLength := by
  simp only [checkHeader, Traced.value_bind, Traced.value_ite, Traced.value_pure,
    ite_error_eq_ok, checkIntegrity_ok_iff, not_not, ne_eq]
  have hmagic : (bibMagicIsValid p).value = true ↔ p.slice 0 8 = bibMagic :=
    magicIsValidFrom_iff p 0 bibMagic
  rw [hmagic, headerLength_eq_iff, totalLength_bounds_iff]
  constructor
  · rintro ⟨hmagic, hversion, hlength, ⟨hge, hwindow, hmax, haligned⟩, hcrc, hflags, hreserved, heq⟩
    exact ⟨⟨hmagic, hversion, hlength, hge, hwindow, hmax, haligned, hcrc, hflags, hreserved⟩, heq⟩
  · rintro ⟨⟨hmagic, hversion, hlength, hge, hwindow, hmax, haligned, hcrc, hflags, hreserved⟩, heq⟩
    exact ⟨hmagic, hversion, hlength, ⟨hge, hwindow, hmax, haligned⟩, hcrc, hflags, hreserved, heq⟩

theorem checkHeader_ne_error_ok {p : Memory} {windowLength : Nat} :
    (checkHeader p windowLength).value ≠ .error .ok := by
  simp only [checkHeader, checkIntegrity, Traced.value_bind, Traced.value_ite, Traced.value_pure]
  split_ifs <;> simp

/-- The view of an accepted header. -/
def viewOf (p : Memory) : BibView where
  buffer := some p
  totalLength := p.load32 16
  tlvOffset := p.load32 48
  tlvCount := p.load32 52
  flags := p.load16 14
  bootId := p.load64 24
  producerId := p.load64 32
  createdCounter := p.load64 40

/-! ## The record area -/

theorem scanRecords_ne_error_ok {totalLength : BitVec 32} (remaining : Nat) (state : ScanState) :
    (scanRecords buffer totalLength remaining state).value ≠ .error .ok := by
  induction remaining generalizing state with
  | zero => simp [scanRecords]
  | succ remaining ih =>
      simp only [scanRecords, Traced.value_bind]
      cases hrecord : (recordAtOffset buffer totalLength state.offset).value with
      | error error =>
          intro hok
          obtain rfl : error = .ok := by cases hok; rfl
          exact recordAtOffset_ne_error_ok hrecord
      | ok record =>
          simp only [Traced.value_bind, Traced.value_ite, Traced.value_pure]
          split_ifs with hmandatory hchecked
          · simp
          · simpa using hchecked
          · exact ih _

/-- The record area that `open` accepts: the scan ends at the end of the block
with one required reference of each kind. -/
structure RecordsAccepted (p : Memory) : Prop where
  offset_ge : 64 ≤ (p.load32 48).toNat
  offset_le : (p.load32 48).toNat ≤ (p.load32 16).toNat
  offset_aligned : (p.load32 48).toNat % 8 = 0
  scan : (scanRecords p (p.load32 16) (p.load32 52).toNat ⟨p.load32 48, 0, 0⟩).value =
    .ok ⟨p.load32 16, 1, 1⟩

/-- The test of the record area, in numbers. -/
theorem recordArea_bounds_iff (p : Memory) :
    ¬ ((viewOf p).tlvOffset < bibHeaderSizeV1 ∨
        (viewOf p).tlvOffset > (viewOf p).totalLength ∨
        ¬ bibLengthIsAligned (viewOf p).tlvOffset) ↔
      64 ≤ (p.load32 48).toNat ∧ (p.load32 48).toNat ≤ (p.load32 16).toNat ∧
        (p.load32 48).toNat % 8 = 0 := by
  rw [not_or, not_or, not_not, bibLengthIsAligned_iff, BitVec.not_lt, gt_iff_lt, BitVec.not_lt]
  rfl

theorem checkRecords_ok_iff (p : Memory) :
    (checkRecords p (viewOf p)).value = .ok ↔ RecordsAccepted p := by
  simp only [checkRecords]
  split_ifs with hbounds
  · constructor
    · intro hok
      cases hok
    · rintro ⟨hge, hle, haligned, -⟩
      exact absurd hbounds ((recordArea_bounds_iff p).mpr ⟨hge, hle, haligned⟩)
  · obtain ⟨hge, hle, haligned⟩ := (recordArea_bounds_iff p).mp hbounds
    rw [Traced.value_bind]
    cases hscan : (scanRecords p (viewOf p).totalLength (viewOf p).tlvCount.toNat
        ⟨(viewOf p).tlvOffset, 0, 0⟩).value with
    | error error =>
        constructor
        · intro hok
          obtain rfl : error = .ok := hok
          exact absurd hscan (scanRecords_ne_error_ok _ _)
        · intro haccepted
          cases hscan.symm.trans haccepted.scan
    | ok state =>
        have hstate : RecordsAccepted p ↔ state = ⟨p.load32 16, 1, 1⟩ :=
          ⟨fun haccepted => Except.ok.inj (hscan.symm.trans haccepted.scan),
            fun heq => ⟨hge, hle, haligned, hscan.trans (congrArg Except.ok heq)⟩⟩
        have htotal : (viewOf p).totalLength = p.load32 16 := rfl
        obtain ⟨offset, serviceCount, memoryCount⟩ := state
        simp only [hstate, htotal, Traced.value_ite, Traced.value_pure, ScanState.mk.injEq]
        split_ifs with hoffset hcounts
        · exact iff_of_false id fun hall => hoffset hall.1
        · refine iff_of_false id fun hall => ?_
          exact hcounts.elim (fun hcount => hcount hall.2.1) fun hcount => hcount hall.2.2
        · obtain ⟨hservice, hmemory⟩ := not_or.mp hcounts
          exact iff_of_true rfl ⟨not_not.mp hoffset, not_not.mp hservice, not_not.mp hmemory⟩

/-- `open` succeeds on the images with an accepted header and record area, and
then hands back their view. -/
theorem bibReaderOpen_ok_iff (prior : BibView) (p : Memory) (windowLength : Nat) :
    (bibReaderOpen (some prior) (some p) windowLength).value.1 = .ok ↔
      64 ≤ windowLength ∧ HeaderAccepted p windowLength ∧ RecordsAccepted p := by
  simp only [bibReaderOpen]
  split_ifs with hwindow
  · constructor
    · intro hok
      cases hok
    · rintro ⟨hle, -⟩
      omega
  rw [Traced.value_bind]
  cases hheader : (checkHeader p windowLength).value with
  | error error =>
      constructor
      · intro hok
        obtain rfl : error = .ok := hok
        exact absurd hheader checkHeader_ne_error_ok
      · rintro ⟨-, haccepted, -⟩
        have hok := checkHeader_ok_iff.mpr ⟨haccepted, rfl⟩
        rw [hheader] at hok
        cases hok
  | ok totalLength =>
      obtain ⟨haccepted, rfl⟩ := checkHeader_ok_iff.mp hheader
      have hview : (fillView p (p.load32 16)).value = viewOf p := rfl
      simp only [Traced.value_bind, Traced.value_ite, Traced.value_pure, hview]
      split_ifs with hrecords
      · simp only [hrecords, false_iff]
        rintro ⟨-, -, hok⟩
        exact hrecords ((checkRecords_ok_iff p).mpr hok)
      · simp only [true_iff]
        exact ⟨by omega, haccepted, (checkRecords_ok_iff p).mp (not_not.mp hrecords)⟩

theorem bibReaderOpen_view {prior : BibView} {p : Memory} {windowLength : Nat}
    (hopen : (bibReaderOpen (some prior) (some p) windowLength).value.1 = .ok) :
    (bibReaderOpen (some prior) (some p) windowLength).value.2 = some (viewOf p) := by
  obtain ⟨hwindow, hheader, hrecords⟩ := (bibReaderOpen_ok_iff prior p windowLength).mp hopen
  have hchecked := checkHeader_ok_iff.mpr ⟨hheader, rfl⟩
  have hview : (fillView p (p.load32 16)).value = viewOf p := rfl
  have hscanned := (checkRecords_ok_iff p).mpr hrecords
  rw [bibReaderOpen, if_neg (Nat.not_lt.mpr hwindow), Traced.value_bind, hchecked]
  simp only [Traced.value_bind, hview, hscanned, ne_eq, not_true_eq_false,
    if_false, Traced.value_pure]

end Atarix
