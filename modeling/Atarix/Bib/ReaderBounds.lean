import Atarix.Bib.ReaderSpec

/-! # Bounds on what the reader touches

Opening a block reads inside the caller's window; reading records and references
of an opened block stays inside its record area; and no 32-bit offset or length
computation wraps on the way.
-/

namespace Atarix

/-- A read inside the range, a sum that does not overflow, a difference that does
not underflow. -/
def BibEvent.Within (first last : Nat) : BibEvent → Prop
  | .read index => first ≤ index ∧ index < last
  | .sum left right => left.toNat + right.toNat < 2 ^ 32
  | .difference left right => right ≤ left

theorem BibEvent.Within.mono {first last first' last' : Nat} (hfirst : first' ≤ first)
    (hlast : last ≤ last') {event : BibEvent} (hwithin : event.Within first last) :
    event.Within first' last' := by
  cases event with
  | read index => exact ⟨hfirst.trans hwithin.1, hwithin.2.trans_le hlast⟩
  | sum left right => exact hwithin
  | difference left right => exact hwithin

variable {buffer : Memory} {first last : Nat}

/-! ## Single reads and sums -/

theorem readEvents_within {index count : Nat} (hfirst : first ≤ index)
    (hlast : index + count ≤ last) : ∀ event ∈ readEvents index count, event.Within first last := by
  intro event hevent
  obtain ⟨read, hread, rfl⟩ := List.mem_map.mp hevent
  rw [List.mem_range'_1] at hread
  exact ⟨by omega, by omega⟩

theorem readLe16_within {index : Nat} (hfirst : first ≤ index) (hlast : index + 2 ≤ last) :
    (readLe16 buffer index).Respects (BibEvent.Within first last) :=
  readEvents_within hfirst hlast

theorem readLe32_within {index : Nat} (hfirst : first ≤ index) (hlast : index + 4 ≤ last) :
    (readLe32 buffer index).Respects (BibEvent.Within first last) :=
  readEvents_within hfirst hlast

theorem readLe64_within {index : Nat} (hfirst : first ≤ index) (hlast : index + 8 ≤ last) :
    (readLe64 buffer index).Respects (BibEvent.Within first last) :=
  readEvents_within hfirst hlast

theorem add32_within {left right : BitVec 32} (hsum : left.toNat + right.toNat < 2 ^ 32) :
    (add32 left right).Respects (BibEvent.Within first last) := by
  intro event hevent
  obtain rfl := List.mem_singleton.mp hevent
  exact hsum

theorem sub32_within {left right : BitVec 32} (hle : right ≤ left) :
    (sub32 left right).Respects (BibEvent.Within first last) := by
  intro event hevent
  obtain rfl := List.mem_singleton.mp hevent
  exact hle

/-! ## One record -/

theorem recordAtOffset_within {totalLength offset : BitVec 32} (hfirst : first ≤ offset.toNat) :
    (recordAtOffset buffer totalLength offset).Respects
      (BibEvent.Within first totalLength.toNat) := by
  simp only [recordAtOffset, Traced.respects_bind, Traced.respects_ite, Traced.respects_pure,
    implies_true, and_true, true_and]
  intro hoffset
  refine ⟨sub32_within (BitVec.not_lt.mp hoffset), fun hroom => ?_⟩
  have hheader : offset.toNat + 16 ≤ totalLength.toNat := (fits_iff_not_sub_lt hoffset).mp hroom
  refine ⟨readLe32_within (by omega) (by omega), readLe32_within (by omega) (by omega),
    fun hlength => ⟨sub32_within (BitVec.not_lt.mp hoffset), fun _ => ?_⟩⟩
  refine ⟨sub32_within (BitVec.not_lt.mp (not_or.mp hlength).1), fun _ => ?_⟩
  refine ⟨readLe16_within (by omega) (by omega), fun _ => ?_⟩
  refine ⟨readLe32_within (by omega) (by omega), fun _ => ?_⟩
  exact ⟨readLe16_within (by omega) (by omega), readLe16_within (by omega) (by omega)⟩

/-- What the reader needs to know about a record it was handed. -/
structure RecordInside (first last : Nat) (record : BibRecordView) : Prop where
  payload_ge : first ≤ record.payload
  payload_end : record.payload + record.payloadLength.toNat ≤ last

theorem BibRecordFits.inside {totalLength offset : Nat}
    (fits : BibRecordFits buffer totalLength offset) (hfirst : first ≤ offset) :
    RecordInside first totalLength (recordViewAt buffer offset) := by
  have hpayload := fits.payload_le
  have htotal := fits.le_total
  constructor
  · change first ≤ offset + 16
    omega
  · change offset + 16 + (buffer.load32 (offset + 8)).toNat ≤ totalLength
    omega

theorem BibRecordFits.add32_within {totalLength offset : BitVec 32}
    (fits : BibRecordFits buffer totalLength.toNat offset.toNat) :
    (add32 offset (recordViewAt buffer offset.toNat).serializedLength).Respects
      (BibEvent.Within first last) := by
  apply Atarix.add32_within
  have htotal := fits.le_total
  have hlt := totalLength.isLt
  change offset.toNat + (buffer.load32 (offset.toNat + 4)).toNat < 2 ^ 32
  omega

theorem fixedSize_le {record : BibRecordView}
    (hlength : ¬ record.payloadLength < bibReferenceFixedSizeV1) :
    40 ≤ record.payloadLength.toNat :=
  BitVec.not_lt.mp hlength

theorem checkRequiredReference_within {record : BibRecordView}
    (hinside : RecordInside first last record) :
    (checkRequiredReference buffer record).Respects (BibEvent.Within first last) := by
  obtain ⟨hge, hend⟩ := hinside
  simp only [checkRequiredReference, Traced.respects_bind, Traced.respects_ite,
    Traced.respects_pure, implies_true, and_true, true_and]
  intro _ hlength
  have hfixed := fixedSize_le hlength
  exact ⟨readLe64_within (by omega) (by omega), readLe64_within (by omega) (by omega)⟩

/-- Every iteration of the record loop stays between the loop's start and the end
of the block. -/
theorem scanRecords_within {totalLength : BitVec 32} (remaining : Nat) {state : ScanState}
    (hfirst : first ≤ state.offset.toNat) :
    (scanRecords buffer totalLength remaining state).Respects
      (BibEvent.Within first totalLength.toNat) := by
  induction remaining generalizing state with
  | zero => exact Traced.respects_pure _
  | succ remaining ih =>
      simp only [scanRecords]
      refine Traced.respects_bind.mpr ⟨recordAtOffset_within hfirst, ?_⟩
      cases hrecord : (recordAtOffset buffer totalLength state.offset).value with
      | error error => exact Traced.respects_pure _
      | ok record =>
          obtain ⟨fits, rfl⟩ := recordAtOffset_ok_iff.mp hrecord
          simp only [Traced.respects_bind, Traced.respects_ite, Traced.respects_pure,
            implies_true, true_and]
          intro _
          refine ⟨checkRequiredReference_within (fits.inside hfirst), fun _ =>
            ⟨fits.add32_within, ih ?_⟩⟩
          have hnext := fits.next_toNat
          change first ≤ (state.offset + _).toNat
          omega

/-- Skipping records stays there as well, and so does the record found. -/
theorem walkRecords_within (buffer : Memory) (totalLength : BitVec 32) (count : Nat)
    (offset : BitVec 32) (hfirst : first ≤ offset.toNat) :
    (walkRecords buffer totalLength count offset).Respects
        (BibEvent.Within first totalLength.toNat) ∧
      ∀ record, (walkRecords buffer totalLength count offset).value = .ok record →
        RecordInside first totalLength.toNat record := by
  induction count generalizing offset with
  | zero =>
      refine ⟨recordAtOffset_within hfirst, fun record hrecord => ?_⟩
      obtain ⟨fits, rfl⟩ := recordAtOffset_ok_iff.mp hrecord
      exact fits.inside hfirst
  | succ count ih =>
      simp only [walkRecords, Traced.value_bind]
      cases hrecord : (recordAtOffset buffer totalLength offset).value with
      | error error =>
          refine ⟨Traced.respects_bind.mpr ⟨recordAtOffset_within hfirst, ?_⟩, ?_⟩
          · rw [hrecord]
            exact Traced.respects_pure _
          · intro record hok
            cases hok
      | ok skip =>
          obtain ⟨fits, rfl⟩ := recordAtOffset_ok_iff.mp hrecord
          have hnext := fits.next_toNat
          obtain ⟨hreads, hfound⟩ :=
            ih (offset + (recordViewAt buffer offset.toNat).serializedLength) (by omega)
          refine ⟨Traced.respects_bind.mpr ⟨recordAtOffset_within hfirst, ?_⟩, hfound⟩
          rw [hrecord]
          exact Traced.respects_bind.mpr ⟨fits.add32_within, hreads⟩

/-! ## An open view -/

/-- Reading a record of a view stays in its record area, and so does the payload
that is handed back. -/
theorem readerRecord_within (view : BibView) (index : BitVec 32) (prior : Option BibRecordView) :
    (bibReaderRecord (some view) index prior).Respects
        (BibEvent.Within view.tlvOffset.toNat view.totalLength.toNat) ∧
      ∀ record, (bibReaderRecord (some view) index prior).value = (.ok, some record) →
        RecordInside view.tlvOffset.toNat view.totalLength.toNat record := by
  cases prior with
  | none => simp [bibReaderRecord]
  | some prior =>
      cases hbuffer : view.buffer with
      | none => simp [bibReaderRecord, hbuffer]
      | some buffer =>
          obtain ⟨hreads, hfound⟩ :=
            walkRecords_within buffer view.totalLength index.toNat view.tlvOffset le_rfl
          simp only [bibReaderRecord, hbuffer]
          split_ifs with hindex
          · simp
          rw [Traced.respects_bind, Traced.value_bind]
          cases hwalk : (walkRecords buffer view.totalLength index.toNat view.tlvOffset).value with
          | error error =>
              refine ⟨⟨hreads, Traced.respects_pure _⟩, fun record hok => ?_⟩
              simp only [Traced.value_pure, Prod.mk.injEq] at hok
              rw [hok.1] at hwalk
              exact absurd hwalk (walkRecords_ne_error_ok _ _)
          | ok record =>
              refine ⟨⟨hreads, Traced.respects_pure _⟩, fun found hok => ?_⟩
              simp only [Traced.value_pure, Prod.mk.injEq, Option.some.injEq, true_and] at hok
              exact hok ▸ hfound record hwalk

theorem decodeReference_within (buffer : Memory) {record : BibRecordView}
    (hinside : RecordInside first last record) :
    (decodeReference buffer record).Respects (BibEvent.Within first last) ∧
      ∀ reference, (decodeReference buffer record).value = .ok reference →
        first ≤ reference.integrity ∧
          reference.integrity + reference.integrityLength.toNat ≤ last := by
  obtain ⟨hge, hend⟩ := hinside
  constructor
  · simp only [decodeReference, Traced.respects_bind, Traced.respects_ite, Traced.respects_pure,
      implies_true, and_true, true_and]
    intro hlength
    have hfixed := fixedSize_le hlength
    refine ⟨readLe32_within (by omega) (by omega), sub32_within (BitVec.not_lt.mp hlength),
      fun _ => ⟨?_, ?_, ?_, ?_, ?_, ?_⟩⟩
    case refine_1 => exact readLe64_within (by omega) (by omega)
    case refine_2 => exact readLe64_within (by omega) (by omega)
    case refine_3 => exact readLe64_within (by omega) (by omega)
    all_goals exact readLe32_within (by omega) (by omega)
  · intro reference hok
    simp only [decodeReference, Traced.value_bind, Traced.value_ite, Traced.value_pure] at hok
    split_ifs at hok with hlength hroom
    have hfixed := fixedSize_le hlength
    have hintegrity := (fits_iff_not_sub_lt hlength).mp hroom
    cases hok
    change first ≤ record.payload + 40 ∧
      record.payload + 40 + (buffer.load32 (record.payload + 36)).toNat ≤ last
    change 40 + (buffer.load32 (record.payload + 36)).toNat ≤ record.payloadLength.toNat
      at hintegrity
    omega

theorem findReferenceFrom_within (view : BibView) (type : BitVec 16) (remaining : Nat)
    (index : BitVec 32) :
    (findReferenceFrom view type remaining index).Respects
        (BibEvent.Within view.tlvOffset.toNat view.totalLength.toNat) ∧
      ∀ reference, (findReferenceFrom view type remaining index).value = .ok reference →
        view.tlvOffset.toNat ≤ reference.integrity ∧
          reference.integrity + reference.integrityLength.toNat ≤ view.totalLength.toNat := by
  induction remaining generalizing index with
  | zero => exact ⟨Traced.respects_pure _, fun reference hok => by cases hok⟩
  | succ remaining ih =>
      obtain ⟨hreads, hfound⟩ := readerRecord_within view index (some ⟨0, 0, 0, 0, 0⟩)
      simp only [findReferenceFrom, Traced.respects_bind, Traced.value_bind]
      split_ifs with herror
      · exact ⟨⟨hreads, Traced.respects_pure _⟩, fun reference hok => by cases hok⟩
      split
      next buffer record _ hrecord =>
          have hinside := hfound record (Prod.ext (not_not.mp herror) hrecord)
          obtain ⟨hdecode, hslice⟩ := decodeReference_within buffer hinside
          split_ifs
          · exact ⟨⟨hreads, hdecode⟩, hslice⟩
          · exact ⟨⟨hreads, (ih _).1⟩, (ih _).2⟩
      next => exact ⟨⟨hreads, Traced.respects_pure _⟩, fun reference hok => by cases hok⟩

/-! ## Opening -/

section Open

variable {p : Memory} {windowLength : Nat}

theorem magicIsValidFrom_within (index : Nat) (magic : List (BitVec 8))
    (hlast : index + magic.length ≤ last) :
    (magicIsValidFrom buffer index magic).Respects (BibEvent.Within 0 last) := by
  induction magic generalizing index with
  | nil => exact Traced.respects_pure _
  | cons byte rest ih =>
      rw [List.length_cons] at hlast
      refine Traced.respects_bind.mpr ⟨readEvents_within index.zero_le (by omega), ?_⟩
      exact Traced.respects_ite.mpr
        ⟨fun _ => ih (index + 1) (by omega), fun _ => Traced.respects_pure _⟩

theorem crc32cWithZeroedField_within (p : Memory) (length : BitVec 32) :
    (crc32cWithZeroedField p length).Respects (BibEvent.Within 0 length.toNat) := by
  intro event hevent
  rw [crc32cWithZeroedField_trace] at hevent
  obtain ⟨index, hindex, rfl⟩ := List.mem_map.mp hevent
  exact ⟨index.zero_le, List.mem_range.mp (List.mem_filter.mp hindex).1⟩

theorem checkIntegrity_within {totalLength : BitVec 32} (hheader : 64 ≤ windowLength)
    (htotal : totalLength.toNat ≤ windowLength) :
    (checkIntegrity p totalLength).Respects (BibEvent.Within 0 windowLength) := by
  simp only [checkIntegrity, Traced.respects_bind, Traced.respects_ite, Traced.respects_pure,
    implies_true, and_true, true_and]
  refine ⟨readLe32_within (Nat.zero_le _) (by omega), ?_, fun _ => ⟨?_, fun _ => ?_⟩⟩
  case refine_1 =>
    exact Traced.respects_mono (fun event => BibEvent.Within.mono le_rfl htotal)
      (crc32cWithZeroedField_within p totalLength)
  case refine_2 => exact readLe16_within (Nat.zero_le _) (by omega)
  case refine_3 => exact readLe64_within (Nat.zero_le _) (by omega)

/-- Nothing behind the first 64 bytes is read before the total length is known to
lie in the window. -/
theorem checkHeader_within (hheader : 64 ≤ windowLength) :
    (checkHeader p windowLength).Respects (BibEvent.Within 0 windowLength) := by
  simp only [checkHeader, Traced.respects_bind, Traced.respects_ite, Traced.respects_pure,
    implies_true, true_and]
  refine ⟨magicIsValidFrom_within 0 bibMagic ?_, fun _ => ⟨?_, fun _ => ⟨?_, fun _ => ⟨?_, ?_⟩⟩⟩⟩
  · change 0 + 8 ≤ windowLength
    omega
  · exact readLe16_within (Nat.zero_le _) (by omega)
  · exact readLe16_within (Nat.zero_le _) (by omega)
  · exact readLe32_within (Nat.zero_le _) (by omega)
  · intro hlength
    simp only [not_or] at hlength
    exact checkIntegrity_within hheader (Nat.not_lt.mp hlength.2.1)

theorem fillView_within (totalLength : BitVec 32) (hheader : 64 ≤ windowLength) :
    (fillView p totalLength).Respects (BibEvent.Within 0 windowLength) := by
  simp only [fillView, Traced.respects_bind, Traced.respects_pure, and_true]
  refine ⟨?_, ?_, ?_, ?_, ?_, ?_⟩
  case refine_1 => exact readLe32_within (Nat.zero_le _) (by omega)
  case refine_2 => exact readLe32_within (Nat.zero_le _) (by omega)
  case refine_3 => exact readLe16_within (Nat.zero_le _) (by omega)
  all_goals exact readLe64_within (Nat.zero_le _) (by omega)

theorem checkRecords_within (view : BibView) (htotal : view.totalLength.toNat ≤ windowLength) :
    (checkRecords p view).Respects (BibEvent.Within 0 windowLength) := by
  rw [checkRecords, Traced.respects_ite]
  refine ⟨fun _ => Traced.respects_pure _, fun _ => Traced.respects_bind.mpr ⟨?_, ?_⟩⟩
  · exact Traced.respects_mono (fun event => BibEvent.Within.mono le_rfl htotal)
      (scanRecords_within view.tlvCount.toNat (Nat.zero_le _))
  · split
    · exact Traced.respects_pure _
    · simp only [Traced.respects_ite, Traced.respects_pure, implies_true, and_true]

theorem bibReaderOpen_within (view : Option BibView) (buffer : Option Memory)
    (windowLength : Nat) :
    (bibReaderOpen view buffer windowLength).Respects (BibEvent.Within 0 windowLength) := by
  unfold bibReaderOpen
  split
  next view p =>
      refine Traced.respects_ite.mpr ⟨fun _ => Traced.respects_pure _, fun hwindow => ?_⟩
      have hheader : 64 ≤ windowLength := Nat.not_lt.mp hwindow
      refine Traced.respects_bind.mpr ⟨checkHeader_within hheader, ?_⟩
      cases hchecked : (checkHeader p windowLength).value with
      | error error => exact Traced.respects_pure _
      | ok totalLength =>
          obtain ⟨haccepted, rfl⟩ := checkHeader_ok_iff.mp hchecked
          refine Traced.respects_bind.mpr ⟨fillView_within _ hheader, ?_⟩
          refine Traced.respects_bind.mpr
            ⟨checkRecords_within _ haccepted.total_le_window, ?_⟩
          simp only [Traced.respects_ite, Traced.respects_pure, implies_true, and_true]
  next => exact Traced.respects_pure _

end Open

/-! ## The bounds together -/

theorem decodeReference_ne_error_ok (buffer : Memory) (record : BibRecordView) :
    (decodeReference buffer record).value ≠ .error .ok := by
  simp only [decodeReference, Traced.value_bind, Traced.value_ite, Traced.value_pure]
  split_ifs <;> simp

theorem findReferenceFrom_ne_error_ok (view : BibView) (type : BitVec 16) (remaining : Nat)
    (index : BitVec 32) : (findReferenceFrom view type remaining index).value ≠ .error .ok := by
  induction remaining generalizing index with
  | zero => simp [findReferenceFrom]
  | succ remaining ih =>
      simp only [findReferenceFrom, Traced.value_bind]
      split_ifs with herror
      · simpa using herror
      split
      · split_ifs
        · exact decodeReference_ne_error_ok _ _
        · exact ih _
      · simp

/-- Looking up a reference stays in the record area, and so do the integrity bytes
that are handed back. -/
theorem findReference_within (view : BibView) (type : BitVec 16)
    (prior : Option BibReferenceView) :
    (bibReaderFindReference (some view) type prior).Respects
        (BibEvent.Within view.tlvOffset.toNat view.totalLength.toNat) ∧
      ∀ reference,
        (bibReaderFindReference (some view) type prior).value = (.ok, some reference) →
        view.tlvOffset.toNat ≤ reference.integrity ∧
          reference.integrity + reference.integrityLength.toNat ≤ view.totalLength.toNat := by
  cases prior with
  | none => simp [bibReaderFindReference]
  | some prior =>
      obtain ⟨hreads, hfound⟩ := findReferenceFrom_within view type view.tlvCount.toNat 0
      simp only [bibReaderFindReference, Traced.respects_bind, Traced.value_bind]
      cases hfind : (findReferenceFrom view type view.tlvCount.toNat 0).value with
      | error error =>
          refine ⟨⟨hreads, Traced.respects_pure _⟩, fun reference hok => ?_⟩
          obtain rfl : error = .ok := congrArg Prod.fst hok
          exact absurd hfind (findReferenceFrom_ne_error_ok _ _ _ _)
      | ok found =>
          refine ⟨⟨hreads, Traced.respects_pure _⟩, fun reference hok => ?_⟩
          obtain rfl : found = reference := Option.some.inj (congrArg Prod.snd hok)
          exact hfound found hfind

/-- Whatever record or reference is asked of the view, only bytes between its
record offset and its total length are read and handed back. -/
structure ViewConfined (view : BibView) : Prop where
  record_reads : ∀ index prior, (bibReaderRecord (some view) index prior).Respects
    (BibEvent.Within view.tlvOffset.toNat view.totalLength.toNat)
  payload : ∀ index prior record,
    (bibReaderRecord (some view) index prior).value = (.ok, some record) →
    RecordInside view.tlvOffset.toNat view.totalLength.toNat record
  reference_reads : ∀ type prior, (bibReaderFindReference (some view) type prior).Respects
    (BibEvent.Within view.tlvOffset.toNat view.totalLength.toNat)
  integrity : ∀ type prior reference,
    (bibReaderFindReference (some view) type prior).value = (.ok, some reference) →
    view.tlvOffset.toNat ≤ reference.integrity ∧
      reference.integrity + reference.integrityLength.toNat ≤ view.totalLength.toNat

theorem viewConfined (view : BibView) : ViewConfined view where
  record_reads index prior := (readerRecord_within view index prior).1
  payload index prior := (readerRecord_within view index prior).2
  reference_reads type prior := (findReference_within view type prior).1
  integrity type prior := (findReference_within view type prior).2

/-- Opening stays in the window whatever the image holds. An opened view covers a
part of the window, and everything done with it stays in that part. -/
theorem bibReader_confined (view : Option BibView) (buffer : Option Memory)
    (windowLength : Nat) :
    (bibReaderOpen view buffer windowLength).Respects (BibEvent.Within 0 windowLength) ∧
      ((bibReaderOpen view buffer windowLength).value.1 = .ok →
        ∃ p, buffer = some p ∧
          (bibReaderOpen view buffer windowLength).value.2 = some (viewOf p) ∧
          (p.load32 16).toNat ≤ windowLength ∧ ViewConfined (viewOf p)) := by
  refine ⟨bibReaderOpen_within view buffer windowLength, fun hok => ?_⟩
  rcases view with _ | prior
  · cases hok
  rcases buffer with _ | p
  · cases hok
  obtain ⟨-, hheader, -⟩ := (bibReaderOpen_ok_iff prior p windowLength).mp hok
  refine ⟨p, rfl, ?_, hheader.total_le_window, viewConfined _⟩
  exact bibReaderOpen_view hok

end Atarix
