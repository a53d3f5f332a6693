import Atarix.Bib.ReaderBounds

/-! # The records of an image

Every pass of the reader walks the same records. They are described here once,
as the views at successive offsets, and the record loop of `open`, the record
walk and the reference lookup are stated over that list.
-/

namespace Atarix

/-- The views of `count` records, the first of them at `offset`. -/
def recordViewsFrom (buffer : Memory) : Nat → Nat → List BibRecordView
  | 0, _ => []
  | count + 1, offset =>
    recordViewAt buffer offset ::
      recordViewsFrom buffer count (offset + (buffer.load32 (offset + 4)).toNat)

/-- The record views of an image. -/
def imageRecords (p : Memory) : List BibRecordView :=
  recordViewsFrom p (p.load32 52).toNat (p.load32 48).toNat

/-- Records lie one behind the other from an offset to another. -/
inductive RecordsLie (buffer : Memory) (totalLength : Nat) :
    Nat → List BibRecordView → Nat → Prop where
  | nil (offset : Nat) : RecordsLie buffer totalLength offset [] offset
  | cons {offset last : Nat} {records : List BibRecordView}
      (fits : BibRecordFits buffer totalLength offset)
      (rest : RecordsLie buffer totalLength (offset + (buffer.load32 (offset + 4)).toNat)
        records last) :
      RecordsLie buffer totalLength offset (recordViewAt buffer offset :: records) last

variable {buffer : Memory}

theorem length_recordViewsFrom (count offset : Nat) :
    (recordViewsFrom buffer count offset).length = count := by
  induction count generalizing offset with
  | zero => rfl
  | succ count ih => rw [recordViewsFrom, List.length_cons, ih]

/-- The views are determined by where the records start and how many there are. -/
theorem RecordsLie.eq_recordViewsFrom {totalLength offset last : Nat}
    {records : List BibRecordView} (hlie : RecordsLie buffer totalLength offset records last) :
    records = recordViewsFrom buffer records.length offset := by
  induction hlie with
  | nil offset => rfl
  | cons fits rest ih =>
      rw [List.length_cons, recordViewsFrom, ← ih]

theorem recordsLie_nil {totalLength offset last : Nat} :
    RecordsLie buffer totalLength offset [] last ↔ offset = last := by
  constructor
  · rintro ⟨⟩
    rfl
  · rintro rfl
    exact .nil offset

theorem recordsLie_cons {totalLength offset last : Nat} {record : BibRecordView}
    {records : List BibRecordView} :
    RecordsLie buffer totalLength offset (record :: records) last ↔
      BibRecordFits buffer totalLength offset ∧ record = recordViewAt buffer offset ∧
        RecordsLie buffer totalLength (offset + (buffer.load32 (offset + 4)).toNat) records
          last := by
  constructor
  · rintro ⟨⟩
    next fits rest => exact ⟨fits, rfl, rest⟩
  · rintro ⟨fits, rfl, rest⟩
    exact .cons fits rest

/-! ## The record loop of `open` -/

/-- What the record loop asks of a record. -/
structure RecordChecked (buffer : Memory) (record : BibRecordView) : Prop where
  known_or_optional : knownType record.type ∨ record.flags &&& bibTlvFlagMandatory = 0
  reference : (checkRequiredReference buffer record).value = .ok

/-- The number of records of a type. -/
def viewCount (type : BitVec 16) (records : List BibRecordView) : Nat :=
  records.countP fun record => record.type = type

/-- Counting with a 32-bit counter. -/
theorem ofNat_countP_cons {α : Type} (counted : α → Bool) (head : α) (tail : List α) :
    BitVec.ofNat 32 ((head :: tail).countP counted) =
      (if counted head then 1 else 0) + BitVec.ofNat 32 (tail.countP counted) := by
  rw [List.countP_cons, Nat.add_comm, BitVec.ofNat_add]
  cases counted head <;> rfl

/-- A 32-bit counter that starts at zero and does not wrap. -/
theorem zero_add_ofNat_eq_one {count : Nat} (hlt : count < 2 ^ 32) :
    0 + BitVec.ofNat 32 count = 1 ↔ count = 1 := by
  change 0#32 + _ = 1#32 ↔ _
  rw [BitVec.zero_add, ← BitVec.toNat_inj, BitVec.toNat_ofNat, Nat.mod_eq_of_lt hlt]
  rfl

theorem ofNat_viewCount_cons (type : BitVec 16) (record : BibRecordView)
    (records : List BibRecordView) :
    BitVec.ofNat 32 (viewCount type (record :: records)) =
      (if record.type = type then 1 else 0) + BitVec.ofNat 32 (viewCount type records) := by
  rw [viewCount, ofNat_countP_cons]
  simp only [decide_eq_true_eq, viewCount]

/-- The scan state behind records that end at `offset`. -/
def ScanState.behind (state : ScanState) (records : List BibRecordView) (offset : BitVec 32) :
    ScanState where
  offset := offset
  serviceCount :=
    state.serviceCount + BitVec.ofNat 32 (viewCount BibTlv.serviceDirectoryReference records)
  memoryCount :=
    state.memoryCount + BitVec.ofNat 32 (viewCount BibTlv.memoryMapReference records)

theorem ScanState.behind_cons (state : ScanState) (record : BibRecordView)
    (records : List BibRecordView) (offset last : BitVec 32) :
    (state.next record offset).behind records last = state.behind (record :: records) last := by
  simp only [ScanState.behind, ScanState.next, ofNat_viewCount_cons, BitVec.add_assoc]

/-- One iteration of the record loop, on a record that it can decode. -/
theorem scanRecords_succ {totalLength : BitVec 32} {remaining : Nat} {state : ScanState}
    {record : BibRecordView} (hrecord :
      (recordAtOffset buffer totalLength state.offset).value = .ok record) (final : ScanState) :
    (scanRecords buffer totalLength (remaining + 1) state).value = .ok final ↔
      RecordChecked buffer record ∧
        (scanRecords buffer totalLength remaining
          (state.next record (state.offset + record.serializedLength))).value = .ok final := by
  rw [scanRecords, Traced.value_bind, hrecord]
  change (if ¬ knownType record.type ∧ record.flags &&& bibTlvFlagMandatory ≠ 0 then _
    else _ : BibReading (Except BibError ScanState)).value = _ ↔ _
  rw [Traced.value_ite]
  split_ifs with hmandatory
  · refine iff_of_false id ?_
    rintro ⟨hchecked, -⟩
    exact hchecked.known_or_optional.elim hmandatory.1 hmandatory.2
  rw [Traced.value_bind, Traced.value_ite]
  split_ifs with hchecked
  · refine iff_of_false id ?_
    rintro ⟨hboth, -⟩
    exact hchecked hboth.reference
  have hboth : RecordChecked buffer record := by
    refine ⟨?_, not_not.mp hchecked⟩
    rwa [not_and_or, not_not, not_not] at hmandatory
  exact ⟨fun hok => ⟨hboth, hok⟩, fun hok => hok.2⟩

/-- The record loop succeeds on records that lie behind one another and pass its
checks, and counts them. -/
theorem scanRecords_ok_iff_lie {totalLength : BitVec 32} (remaining : Nat)
    (state final : ScanState) :
    (scanRecords buffer totalLength remaining state).value = .ok final ↔
      ∃ records,
        RecordsLie buffer totalLength.toNat state.offset.toNat records final.offset.toNat ∧
        records.length = remaining ∧ (∀ record ∈ records, RecordChecked buffer record) ∧
        final = state.behind records final.offset := by
  induction remaining generalizing state with
  | zero =>
      simp only [scanRecords, Traced.value_pure, Except.ok.injEq]
      constructor
      · rintro rfl
        exact ⟨[], .nil _, rfl, by simp, by simp [ScanState.behind, viewCount]⟩
      · rintro ⟨records, hlie, hlength, -, hfinal⟩
        obtain rfl := List.length_eq_zero_iff.mp hlength
        rw [hfinal, ← BitVec.eq_of_toNat_eq (recordsLie_nil.mp hlie)]
        simp [ScanState.behind, viewCount]
  | succ remaining ih =>
      constructor
      · intro hscan
        cases hrecord : (recordAtOffset buffer totalLength state.offset).value with
        | error error =>
            rw [scanRecords, Traced.value_bind, hrecord] at hscan
            cases hscan
        | ok record =>
            obtain ⟨hchecked, hrest⟩ := (scanRecords_succ hrecord final).mp hscan
            obtain ⟨fits, rfl⟩ := recordAtOffset_ok_iff.mp hrecord
            obtain ⟨records, hlie, rfl, hall, hfinal⟩ := (ih _).mp hrest
            rw [ScanState.behind_cons] at hfinal
            refine ⟨recordViewAt buffer state.offset.toNat :: records, ?_, rfl, ?_, hfinal⟩
            · refine .cons fits ?_
              rwa [← fits.next_toNat]
            · exact List.forall_mem_cons.mpr ⟨hchecked, hall⟩
      · rintro ⟨records, hlie, hlength, hall, hfinal⟩
        cases records with
        | nil => cases hlength
        | cons record records =>
            obtain ⟨fits, rfl, hrest⟩ := recordsLie_cons.mp hlie
            obtain ⟨hchecked, hall⟩ := List.forall_mem_cons.mp hall
            rw [← fits.next_toNat] at hrest
            refine (scanRecords_succ (recordAtOffset_ok_iff.mpr ⟨fits, rfl⟩) final).mpr
              ⟨hchecked, (ih _).mpr ⟨records, hrest, Nat.succ.inj hlength, hall, ?_⟩⟩
            rw [ScanState.behind_cons]
            exact hfinal

/-- The record area of an accepted image, as its list of views. -/
structure ImageRecordsAccepted (p : Memory) : Prop where
  offset_ge : 64 ≤ (p.load32 48).toNat
  offset_le : (p.load32 48).toNat ≤ (p.load32 16).toNat
  offset_aligned : (p.load32 48).toNat % 8 = 0
  lie : RecordsLie p (p.load32 16).toNat (p.load32 48).toNat (imageRecords p) (p.load32 16).toNat
  checked : ∀ record ∈ imageRecords p, RecordChecked p record
  one_service : viewCount BibTlv.serviceDirectoryReference (imageRecords p) = 1
  one_memory : viewCount BibTlv.memoryMapReference (imageRecords p) = 1

theorem ofNat_viewCount_eq_one {type : BitVec 16} {records : List BibRecordView}
    (hlt : records.length < 2 ^ 32) :
    0 + BitVec.ofNat 32 (viewCount type records) = 1 ↔ viewCount type records = 1 :=
  zero_add_ofNat_eq_one (List.countP_le_length.trans_lt hlt)

theorem recordsAccepted_iff_imageRecords (p : Memory) :
    RecordsAccepted p ↔ ImageRecordsAccepted p := by
  have hcount : (imageRecords p).length < 2 ^ 32 := by
    rw [imageRecords, length_recordViewsFrom]
    exact (p.load32 52).isLt
  have hscan := @scanRecords_ok_iff_lie p (p.load32 16) (p.load32 52).toNat ⟨p.load32 48, 0, 0⟩
    ⟨p.load32 16, 1, 1⟩
  constructor
  · rintro ⟨hge, hle, haligned, hok⟩
    obtain ⟨records, hlie, hlength, hall, hfinal⟩ := hscan.mp hok
    obtain rfl : records = imageRecords p := by
      rw [imageRecords, ← hlength, ← hlie.eq_recordViewsFrom]
    simp only [ScanState.behind, ScanState.mk.injEq, true_and, eq_comm (a := (1 : BitVec 32)),
      ofNat_viewCount_eq_one hcount] at hfinal
    exact ⟨hge, hle, haligned, hlie, hall, hfinal.1, hfinal.2⟩
  · rintro ⟨hge, hle, haligned, hlie, hall, hservice, hmemory⟩
    refine ⟨hge, hle, haligned, hscan.mpr ⟨imageRecords p, hlie, ?_, hall, ?_⟩⟩
    · rw [imageRecords, length_recordViewsFrom]
    · simp only [ScanState.behind, ScanState.mk.injEq, true_and, eq_comm (a := (1 : BitVec 32)),
        ofNat_viewCount_eq_one hcount]
      exact ⟨hservice, hmemory⟩

/-- `open` succeeds exactly on an accepted header followed by an accepted record
area. -/
theorem bibReaderOpen_ok_iff_imageRecords (prior : BibView) (p : Memory) (windowLength : Nat) :
    (bibReaderOpen (some prior) (some p) windowLength).value.1 = .ok ↔
      64 ≤ windowLength ∧ HeaderAccepted p windowLength ∧ ImageRecordsAccepted p := by
  rw [bibReaderOpen_ok_iff, recordsAccepted_iff_imageRecords]

/-! ## The record walk -/

theorem walkRecords_of_lie {totalLength offset : BitVec 32} {last : Nat}
    {records : List BibRecordView}
    (hlie : RecordsLie buffer totalLength.toNat offset.toNat records last)
    (index : Nat) (hindex : index < records.length) :
    (walkRecords buffer totalLength index offset).value = .ok records[index] := by
  induction records generalizing offset index with
  | nil => exact absurd hindex (Nat.not_lt_zero index)
  | cons record records ih =>
      obtain ⟨fits, rfl, hrest⟩ := recordsLie_cons.mp hlie
      have hrecord := recordAtOffset_ok_iff.mpr ⟨fits, rfl⟩
      rw [← fits.next_toNat] at hrest
      cases index with
      | zero => exact hrecord
      | succ index =>
          rw [walkRecords, Traced.value_bind, hrecord]
          exact ih hrest index (Nat.lt_of_succ_lt_succ hindex)

/-- The view of an accepted image hands its records back by index. -/
theorem bibReaderRecord_of_accepted {p : Memory} (haccepted : ImageRecordsAccepted p)
    (prior : BibRecordView) (index : Nat) (hindex : index < (imageRecords p).length) :
    (bibReaderRecord (some (viewOf p)) (BitVec.ofNat 32 index) (some prior)).value =
      (.ok, some (imageRecords p)[index]) := by
  have hlength : (imageRecords p).length = (p.load32 52).toNat := length_recordViewsFrom _ _
  have hlt := (p.load32 52).isLt
  have hindex' : (BitVec.ofNat 32 index).toNat = index := Nat.mod_eq_of_lt (by omega)
  have hin : ¬ BitVec.ofNat 32 index ≥ (viewOf p).tlvCount := by
    change ¬ BitVec.ofNat 32 index ≥ p.load32 52
    rw [ge_iff_le, BitVec.le_def, hindex']
    omega
  have hfound : (walkRecords p (viewOf p).totalLength (BitVec.ofNat 32 index).toNat
      (viewOf p).tlvOffset).value = .ok (imageRecords p)[index] := by
    rw [hindex']
    exact walkRecords_of_lie haccepted.lie index hindex
  have hbuffer : (viewOf p).buffer = some p := rfl
  simp only [bibReaderRecord, hbuffer]
  rw [if_neg hin, Traced.value_bind, hfound]
  rfl

/-! ## The reference lookup -/

/-- The reference of the first record of a type. -/
def lookupReference (p : Memory) (type : BitVec 16) (records : List BibRecordView) :
    Except BibError BibReferenceView :=
  (records.find? fun record => record.type = type).elim (.error .requiredRecord)
    fun record => (decodeReference p record).value

theorem findReferenceFrom_of_accepted {p : Memory} (haccepted : ImageRecordsAccepted p)
    (type : BitVec 16) (remaining index : Nat)
    (hcount : index + remaining = (imageRecords p).length) :
    (findReferenceFrom (viewOf p) type remaining (BitVec.ofNat 32 index)).value =
      lookupReference p type ((imageRecords p).drop index) := by
  induction remaining generalizing index with
  | zero =>
      rw [List.drop_of_length_le (by omega)]
      rfl
  | succ remaining ih =>
      have hindex : index < (imageRecords p).length := by omega
      have hfound := bibReaderRecord_of_accepted haccepted ⟨0, 0, 0, 0, 0⟩ index hindex
      have hnext : BitVec.ofNat 32 index + 1 = BitVec.ofNat 32 (index + 1) :=
        (BitVec.ofNat_add index 1).symm
      have hbuffer : (viewOf p).buffer = some p := rfl
      simp only [findReferenceFrom, Traced.value_bind, hfound, ne_eq, not_true_eq_false, if_false,
        hbuffer, Traced.value_ite, hnext]
      rw [List.drop_eq_getElem_cons hindex, lookupReference, List.find?_cons]
      by_cases htype : (imageRecords p)[index].type = type
      · simp [htype]
      · rw [if_neg htype, ih (index + 1) (by omega)]
        simp [htype, lookupReference]

/-- The error and the reference object that a lookup leaves. -/
def referenceOutcome (prior : BibReferenceView) :
    Except BibError BibReferenceView → BibError × Option BibReferenceView
  | .error error => (error, some prior)
  | .ok reference => (.ok, some reference)

/-- Looking up a reference in an accepted image decodes the first of its type. -/
theorem bibReaderFindReference_of_accepted {p : Memory} (haccepted : ImageRecordsAccepted p)
    (type : BitVec 16) (prior : BibReferenceView) :
    (bibReaderFindReference (some (viewOf p)) type (some prior)).value =
      referenceOutcome prior (lookupReference p type (imageRecords p)) := by
  have hlength : (imageRecords p).length = (p.load32 52).toNat := length_recordViewsFrom _ _
  have hfind := findReferenceFrom_of_accepted haccepted type (p.load32 52).toNat 0
    (by rw [hlength, Nat.zero_add])
  rw [List.drop_zero] at hfind
  have hcount : (viewOf p).tlvCount = p.load32 52 := rfl
  change (findReferenceFrom (viewOf p) type (p.load32 52).toNat 0).value = _ at hfind
  simp only [bibReaderFindReference, Traced.value_bind, hcount, hfind]
  cases lookupReference p type (imageRecords p) with
  | error error => rfl
  | ok reference => rfl

/-! ## Decoding a reference -/

/-- The integrity length that a reference payload declares. -/
def declaredIntegrity (p : Memory) (record : BibRecordView) : Nat :=
  (p.load32 (record.payload + 36)).toNat

/-- The reference payload of a record, as the reader hands it back. -/
def referenceViewAt (p : Memory) (payload : Nat) : BibReferenceView where
  objectId := p.load64 payload
  address := p.load64 (payload + 8)
  length := p.load64 (payload + 16)
  formatMajor := p.load32 (payload + 24)
  formatMinor := p.load32 (payload + 28)
  integrityKind := p.load32 (payload + 32)
  integrity := payload + 40
  integrityLength := p.load32 (payload + 36)

theorem decodeReference_eq (p : Memory) (record : BibRecordView) :
    (decodeReference p record).value =
      if record.payloadLength.toNat < 40 then .error .tlvBounds
      else if record.payloadLength.toNat < 40 + declaredIntegrity p record then
        .error .referenceIntegrity
      else .ok (referenceViewAt p record.payload) := by
  have hshort : record.payloadLength < bibReferenceFixedSizeV1 ↔ record.payloadLength.toNat < 40 :=
    BitVec.lt_def
  simp only [decodeReference, Traced.value_bind, Traced.value_ite, Traced.value_pure, hshort]
  split_ifs with hlength hintegrity hfits hfits
  · rfl
  · rfl
  all_goals
    have hroom : ¬ record.payloadLength - bibReferenceFixedSizeV1 < p.load32 (record.payload + 36) ↔
        40 + declaredIntegrity p record ≤ record.payloadLength.toNat :=
      fits_iff_not_sub_lt (mt hshort.mp hlength)
  · exact absurd (Nat.not_lt.mp hfits) (mt hroom.mpr (not_not.mpr hintegrity))
  · exact absurd hfits (Nat.not_lt.mpr (hroom.mp hintegrity))
  · rfl

theorem decodeReference_ok_iff {p : Memory} {record : BibRecordView}
    {reference : BibReferenceView} :
    (decodeReference p record).value = .ok reference ↔
      40 + declaredIntegrity p record ≤ record.payloadLength.toNat ∧
        reference = referenceViewAt p record.payload := by
  rw [decodeReference_eq]
  split_ifs with hshort hintegrity
  · exact iff_of_false id fun hall => by omega
  · exact iff_of_false id fun hall => by omega
  · rw [Except.ok.injEq, eq_comm]
    exact ⟨fun heq => ⟨Nat.not_lt.mp hintegrity, heq⟩, And.right⟩

theorem lookupReference_ok_iff {p : Memory} {type : BitVec 16} {records : List BibRecordView}
    {reference : BibReferenceView} :
    lookupReference p type records = .ok reference ↔
      ∃ record, records.find? (·.type = type) = some record ∧
        40 + declaredIntegrity p record ≤ record.payloadLength.toNat ∧
        reference = referenceViewAt p record.payload := by
  rw [lookupReference]
  cases records.find? (·.type = type) with
  | none => simp
  | some record =>
      simp only [Option.elim_some, Option.some.injEq, exists_eq_left', decodeReference_ok_iff]

theorem lookupReference_ne_error_ok (p : Memory) (type : BitVec 16)
    (records : List BibRecordView) : lookupReference p type records ≠ .error .ok := by
  rw [lookupReference]
  cases records.find? (·.type = type) with
  | none => simp
  | some record => exact decodeReference_ne_error_ok p record

/-- The first record of the type has room for what it declares. -/
def LookupFits (p : Memory) (type : BitVec 16) : Prop :=
  ∃ record, (imageRecords p).find? (·.type = type) = some record ∧
    40 + declaredIntegrity p record ≤ record.payloadLength.toNat

/-- A lookup succeeds exactly if the first record of its type has room for what
it declares. -/
theorem findReference_status_iff {p : Memory} (haccepted : ImageRecordsAccepted p)
    {type : BitVec 16} (prior : BibReferenceView) :
    (bibReaderFindReference (some (viewOf p)) type (some prior)).value.1 = .ok ↔
      LookupFits p type := by
  rw [bibReaderFindReference_of_accepted haccepted]
  cases hlookup : lookupReference p type (imageRecords p) with
  | error error =>
      refine iff_of_false (fun hok => ?_) ?_
      · obtain rfl : error = .ok := hok
        exact lookupReference_ne_error_ok p type _ hlookup
      · rintro ⟨record, hfirst, hfits⟩
        rw [lookupReference_ok_iff.mpr ⟨record, hfirst, hfits, rfl⟩] at hlookup
        cases hlookup
  | ok reference =>
      obtain ⟨record, hfirst, hfits, -⟩ := lookupReference_ok_iff.mp hlookup
      exact iff_of_true rfl ⟨record, hfirst, hfits⟩

/-- What a successful lookup hands out. -/
theorem findReference_ok_iff {p : Memory} (haccepted : ImageRecordsAccepted p)
    {type : BitVec 16} {prior reference : BibReferenceView} :
    (bibReaderFindReference (some (viewOf p)) type (some prior)).value = (.ok, some reference) ↔
      lookupReference p type (imageRecords p) = .ok reference := by
  rw [bibReaderFindReference_of_accepted haccepted]
  cases hlookup : lookupReference p type (imageRecords p) with
  | error error =>
      refine iff_of_false (fun hok => ?_) fun hok => by cases hok
      obtain rfl : error = .ok := congrArg Prod.fst hok
      exact lookupReference_ne_error_ok p type _ hlookup
  | ok found => simp [referenceOutcome]

end Atarix
