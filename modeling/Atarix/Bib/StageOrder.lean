import Atarix.Bib.References
import Atarix.Foundation.Stages

/-! # The order in which `open` looks for defects

The specification orders the checks of a block in stages, each applied to all
records before the next. `open` makes the stages of one record behind one another
before it goes on to the next record, so the error it returns may be that of a
later stage.
-/

namespace Atarix

open Memory Stages

variable {p : Memory} {windowLength : Nat}

/-! ## Defects of a record -/

namespace BibRecordView

/-- The consumer is told to reject a type it does not know. -/
def UnknownMandatory (record : BibRecordView) : Prop :=
  ¬ knownType record.type ∧ record.flags &&& bibTlvFlagMandatory ≠ 0

def Required (record : BibRecordView) : Prop :=
  record.type = BibTlv.serviceDirectoryReference ∨ record.type = BibTlv.memoryMapReference

/-- A required reference without room for its fixed payload. -/
def Short (record : BibRecordView) : Prop := record.Required ∧ record.payloadLength.toNat < 40

/-- A required reference whose range wraps. -/
def Wrapped (p : Memory) (record : BibRecordView) : Prop :=
  record.Required ∧ 2 ^ 64 ≤ (p.load64 (record.payload + 8)).toNat +
    (p.load64 (record.payload + 16)).toNat

instance (record : BibRecordView) : Decidable record.UnknownMandatory :=
  inferInstanceAs (Decidable (_ ∧ _))

instance (record : BibRecordView) : Decidable record.Required :=
  inferInstanceAs (Decidable (_ ∨ _))

instance (record : BibRecordView) : Decidable record.Short :=
  inferInstanceAs (Decidable (_ ∧ _))

instance (p : Memory) (record : BibRecordView) : Decidable (record.Wrapped p) :=
  inferInstanceAs (Decidable (_ ∧ _))

/-- A defect behind the record's header. -/
def Defective (p : Memory) (record : BibRecordView) : Prop :=
  record.UnknownMandatory ∨ record.Short ∨ record.Wrapped p

instance (p : Memory) (record : BibRecordView) : Decidable (record.Defective p) :=
  inferInstanceAs (Decidable (_ ∨ _))

/-- The error of a record's first defect. -/
def defect (p : Memory) (record : BibRecordView) : BibError :=
  firstFailure .ok
    [check .ok (¬ record.UnknownMandatory) .unknownMandatory,
      check .ok (¬ record.Short) .tlvBounds,
      check .ok (¬ record.Wrapped p) .referenceOverflow]

end BibRecordView

/-! ## The stages -/

/-- The records in front of the first bad record header, and the offset behind them
or the error of that header. -/
structure HeaderWalk where
  records : List BibRecordView
  outcome : Except BibError (BitVec 32)

/-- The walk over `count` record headers from `offset` on. -/
def walkHeaders (p : Memory) (totalLength : BitVec 32) : Nat → BitVec 32 → HeaderWalk
  | 0, offset => ⟨[], .ok offset⟩
  | count + 1, offset =>
    match (recordAtOffset p totalLength offset).value with
    | .error error => ⟨[], .error error⟩
    | .ok record =>
      let rest := walkHeaders p totalLength count (offset + record.serializedLength)
      ⟨record :: rest.records, rest.outcome⟩

def imageWalk (p : Memory) : HeaderWalk :=
  walkHeaders p (p.load32 16) (p.load32 52).toNat (p.load32 48)

/-- The stages up to the bounds of the record area. -/
def headerStages (p : Memory) (windowLength : Nat) : List BibError :=
  [check .ok (64 ≤ windowLength) .window,
    check .ok (p.slice 0 8 = bibMagic) .magic,
    check .ok (p.load16 8 = bibVersionMajorV1) .version,
    check .ok (p.load16 12 = 64) .headerLength,
    check .ok (64 ≤ (p.load32 16).toNat ∧ (p.load32 16).toNat ≤ windowLength ∧
      (p.load32 16).toNat ≤ 65536 ∧ (p.load32 16).toNat % 8 = 0) .totalLength,
    check .ok (p.load32 20 = (crc32cWithZeroedField p (p.load32 16)).value) .crc,
    check .ok (bibHeaderFlagsAreKnown (p.load16 14) ∧ p.load64 56 = 0) .headerReserved,
    check .ok (64 ≤ (p.load32 48).toNat ∧ (p.load32 48).toNat ≤ (p.load32 16).toNat ∧
      (p.load32 48).toNat % 8 = 0) .tlvBounds]

/-- The stage of the record headers: each is sound, and together they end with the
block. -/
def boundsStage (p : Memory) : BibError :=
  match (imageWalk p).outcome with
  | .error error => error
  | .ok finish => check .ok (finish = p.load32 16) .tlvBounds

def mandatoryStage (p : Memory) : BibError :=
  check .ok (∀ record ∈ (imageWalk p).records, ¬ record.UnknownMandatory) .unknownMandatory

def cardinalityStage (p : Memory) : BibError :=
  check .ok (viewCount BibTlv.serviceDirectoryReference (imageWalk p).records = 1 ∧
    viewCount BibTlv.memoryMapReference (imageWalk p).records = 1) .requiredRecord

def payloadStage (p : Memory) : BibError :=
  check .ok (∀ record ∈ (imageWalk p).records, ¬ record.Short) .tlvBounds

def arithmeticStage (p : Memory) : BibError :=
  check .ok (∀ record ∈ (imageWalk p).records, ¬ record.Wrapped p) .referenceOverflow

/-- The stages that look at the records, each at all of them. -/
def recordStages (p : Memory) : List BibError :=
  [boundsStage p, mandatoryStage p, cardinalityStage p, payloadStage p, arithmeticStage p]

/-- `open` reports the first stage that the image fails. -/
def FollowsStageOrder (p : Memory) (windowLength : Nat) : Prop :=
  ∀ prior, (bibReaderOpen (some prior) (some p) windowLength).value.1 =
    firstFailure .ok (headerStages p windowLength ++ recordStages p)

/-! ## The record loop, as one pass over the sound records -/

theorem checkRequiredReference_eq (record : BibRecordView) :
    (checkRequiredReference p record).value =
      firstFailure .ok [check .ok (¬ record.Short) .tlvBounds,
        check .ok (¬ record.Wrapped p) .referenceOverflow] := by
  by_cases hrequired : record.type = BibTlv.serviceDirectoryReference ∨
      record.type = BibTlv.memoryMapReference
  case neg =>
    have hshort : ¬ record.Short := fun hshort => hrequired hshort.1
    have hwrapped : ¬ record.Wrapped p := fun hwrapped => hrequired hwrapped.1
    rw [checkRequiredReference, if_neg hrequired, check_of_holds hshort, check_of_holds hwrapped]
    rfl
  case pos =>
    rw [checkRequiredReference, if_pos hrequired]
    by_cases hlength : record.payloadLength < bibReferenceFixedSizeV1
    · have hshort : record.Short := ⟨hrequired, BitVec.lt_def.mp hlength⟩
      rw [if_pos hlength, check_of_fails (not_not.mpr hshort),
        firstFailure_cons_of_failed BibError.noConfusion]
      rfl
    · have hshort : ¬ record.Short := fun hshort => hlength (BitVec.lt_def.mpr hshort.2)
      rw [if_neg hlength, check_of_holds hshort, firstFailure_cons_of_passed]
      -- the guard is kept out of the rewriting, which would evaluate the 64-bit bound
      refine (value_guarded (readLe64 p (record.payload + 8)) (readLe64 p (record.payload + 16))
        (fun address length => address > 0xFFFFFFFFFFFFFFFF - length)
        BibError.referenceOverflow .ok).trans ?_
      have hrange := range_fits_iff (p.load64 (record.payload + 8)) (p.load64 (record.payload + 16))
      by_cases hwrapped : record.Wrapped p
      · rw [check_of_fails (not_not.mpr hwrapped)]
        exact if_pos (not_not.mp (mt hrange.mp (Nat.not_lt.mpr hwrapped.2)))
      · rw [check_of_holds hwrapped]
        refine if_neg (hrange.mpr (Nat.not_le.mp fun hle => hwrapped ⟨hrequired, hle⟩))

theorem BibRecordView.defect_eq (record : BibRecordView) :
    record.defect p = if record.UnknownMandatory then .unknownMandatory
      else (checkRequiredReference p record).value := by
  rw [defect, checkRequiredReference_eq]
  split_ifs with hunknown
  · rw [check_of_fails (not_not.mpr hunknown)]
    exact firstFailure_cons_of_failed BibError.noConfusion _
  · rw [check_of_holds hunknown, firstFailure_cons_of_passed]

theorem BibRecordView.defect_eq_ok_iff (record : BibRecordView) :
    record.defect p = .ok ↔ ¬ record.Defective p := by
  have hunknown : BibError.unknownMandatory ≠ .ok := BibError.noConfusion
  have hbounds : BibError.tlvBounds ≠ .ok := BibError.noConfusion
  have hoverflow : BibError.referenceOverflow ≠ .ok := BibError.noConfusion
  rw [defect, firstFailure_eq_passed_iff]
  simp only [List.forall_mem_cons, check_eq_passed_iff hunknown, check_eq_passed_iff hbounds,
    check_eq_passed_iff hoverflow, List.not_mem_nil, false_implies, implies_true, and_true,
    Defective, not_or]

theorem walkHeaders_succ {totalLength offset : BitVec 32} {record : BibRecordView} (count : Nat)
    (hrecord : (recordAtOffset p totalLength offset).value = .ok record) :
    walkHeaders p totalLength (count + 1) offset =
      ⟨record :: (walkHeaders p totalLength count (offset + record.serializedLength)).records,
        (walkHeaders p totalLength count (offset + record.serializedLength)).outcome⟩ := by
  rw [walkHeaders, hrecord]

/-- One iteration of the record loop behind a sound header. -/
theorem scanRecords_step {totalLength : BitVec 32} {state : ScanState} {record : BibRecordView}
    (count : Nat) (hrecord : (recordAtOffset p totalLength state.offset).value = .ok record) :
    (scanRecords p totalLength (count + 1) state).value =
      if record.Defective p then .error (record.defect p)
      else (scanRecords p totalLength count
        (state.next record (state.offset + record.serializedLength))).value := by
  have hok := record.defect_eq_ok_iff (p := p)
  have hdefect : record.defect p =
      if ¬ knownType record.type ∧ record.flags &&& bibTlvFlagMandatory ≠ 0 then .unknownMandatory
      else (checkRequiredReference p record).value := record.defect_eq
  rw [scanRecords, Traced.value_bind, hrecord]
  change (if ¬ knownType record.type ∧ record.flags &&& bibTlvFlagMandatory ≠ 0 then _
    else _ : BibReading (Except BibError ScanState)).value = _
  rw [Traced.value_ite]
  by_cases hunknown : ¬ knownType record.type ∧ record.flags &&& bibTlvFlagMandatory ≠ 0
  · rw [if_pos hunknown] at hdefect ⊢
    rw [if_pos (.inl hunknown), hdefect]
    rfl
  · rw [if_neg hunknown] at hdefect ⊢
    rw [Traced.value_bind, Traced.value_ite, ← hdefect]
    by_cases hdefective : record.Defective p
    · rw [if_pos hdefective, if_pos (mt hok.mp (not_not.mpr hdefective))]
      rfl
    · rw [if_neg hdefective, if_neg (not_not.mpr (hok.mpr hdefective))]
      rfl

/-- The record loop returns the first defect of the first defective record in
front of a bad header. -/
theorem scanRecords_eq {totalLength : BitVec 32} (count : Nat) (state : ScanState) :
    (scanRecords p totalLength count state).value =
      ((walkHeaders p totalLength count state.offset).records.find? (·.Defective p)).elim
        ((walkHeaders p totalLength count state.offset).outcome.map
          (state.behind (walkHeaders p totalLength count state.offset).records))
        fun record => .error (record.defect p) := by
  induction count generalizing state with
  | zero => simp [scanRecords, walkHeaders, ScanState.behind, viewCount, Except.map]
  | succ count ih =>
      cases hrecord : (recordAtOffset p totalLength state.offset).value with
      | error error =>
          rw [scanRecords, walkHeaders, Traced.value_bind, hrecord]
          rfl
      | ok record =>
          rw [scanRecords_step count hrecord, walkHeaders_succ count hrecord, List.find?_cons]
          by_cases hdefective : record.Defective p
          · rw [if_pos hdefective, decide_eq_true hdefective]
            rfl
          · have hbehind : (state.next record (state.offset + record.serializedLength)).behind
                (walkHeaders p totalLength count (state.offset + record.serializedLength)).records =
                state.behind (record ::
                  (walkHeaders p totalLength count
                    (state.offset + record.serializedLength)).records) := by
              funext last
              exact ScanState.behind_cons state record _ _ last
            rw [if_neg hdefective, decide_eq_false hdefective, ih, ← hbehind]
            rfl

/-! ## `open` as a list of stages -/

theorem checkHeader_eq (p : Memory) (windowLength : Nat) :
    (checkHeader p windowLength).value =
      if p.slice 0 8 = bibMagic then
        if p.load16 8 = bibVersionMajorV1 then
          if p.load16 12 = 64 then
            if 64 ≤ (p.load32 16).toNat ∧ (p.load32 16).toNat ≤ windowLength ∧
                (p.load32 16).toNat ≤ 65536 ∧ (p.load32 16).toNat % 8 = 0 then
              if p.load32 20 = (crc32cWithZeroedField p (p.load32 16)).value then
                if bibHeaderFlagsAreKnown (p.load16 14) ∧ p.load64 56 = 0 then .ok (p.load32 16)
                else .error .headerReserved
              else .error .crc
            else .error .totalLength
          else .error .headerLength
        else .error .version
      else .error .magic := by
  have hmagic : (bibMagicIsValid p).value = true ↔ p.slice 0 8 = bibMagic :=
    magicIsValidFrom_iff p 0 bibMagic
  have hintegrity : (checkIntegrity p (p.load32 16)).value =
      if p.load32 20 = (crc32cWithZeroedField p (p.load32 16)).value then
        if bibHeaderFlagsAreKnown (p.load16 14) ∧ p.load64 56 = 0 then .ok (p.load32 16)
        else .error .headerReserved
      else .error .crc := by
    simp only [checkIntegrity, Traced.value_bind, Traced.value_ite, Traced.value_pure, ite_not,
      ne_eq, ite_and]
    rfl
  simp only [← hmagic, ← headerLength_eq_iff p, ← totalLength_bounds_iff p windowLength,
    ← hintegrity]
  simp only [checkHeader, Traced.value_bind, Traced.value_ite, Traced.value_pure, ite_not, ne_eq]
  rfl

/-- What `open` returns for the records of an image: the first defect of the first
defective one, and otherwise the first failure of the stages that look at all. -/
def recordsVerdict (p : Memory) : BibError :=
  ((imageWalk p).records.find? (·.Defective p)).elim
    (firstFailure .ok [boundsStage p, cardinalityStage p]) (·.defect p)

theorem walkHeaders_ne_error_ok (p : Memory) (totalLength : BitVec 32) (count : Nat)
    (offset : BitVec 32) : (walkHeaders p totalLength count offset).outcome ≠ .error .ok := by
  induction count generalizing offset with
  | zero => simp [walkHeaders]
  | succ count ih =>
      cases hrecord : (recordAtOffset p totalLength offset).value with
      | error error =>
          intro hok
          rw [walkHeaders, hrecord] at hok
          obtain rfl : error = .ok := Except.error.inj hok
          exact recordAtOffset_ne_error_ok hrecord
      | ok record =>
          rw [walkHeaders_succ count hrecord]
          exact ih _

theorem length_walkHeaders (p : Memory) (totalLength : BitVec 32) (count : Nat)
    (offset : BitVec 32) : (walkHeaders p totalLength count offset).records.length ≤ count := by
  induction count generalizing offset with
  | zero => exact le_rfl
  | succ count ih =>
      cases hrecord : (recordAtOffset p totalLength offset).value with
      | error error =>
          rw [walkHeaders, hrecord]
          exact Nat.zero_le _
      | ok record =>
          rw [walkHeaders_succ count hrecord]
          exact Nat.succ_le_succ (ih _)

/-- What `open` makes of the end of the record loop. -/
def scanVerdict (totalLength : BitVec 32) : Except BibError ScanState → BibError
  | .error error => error
  | .ok state =>
    firstFailure .ok
      [check .ok (state.offset = totalLength) .tlvBounds,
        check .ok (state.serviceCount = 1 ∧ state.memoryCount = 1) .requiredRecord]

/-- Where no record is defective, `open` looks at the end of the walk and then at
the counters. -/
theorem scanVerdict_outcome (p : Memory) :
    scanVerdict (p.load32 16) ((imageWalk p).outcome.map
      (ScanState.behind ⟨p.load32 48, 0, 0⟩ (imageWalk p).records)) =
      firstFailure .ok [boundsStage p, cardinalityStage p] := by
  have hlt : (imageWalk p).records.length < 2 ^ 32 :=
    (length_walkHeaders _ _ _ _).trans_lt (p.load32 52).isLt
  cases houtcome : (imageWalk p).outcome with
  | error error =>
      have herror : error ≠ .ok := fun hok => walkHeaders_ne_error_ok _ _ _ _ (hok ▸ houtcome)
      rw [boundsStage, houtcome]
      exact (firstFailure_cons_of_failed herror _).symm
  | ok finish =>
      rw [boundsStage, houtcome, cardinalityStage]
      simp only [Except.map, scanVerdict, ScanState.behind, ofNat_viewCount_eq_one hlt]

theorem scanVerdict_scanRecords (p : Memory) :
    scanVerdict (p.load32 16)
      (scanRecords p (p.load32 16) (p.load32 52).toNat ⟨p.load32 48, 0, 0⟩).value =
      recordsVerdict p := by
  have hscan := @scanRecords_eq p (p.load32 16) (p.load32 52).toNat ⟨p.load32 48, 0, 0⟩
  rw [hscan, recordsVerdict]
  cases hfirst : (imageWalk p).records.find? (·.Defective p) with
  | none =>
      rw [show List.find? _ (walkHeaders p _ _ _).records = none from hfirst]
      exact scanVerdict_outcome p
  | some record =>
      rw [show List.find? _ (walkHeaders p _ _ _).records = some record from hfirst]
      rfl

theorem checkRecords_eq (p : Memory) :
    (checkRecords p (viewOf p)).value =
      if 64 ≤ (p.load32 48).toNat ∧ (p.load32 48).toNat ≤ (p.load32 16).toNat ∧
        (p.load32 48).toNat % 8 = 0 then recordsVerdict p else .tlvBounds := by
  simp only [← recordArea_bounds_iff p, checkRecords]
  rw [ite_not, Traced.value_ite, Traced.value_bind, ← scanVerdict_scanRecords]
  split_ifs with hregion
  · rfl
  · change (_ : BibReading BibError).value = scanVerdict _
      (scanRecords p (viewOf p).totalLength (viewOf p).tlvCount.toNat
        ⟨(viewOf p).tlvOffset, 0, 0⟩).value
    cases (scanRecords p (viewOf p).totalLength (viewOf p).tlvCount.toNat
        ⟨(viewOf p).tlvOffset, 0, 0⟩).value with
    | error error => rfl
    | ok state =>
        simp only [scanVerdict, Traced.value_ite, ite_not, ne_eq, ← not_and_or]
        rw [firstFailure_check_cons BibError.noConfusion, firstFailure_singleton]
        rfl

theorem bibReaderOpen_eq (prior : BibView) (p : Memory) (windowLength : Nat) :
    (bibReaderOpen (some prior) (some p) windowLength).value.1 =
      firstFailure .ok (headerStages p windowLength ++ [recordsVerdict p]) := by
  have hview : (fillView p (p.load32 16)).value = viewOf p := rfl
  have hopened : ∀ error, (if error ≠ .ok then return (error, some .zero)
      else return (.ok, some (viewOf p)) : BibReading (BibError × Option BibView)).value.1 =
      error := by
    intro error
    split_ifs with herror
    · rfl
    · exact (not_not.mp herror).symm
  rw [headerStages, List.cons_append, firstFailure_check_cons BibError.noConfusion, bibReaderOpen]
  by_cases hwindow : windowLength < 64
  · rw [if_pos hwindow, if_neg (Nat.not_le.mpr hwindow)]
    rfl
  · rw [if_neg hwindow, if_pos (Nat.not_lt.mp hwindow), Traced.value_bind, checkHeader_eq]
    simp only [List.cons_append, List.nil_append]
    rw [firstFailure_check_cons BibError.noConfusion, firstFailure_check_cons BibError.noConfusion,
      firstFailure_check_cons BibError.noConfusion, firstFailure_check_cons BibError.noConfusion,
      firstFailure_check_cons BibError.noConfusion, firstFailure_check_cons BibError.noConfusion,
      firstFailure_check_cons BibError.noConfusion, firstFailure_singleton, ← checkRecords_eq]
    split_ifs
    · exact hopened (checkRecords p (viewOf p)).value
    all_goals rfl

/-! ## Where the two orders agree -/

/-- No defect of a record is reported ahead of its stage. The first defective record
in front of a bad header may be reported

* although a header is bad or the records do not end with the block, if it is too
  short and that is reported in the same way, and
* otherwise, if its type is unknown, or no type is unknown, each required record
  occurs once, and it is too short or no record is. -/
def StageOrderKept (p : Memory) (windowLength : Nat) : Prop :=
  firstFailure .ok (headerStages p windowLength) = .ok →
  ∀ record ∈ (imageWalk p).records.find? (·.Defective p),
    (boundsStage p ≠ .ok →
      boundsStage p = .tlvBounds ∧ ¬ record.UnknownMandatory ∧ record.Short) ∧
    (boundsStage p = .ok →
      record.UnknownMandatory ∨
        (∀ other ∈ (imageWalk p).records, ¬ other.UnknownMandatory) ∧
        viewCount BibTlv.serviceDirectoryReference (imageWalk p).records = 1 ∧
        viewCount BibTlv.memoryMapReference (imageWalk p).records = 1 ∧
        (record.Short ∨ ∀ other ∈ (imageWalk p).records, ¬ other.Short))

section Defect

variable {record : BibRecordView}

theorem defect_of_unknown (hunknown : record.UnknownMandatory) :
    record.defect p = .unknownMandatory := by
  rw [BibRecordView.defect, firstFailure_check_cons BibError.noConfusion,
    if_neg (not_not.mpr hunknown)]

theorem defect_of_short (hknown : ¬ record.UnknownMandatory) (hshort : record.Short) :
    record.defect p = .tlvBounds := by
  rw [BibRecordView.defect, firstFailure_check_cons BibError.noConfusion, if_pos hknown,
    firstFailure_check_cons BibError.noConfusion, if_neg (not_not.mpr hshort)]

theorem defect_of_wrapped (hknown : ¬ record.UnknownMandatory) (hlong : ¬ record.Short)
    (hwrapped : record.Wrapped p) : record.defect p = .referenceOverflow := by
  rw [BibRecordView.defect, firstFailure_check_cons BibError.noConfusion, if_pos hknown,
    firstFailure_check_cons BibError.noConfusion, if_pos hlong, firstFailure_singleton,
    check_of_fails (not_not.mpr hwrapped)]

theorem defect_of_known (hknown : ¬ record.UnknownMandatory) (hdefective : record.Defective p) :
    record.defect p = .tlvBounds ∨ record.defect p = .referenceOverflow := by
  by_cases hshort : record.Short
  · exact .inl (defect_of_short hknown hshort)
  · exact .inr (defect_of_wrapped hknown hshort
      ((hdefective.resolve_left hknown).resolve_left hshort))

/-- A bad header has one of two errors. -/
theorem recordAtOffset_error {totalLength offset : BitVec 32} {error : BibError}
    (herror : (recordAtOffset p totalLength offset).value = .error error) :
    error = .tlvBounds ∨ error = .tlvReserved := by
  simp only [recordAtOffset, Traced.value_bind, Traced.value_ite, Traced.value_pure] at herror
  split_ifs at herror <;> simp_all

theorem walkHeaders_error {totalLength : BitVec 32} {count : Nat} {offset : BitVec 32}
    {error : BibError} (herror : (walkHeaders p totalLength count offset).outcome = .error error) :
    error = .tlvBounds ∨ error = .tlvReserved := by
  induction count generalizing offset with
  | zero => cases herror
  | succ count ih =>
      cases hrecord : (recordAtOffset p totalLength offset).value with
      | error first =>
          rw [walkHeaders, hrecord] at herror
          obtain rfl : first = error := Except.error.inj herror
          exact recordAtOffset_error hrecord
      | ok record =>
          rw [walkHeaders_succ count hrecord] at herror
          exact ih herror

theorem boundsStage_cases (p : Memory) :
    boundsStage p = .ok ∨ boundsStage p = .tlvBounds ∨ boundsStage p = .tlvReserved := by
  rw [boundsStage]
  cases houtcome : (imageWalk p).outcome with
  | error error => exact .inr (walkHeaders_error houtcome)
  | ok finish =>
      by_cases hfinish : finish = p.load32 16
      · exact .inl (check_of_holds hfinish _)
      · exact .inr (.inl (check_of_fails hfinish _))

/-- A bad header hides an earlier defect only if both are reported in the same way. -/
theorem defect_eq_boundsStage_iff (hdefective : record.Defective p)
    (hbounds : boundsStage p ≠ .ok) :
    record.defect p = boundsStage p ↔
      boundsStage p = .tlvBounds ∧ ¬ record.UnknownMandatory ∧ record.Short := by
  have hcases := (boundsStage_cases p).resolve_left hbounds
  by_cases hunknown : record.UnknownMandatory
  · rw [defect_of_unknown hunknown]
    refine iff_of_false (fun heq => ?_) fun hall => hall.2.1 hunknown
    rcases hcases with hcase | hcase <;> cases heq.trans hcase
  · by_cases hshort : record.Short
    · rw [defect_of_short hunknown hshort]
      exact ⟨fun heq => ⟨heq.symm, hunknown, hshort⟩, fun hall => hall.1.symm⟩
    · have hwrapped := (hdefective.resolve_left hunknown).resolve_left hshort
      rw [defect_of_wrapped hunknown hshort hwrapped]
      refine iff_of_false (fun heq => ?_) fun hall => hshort hall.2.2
      rcases hcases with hcase | hcase <;> cases heq.trans hcase

/-- With sound headers the stages report the defect of a record only if no stage
before it fails. -/
theorem defect_eq_recordStages_iff (hrecord : record ∈ (imageWalk p).records)
    (hdefective : record.Defective p) :
    record.defect p = firstFailure .ok
        [mandatoryStage p, cardinalityStage p, payloadStage p, arithmeticStage p] ↔
      record.UnknownMandatory ∨
        (∀ other ∈ (imageWalk p).records, ¬ other.UnknownMandatory) ∧
        viewCount BibTlv.serviceDirectoryReference (imageWalk p).records = 1 ∧
        viewCount BibTlv.memoryMapReference (imageWalk p).records = 1 ∧
        (record.Short ∨ ∀ other ∈ (imageWalk p).records, ¬ other.Short) := by
  rw [mandatoryStage, cardinalityStage, payloadStage, arithmeticStage,
    firstFailure_check_cons BibError.noConfusion, firstFailure_check_cons BibError.noConfusion,
    firstFailure_check_cons BibError.noConfusion, firstFailure_singleton]
  by_cases hunknown : record.UnknownMandatory
  · rw [defect_of_unknown hunknown, if_neg fun hall => hall record hrecord hunknown]
    exact iff_of_true rfl (.inl hunknown)
  have hdefect := defect_of_known hunknown hdefective
  by_cases hknown : ∀ other ∈ (imageWalk p).records, ¬ other.UnknownMandatory
  case neg =>
    rw [if_neg hknown]
    refine iff_of_false (fun heq => ?_) fun hor => hor.elim hunknown fun hall => hknown hall.1
    rcases hdefect with hdefect | hdefect <;> cases hdefect.symm.trans heq
  rw [if_pos hknown]
  by_cases hcount : viewCount BibTlv.serviceDirectoryReference (imageWalk p).records = 1 ∧
      viewCount BibTlv.memoryMapReference (imageWalk p).records = 1
  case neg =>
    rw [if_neg hcount]
    refine iff_of_false (fun heq => ?_) fun hor => hor.elim hunknown fun hall =>
      hcount ⟨hall.2.1, hall.2.2.1⟩
    rcases hdefect with hdefect | hdefect <;> cases hdefect.symm.trans heq
  rw [if_pos hcount]
  by_cases hshort : record.Short
  · rw [defect_of_short hunknown hshort, if_neg fun hall => hall record hrecord hshort]
    exact iff_of_true rfl (.inr ⟨hknown, hcount.1, hcount.2, .inl hshort⟩)
  · have hwrapped := (hdefective.resolve_left hunknown).resolve_left hshort
    rw [defect_of_wrapped hunknown hshort hwrapped]
    by_cases hlong : ∀ other ∈ (imageWalk p).records, ¬ other.Short
    · rw [if_pos hlong, check_of_fails fun hall => hall record hrecord hwrapped]
      exact iff_of_true rfl (.inr ⟨hknown, hcount.1, hcount.2, .inr hlong⟩)
    · rw [if_neg hlong]
      exact iff_of_false BibError.noConfusion fun hor => hor.elim hunknown fun hall =>
        hall.2.2.2.elim hshort hlong

/-- With no defective record the stages come to what `open` looks at last. -/
theorem recordStages_of_sound (hsound : ∀ record ∈ (imageWalk p).records, ¬ record.Defective p) :
    firstFailure .ok (recordStages p) = firstFailure .ok [boundsStage p, cardinalityStage p] := by
  have hmandatory : mandatoryStage p = .ok :=
    if_pos fun record hrecord hunknown => hsound record hrecord (.inl hunknown)
  have hpayload : payloadStage p = .ok :=
    if_pos fun record hrecord hshort => hsound record hrecord (.inr (.inl hshort))
  have harithmetic : arithmeticStage p = .ok :=
    if_pos fun record hrecord hwrapped => hsound record hrecord (.inr (.inr hwrapped))
  rw [recordStages, hmandatory, hpayload, harithmetic]
  simp only [firstFailure]
  split_ifs <;> simp_all

end Defect

/-- `open` reports defects in the order of the stages exactly on the images that
give it no defect to report early. -/
theorem followsStageOrder_iff (p : Memory) (windowLength : Nat) :
    FollowsStageOrder p windowLength ↔ StageOrderKept p windowLength := by
  have hopen : FollowsStageOrder p windowLength ↔
      (firstFailure .ok (headerStages p windowLength) = .ok →
        recordsVerdict p = firstFailure .ok (recordStages p)) := by
    simp only [FollowsStageOrder, bibReaderOpen_eq, firstFailure_append, firstFailure_singleton]
    split_ifs with hheader
    · exact ⟨fun hall _ => hall .zero, fun hrecords _ => hrecords hheader⟩
    · exact iff_of_true (fun _ => rfl) fun hok => absurd hok hheader
  rw [hopen, StageOrderKept]
  refine imp_congr_right fun _ => ?_
  rw [recordsVerdict]
  cases hfirst : (imageWalk p).records.find? (·.Defective p) with
  | none =>
      have hsound : ∀ record ∈ (imageWalk p).records, ¬ record.Defective p := by
        simpa using hfirst
      refine iff_of_true (recordStages_of_sound hsound).symm fun record hnone => by cases hnone
  | some record =>
      have hdefective : record.Defective p := by simpa using List.find?_some hfirst
      have hrecord := List.mem_of_find?_eq_some hfirst
      simp only [Option.elim_some, Option.mem_def, Option.some.injEq, forall_eq', recordStages]
      by_cases hbounds : boundsStage p = .ok
      · rw [hbounds, firstFailure_cons_of_passed, defect_eq_recordStages_iff hrecord hdefective]
        simp
      · rw [firstFailure_cons_of_failed hbounds, defect_eq_boundsStage_iff hdefective hbounds]
        simp [hbounds]

/-! ## An image with two defects -/

/-- A record of an unknown mandatory type in front of the two references. -/
def unknownFirstBlock : BibBlock where
  toBibHeaderFields := (sampleBlock 0 0).toBibHeaderFields
  records := [
    ⟨0x0100, bibTlvFlagMandatory, []⟩,
    sampleReference BibTlv.serviceDirectoryReference bibTlvFlagMandatory 0x100000 0x2000 0,
    sampleReference BibTlv.memoryMapReference bibTlvFlagMandatory 0x200000 0x3000 0]
  records_known := by
    have hmandatory : bibTlvFlagsAreKnown bibTlvFlagMandatory = true := by decide
    simp [sampleReference, hmandatory]

/-- The block with 65536 added to the length of its second record, under the
checksum of these bytes. -/
def twoDefectsImage : Memory := ofList ((unknownFirstBlock.image 0xFE5D5F88).set 86 1)

theorem later_stage_reported :
    (bibReaderOpen (some .zero) (some twoDefectsImage) 192).value.1 = .unknownMandatory ∧
      firstFailure .ok (headerStages twoDefectsImage 192 ++ recordStages twoDefectsImage) =
        .tlvBounds ∧
      ¬ FollowsStageOrder twoDefectsImage 192 := by
  have hopen : (bibReaderOpen (some .zero) (some twoDefectsImage) 192).value.1 =
      .unknownMandatory := by decide +kernel
  have hstages : firstFailure .ok (headerStages twoDefectsImage 192 ++
      recordStages twoDefectsImage) = .tlvBounds := by decide +kernel
  refine ⟨hopen, hstages, fun hfollows => ?_⟩
  have heq := hfollows .zero
  rw [hopen, hstages] at heq
  cases heq

end Atarix
