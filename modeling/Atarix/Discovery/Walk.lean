import Atarix.Discovery.Contents
import Atarix.Foundation.Iteration

/-! # The validator and the iterator walk the same records

The validator bounds its walk by the declared length and stops at the END record.
The iterator is bounded by the size of the image and does not look at types. Up to
the END record of an accepted image both visit the same records.
-/

namespace Atarix

open Iteration

/-- The record loop of `atarix_discovery_validate`, with the offsets of the records it looks at. -/
def discoveryVisitRecords (image : Memory) (totalLength offset : Nat)
    (recordsSeen : BitVec 32) : Traced Nat (Except DiscoveryResult (BitVec 32)) :=
  if offset < totalLength then
    if offset % 8 ≠ 0 then ⟨.error .badAlignment, []⟩
    else if totalLength - offset < discoveryRecordHeaderSizeV1 then ⟨.error .truncatedRecord, []⟩
    else if hlength : recordLength image offset < discoveryRecordHeaderSizeV1 ∨
        recordLength image offset % 8 ≠ 0 then ⟨.error .badLength, [offset]⟩
    else if recordLength image offset > totalLength - offset then
      ⟨.error .truncatedRecord, [offset]⟩
    else if recordType image offset = DiscoveryRecord.endOfRecords then
      ⟨.ok (recordsSeen + 1), [offset]⟩
    else
      let rest := discoveryVisitRecords image totalLength (offset + recordLength image offset)
        (recordsSeen + 1)
      ⟨rest.value, offset :: rest.trace⟩
  else ⟨.error .missingEnd, []⟩
termination_by totalLength - offset
decreasing_by
  simp only [discoveryRecordHeaderSizeV1] at hlength
  omega

/-- The offsets of the records that the validator looks at, in order. -/
def discoveryVisits (image : Memory) : List Nat :=
  (discoveryVisitRecords image (DiscoveryHeader.totalLength image) discoveryHeaderSizeV1 0).trace

/-- The record after `count` applications of `atarix_discovery_next_record` to the first one. -/
def discoveryWalk (image : Memory) (imageSize : Nat) : Nat → Option Nat :=
  after (discoveryNextRecord image imageSize) (discoveryFirstRecord imageSize)

variable {image : Memory} {imageSize totalLength record : Nat} {records : List Nat}

/-- Noting the offsets leaves the loop as it is. -/
theorem visitRecords_value (image : Memory) (totalLength offset : Nat) (recordsSeen : BitVec 32) :
    (discoveryVisitRecords image totalLength offset recordsSeen).value =
      discoveryValidateRecords image totalLength offset recordsSeen := by
  fun_induction discoveryVisitRecords image totalLength offset recordsSeen
  all_goals rw [discoveryValidateRecords]
  all_goals simp only [*, ne_eq, not_false_eq_true, if_true, if_false, dite_true, dite_false]
  case case6 ih => exact ih

/-! ## The visits of an accepted image -/

/-- Both walks from a record of a chain on: the records of the chain and the END record. -/
structure WalksToEnd (image : Memory) (imageSize totalLength record : Nat) (records : List Nat)
    (last : Nat) : Prop where
  visits : ∀ recordsSeen,
    (discoveryVisitRecords image totalLength record recordsSeen).trace = records ++ [last]
  walk : ∀ count ≤ records.length,
    after (discoveryNextRecord image imageSize) (some record) count = (records ++ [last])[count]?
  notEnd : ∀ visited ∈ records, recordType image visited ≠ DiscoveryRecord.endOfRecords
  isEnd : recordType image last = DiscoveryRecord.endOfRecords
  fits : ∀ visited ∈ records ++ [last], RecordFits image totalLength visited

/-- At a record that fits, the loop asks for its type only. -/
theorem visitRecords_of_fits (fits : RecordFits image totalLength record)
    (recordsSeen : BitVec 32) : discoveryVisitRecords image totalLength record recordsSeen =
      if recordType image record = DiscoveryRecord.endOfRecords then
        ⟨.ok (recordsSeen + 1), [record]⟩
      else
        let rest := discoveryVisitRecords image totalLength (record + recordLength image record)
          (recordsSeen + 1)
        ⟨rest.value, record :: rest.trace⟩ := by
  have hheader := fits.header_le
  have hle := fits.le_total
  have hsize : discoveryRecordHeaderSizeV1 = 8 := rfl
  rw [discoveryVisitRecords, if_pos (by omega), if_neg (by simp [fits.aligned]),
    if_neg (by omega), dif_neg (by simp [fits.length_aligned, hheader]), if_neg (by omega)]

/-- By induction on the chain: one record more is one application more. -/
theorem walksToEnd_of_chain (htotal : totalLength ≤ imageSize)
    (hchain : RecordChain image totalLength record records) :
    ∃ last, WalksToEnd image imageSize totalLength record records last := by
  induction hchain with
  | @stop record fits isEnd =>
      refine ⟨record, fun recordsSeen => ?_, fun count hcount => ?_,
        List.forall_mem_nil _, isEnd, List.forall_mem_singleton.mpr fits⟩
      · rw [visitRecords_of_fits fits, if_pos isEnd]
        rfl
      · obtain rfl : count = 0 := Nat.le_zero.mp hcount
        rfl
  | @next record rest fits notEnd chain ih =>
      obtain ⟨last, hwalks⟩ := ih
      refine ⟨last, fun recordsSeen => ?_, fun count hcount => ?_,
        List.forall_mem_cons.mpr ⟨notEnd, hwalks.notEnd⟩, hwalks.isEnd,
        List.forall_mem_cons.mpr ⟨fits, hwalks.fits⟩⟩
      · rw [visitRecords_of_fits fits, if_neg notEnd]
        exact congrArg (record :: ·) (hwalks.visits (recordsSeen + 1))
      · cases count with
        | zero => rfl
        | succ count =>
            rw [after_succ, Option.bind_some, nextRecord_of_chain fits chain htotal,
              hwalks.walk count (Nat.le_of_succ_le_succ hcount)]
            rfl

/-! ## The whole walk -/

/-- The walk ends, in every image. -/
theorem discoveryWalk_ends (image : Memory) (imageSize : Nat) :
    ∃ count, discoveryWalk image imageSize count = none :=
  @exists_after_eq_none _ _ id imageSize (fun _ _ => discoveryNextRecord_lt) _

/-- The parser does not run out of records before the END record. -/
theorem parseRecords_ne_missingEnd (htotal : totalLength ≤ imageSize)
    (hchain : RecordChain image totalLength record records) (db : DiscoveryDatabase) :
    (discoveryParseRecords image imageSize record db).value.1 ≠ .missingEnd := by
  by_cases hadmits : (recordAdmission image).AdmitsAll db records
  · rw [parseRecords_of_admitsAll htotal hchain hadmits]
    simp
  · obtain ⟨stored, refused, rest, -, -, houtcome⟩ :=
      parseRecords_of_not_admitsAll htotal hchain hadmits
    rw [houtcome]
    unfold refusal
    split_ifs
    all_goals simp

theorem discoveryParse_ne_missingEnd
    (hvalid : discoveryValidate (some image) imageSize = .ok) (db : Option DiscoveryDatabase) :
    (discoveryParse (some image) imageSize db).value.1 ≠ .missingEnd := by
  cases db with
  | none => simp [discoveryParse]
  | some db =>
      obtain ⟨records, haccepted⟩ := acceptedImage_of_validate hvalid
      rw [discoveryParse_of_valid hvalid]
      exact parseRecords_ne_missingEnd haccepted.total_le haccepted.chain db

/-- The iterator comes to the records that the validator visited, in their order, up to the
END record. -/
theorem discoveryWalk_visits (hvalid : discoveryValidate (some image) imageSize = .ok) :
    ∃ records last, discoveryVisits image = records ++ [last] ∧
      (∀ count ≤ records.length,
        discoveryWalk image imageSize count = (records ++ [last])[count]?) ∧
      (∀ record ∈ records, recordType image record ≠ DiscoveryRecord.endOfRecords) ∧
      recordType image last = DiscoveryRecord.endOfRecords ∧
      (∀ record ∈ records ++ [last],
        record + recordLength image record ≤ DiscoveryHeader.totalLength image) ∧
      (∀ count record, discoveryWalk image imageSize count = some record → record < imageSize) ∧
      (∃ count, discoveryWalk image imageSize count = none) ∧
      ∀ db, (discoveryParse (some image) imageSize db).value.1 ≠ .missingEnd := by
  obtain ⟨records, haccepted⟩ := acceptedImage_of_validate hvalid
  obtain ⟨last, hwalks⟩ := walksToEnd_of_chain haccepted.total_le haccepted.chain
  have hfirst : discoveryFirstRecord imageSize = some discoveryHeaderSizeV1 :=
    if_neg (Nat.not_lt.mpr haccepted.header_le)
  have hinside : discoveryHeaderSizeV1 < imageSize := by
    have hfits : RecordFits image (DiscoveryHeader.totalLength image) discoveryHeaderSizeV1 := by
      cases haccepted.chain <;> assumption
    have hheader := hfits.header_le
    have hle := hfits.le_total
    have htotal := haccepted.total_le
    simp only [discoveryRecordHeaderSizeV1] at hheader
    omega
  refine ⟨records, last, hwalks.visits 0, ?_, hwalks.notEnd, hwalks.isEnd,
    fun record hrecord => (hwalks.fits record hrecord).le_total, ?_,
    discoveryWalk_ends image imageSize, discoveryParse_ne_missingEnd hvalid⟩
  · rw [discoveryWalk, hfirst]
    exact hwalks.walk
  · intro count record hrecord
    refine @after_induction _ _ (· < imageSize) _ (fun element helement => ?_)
      (fun element successor hnext => ?_) count record hrecord
    · obtain rfl := Option.some.inj (hfirst.symm.trans helement)
      exact hinside
    · exact (discoveryNextRecord_lt hnext).2

theorem discoveryWalk_visits_short :
    ∃ records last, discoveryVisits shortResourceImage = records ++ [last] ∧
      recordType shortResourceImage last = DiscoveryRecord.endOfRecords := by
  have hvalid : discoveryValidate (some shortResourceImage) 56 = .ok := by decide +kernel
  obtain ⟨records, last, hvisits, -, -, hend, -⟩ := discoveryWalk_visits hvalid
  exact ⟨records, last, hvisits, hend⟩

/-- Applied to the END record, the iterator goes on into the bytes behind the image. -/
theorem walk_beyond_end :
    discoveryValidate (some shortResourceImage) 56 = .ok ∧
      DiscoveryHeader.totalLength shortResourceImage = 48 ∧
      discoveryVisits shortResourceImage = [32, 40] ∧
      recordType shortResourceImage 40 = DiscoveryRecord.endOfRecords ∧
      discoveryWalk shortResourceImage 56 2 = some 48 ∧
      ¬ ∀ count, discoveryWalk shortResourceImage 56 count =
        (discoveryVisits shortResourceImage)[count]? := by
  have hvisits : discoveryVisits shortResourceImage = [32, 40] := by decide +kernel
  have hwalk : discoveryWalk shortResourceImage 56 2 = some 48 := by decide +kernel
  refine ⟨by decide +kernel, by decide +kernel, hvisits, by decide +kernel, hwalk, fun hall => ?_⟩
  have hthird := hall 2
  rw [hwalk, hvisits] at hthird
  cases hthird

end Atarix
