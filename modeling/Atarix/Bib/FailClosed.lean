import Atarix.Bib.References

/-! # Views after a failed open

Every error exit of `open` clears the view except the first, which is taken for
a NULL buffer or a short window. There a view keeps what it held before.
-/

namespace Atarix

open Memory

/-- Nothing can be read through the view. -/
structure ViewClosed (view : Option BibView) : Prop where
  record : ∀ index record, (bibReaderRecord view index record).value.1 ≠ .ok
  reference : ∀ type reference, (bibReaderFindReference view type reference).value.1 ≠ .ok

/-- The view has a buffer, counts at least one record, and its first record fits. -/
def BibView.HasFirstRecord (view : BibView) : Prop :=
  ∃ p, view.buffer = some p ∧ view.tlvCount ≠ 0 ∧
    BibRecordFits p view.totalLength.toNat view.tlvOffset.toNat

section View

variable {view : BibView}

/-- A record inside the count is read exactly if the walk to it succeeds. -/
theorem bibReaderRecord_ok_iff_walk {p : Memory} (hbuffer : view.buffer = some p)
    {index : BitVec 32} (hindex : ¬ index ≥ view.tlvCount) (prior : BibRecordView) :
    (bibReaderRecord (some view) index (some prior)).value.1 = .ok ↔
      ∃ record, (walkRecords p view.totalLength index.toNat view.tlvOffset).value = .ok record := by
  simp only [bibReaderRecord, hbuffer, if_neg hindex, Traced.value_bind]
  cases hwalk : (walkRecords p view.totalLength index.toNat view.tlvOffset).value with
  | error error =>
      refine iff_of_false ?_ ?_
      · rintro rfl
        exact walkRecords_ne_error_ok _ _ hwalk
      · rintro ⟨record, hok⟩
        cases hok
  | ok record => exact iff_of_true rfl ⟨record, rfl⟩

/-- Every walk begins at the first record. -/
theorem walkRecords_of_unfit {p : Memory} {totalLength offset : BitVec 32}
    (hunfit : ¬ BibRecordFits p totalLength.toNat offset.toNat) (count : Nat)
    (record : BibRecordView) : (walkRecords p totalLength count offset).value ≠ .ok record := by
  cases hfirst : (recordAtOffset p totalLength offset).value with
  | ok first => exact absurd (recordAtOffset_ok_iff.mp hfirst).1 hunfit
  | error error =>
      intro hok
      cases count with
      | zero => cases hfirst.symm.trans hok
      | succ count =>
          rw [walkRecords, Traced.value_bind, hfirst] at hok
          cases hok

theorem bibReaderRecord_of_unfit (hnone : ¬ view.HasFirstRecord) (index : BitVec 32)
    (record : Option BibRecordView) : (bibReaderRecord (some view) index record).value.1 ≠ .ok := by
  cases record with
  | none => exact BibError.noConfusion
  | some prior =>
      cases hbuffer : view.buffer with
      | none =>
          simp only [bibReaderRecord, hbuffer]
          exact BibError.noConfusion
      | some p =>
          by_cases hindex : index ≥ view.tlvCount
          · simp only [bibReaderRecord, hbuffer, if_pos hindex]
            exact BibError.noConfusion
          have hcount : view.tlvCount ≠ 0 := by
            intro hzero
            apply hindex
            rw [hzero, ge_iff_le, BitVec.le_def]
            exact Nat.zero_le _
          have hunfit : ¬ BibRecordFits p view.totalLength.toNat view.tlvOffset.toNat :=
            fun hfits => hnone ⟨p, hbuffer, hcount, hfits⟩
          rw [ne_eq, bibReaderRecord_ok_iff_walk hbuffer hindex]
          rintro ⟨found, hwalk⟩
          exact walkRecords_of_unfit hunfit _ found hwalk

theorem findReferenceFrom_of_unfit (hnone : ¬ view.HasFirstRecord) (type : BitVec 16)
    (remaining : Nat) (index : BitVec 32) :
    ∃ error, (findReferenceFrom view type remaining index).value = .error error ∧ error ≠ .ok := by
  cases remaining with
  | zero => exact ⟨.requiredRecord, rfl, BibError.noConfusion⟩
  | succ remaining =>
      have hrecord := bibReaderRecord_of_unfit hnone index (some ⟨0, 0, 0, 0, 0⟩)
      refine ⟨_, ?_, hrecord⟩
      rw [findReferenceFrom, Traced.value_bind, if_pos hrecord]
      rfl

/-- A view is closed exactly if it has no first record. -/
theorem viewClosed_iff : ViewClosed (some view) ↔ ¬ view.HasFirstRecord := by
  constructor
  · rintro hclosed ⟨p, hbuffer, hcount, hfits⟩
    have hindex : ¬ (0 : BitVec 32) ≥ view.tlvCount := fun hle => hcount (BitVec.le_zero_iff.mp hle)
    apply hclosed.record 0 (some ⟨0, 0, 0, 0, 0⟩)
    rw [bibReaderRecord_ok_iff_walk hbuffer hindex]
    exact ⟨_, recordAtOffset_ok_iff.mpr ⟨hfits, rfl⟩⟩
  · intro hnone
    constructor
    · exact fun index record => bibReaderRecord_of_unfit hnone index record
    · intro type reference
      cases reference with
      | none => exact BibError.noConfusion
      | some prior =>
          obtain ⟨error, hfind, herror⟩ :=
            findReferenceFrom_of_unfit hnone type view.tlvCount.toNat 0
          simp only [bibReaderFindReference]
          rw [Traced.value_bind, hfind]
          exact herror

theorem zero_viewClosed : ViewClosed (some .zero) := by
  apply viewClosed_iff.mpr
  rintro ⟨p, hbuffer, -⟩
  cases hbuffer

end View

variable {prior : BibView} {buffer : Option Memory} {windowLength : Nat}

/-- An open that fails past its first test has cleared the view. -/
theorem bibReaderOpen_cleared {p : Memory} (hwindow : 64 ≤ windowLength)
    (hfailed : (bibReaderOpen (some prior) (some p) windowLength).value.1 ≠ .ok) :
    (bibReaderOpen (some prior) (some p) windowLength).value.2 = some .zero := by
  simp only [bibReaderOpen, if_neg (Nat.not_lt.mpr hwindow), Traced.value_bind] at hfailed ⊢
  cases hheader : (checkHeader p windowLength).value with
  | error error => rfl
  | ok totalLength =>
      simp only [hheader, Traced.value_bind, Traced.value_ite, Traced.value_pure] at hfailed ⊢
      split_ifs at hfailed ⊢ with hrecords
      · rfl
      · exact absurd rfl hfailed

/-- An open that fails its first test has not touched the view. -/
theorem bibReaderOpen_untouched (hfirst : ¬ (buffer.isSome ∧ 64 ≤ windowLength)) :
    (bibReaderOpen (some prior) buffer windowLength).value = (.window, some prior) := by
  cases buffer with
  | none => rfl
  | some p =>
      have hshort : windowLength < 64 := by
        by_contra hlong
        exact hfirst ⟨rfl, Nat.not_lt.mp hlong⟩
      simp only [bibReaderOpen, if_pos hshort]
      rfl

/-- A failed open leaves a closed view exactly if it came past its first test, or
the view was of no use before. -/
theorem failedOpen_viewClosed_iff
    (hfailed : (bibReaderOpen (some prior) buffer windowLength).value.1 ≠ .ok) :
    ViewClosed (bibReaderOpen (some prior) buffer windowLength).value.2 ↔
      (buffer.isSome ∧ 64 ≤ windowLength) ∨ ¬ prior.HasFirstRecord := by
  by_cases hfirst : buffer.isSome ∧ 64 ≤ windowLength
  · obtain ⟨hsome, hwindow⟩ := hfirst
    obtain ⟨p, rfl⟩ := Option.isSome_iff_exists.mp hsome
    rw [bibReaderOpen_cleared hwindow hfailed]
    exact iff_of_true zero_viewClosed (Or.inl ⟨rfl, hwindow⟩)
  · rw [bibReaderOpen_untouched hfirst, viewClosed_iff, or_iff_right hfirst]

/-- An image that opens. -/
def reusedImage : Memory := ofList (sampleBlock 0 0x300000).encode

theorem failedOpen_viewClosed_iff_magic :
    ViewClosed (bibReaderOpen (some (viewOf reusedImage)) (some fun _ => 0) 64).value.2 :=
  (failedOpen_viewClosed_iff (by decide)).mpr (Or.inl ⟨rfl, le_rfl⟩)

/-- A view that was opened, and is passed to an open with a window of 63 bytes,
still gives out the records of the earlier image. -/
theorem stale_view_readable :
    (bibReaderOpen (some .zero) (some reusedImage) 232).value = (.ok, some (viewOf reusedImage)) ∧
      (bibReaderOpen (some (viewOf reusedImage)) (some reusedImage) 63).value =
        (.window, some (viewOf reusedImage)) ∧
      (bibReaderRecord (some (viewOf reusedImage)) 0 (some ⟨0, 0, 0, 0, 0⟩)).value.1 = .ok ∧
      ¬ ViewClosed (bibReaderOpen (some (viewOf reusedImage)) (some reusedImage) 63).value.2 := by
  have hopened : (bibReaderOpen (some .zero) (some reusedImage) 232).value =
      (.ok, some (viewOf reusedImage)) :=
    sampleBlock_opened ⟨by decide, by decide, by decide, by decide⟩
  have hread : (bibReaderRecord (some (viewOf reusedImage)) 0
      (some ⟨0, 0, 0, 0, 0⟩)).value.1 = .ok := by decide +kernel
  have hshort : (bibReaderOpen (some (viewOf reusedImage)) (some reusedImage) 63).value =
      (.window, some (viewOf reusedImage)) :=
    bibReaderOpen_untouched fun hfirst => absurd hfirst.2 (by decide)
  refine ⟨hopened, hshort, hread, fun hclosed => ?_⟩
  rw [hshort] at hclosed
  exact hclosed.record 0 _ hread

end Atarix
