import Atarix.Bib.Tiling

/-! # Empty mandatory references

The format calls a zero address or a zero length invalid for a mandatory
reference. No check of `open` looks at either, so an accepted block may name
nothing where the kernel expects its service directory or its memory map.
-/

namespace Atarix

open Memory

variable {p : Memory} {prior opened : BibView} {windowLength : Nat}

/-- The mandatory references that the reader hands out, decoded or as records,
name a non-empty range that does not start at zero. -/
structure MandatoryReferencesNonEmpty (view : BibView) : Prop where
  decoded : ∀ type ∈ mandatoryReferenceTypes, ∀ slot reference,
    (bibReaderFindReference (some view) type (some slot)).value = (.ok, some reference) →
    reference.address ≠ 0 ∧ reference.length ≠ 0
  payload : ∀ buffer ∈ view.buffer, ∀ index slot record,
    (bibReaderRecord (some view) index (some slot)).value = (.ok, some record) →
    record.type ∈ mandatoryReferenceTypes →
    buffer.load64 (record.payload + 8) ≠ 0 ∧ buffer.load64 (record.payload + 16) ≠ 0

/-- No mandatory reference record has eight zero bytes for its address or for its
length. -/
def MandatoryRangesFilled (p : Memory) : Prop :=
  ∀ record ∈ imageRecords p, record.type ∈ mandatoryReferenceTypes →
    ¬ p.Holds (record.payload + 8) (List.replicate 8 0) ∧
      ¬ p.Holds (record.payload + 16) (List.replicate 8 0)

theorem holds_zeros_iff {offset : Nat} :
    p.Holds offset (List.replicate 8 0) ↔ p.load64 offset = 0 :=
  @holds_le64_iff p offset 0

/-- An accepted block has non-empty mandatory references exactly if the producer
filled them in. -/
theorem mandatoryReferencesNonEmpty_iff
    (hopen : (bibReaderOpen (some prior) (some p) windowLength).value = (.ok, some opened)) :
    MandatoryReferencesNonEmpty opened ↔ MandatoryRangesFilled p := by
  obtain ⟨haccepted, rfl⟩ := imageRecordsAccepted_of_open hopen
  simp only [MandatoryRangesFilled, holds_zeros_iff]
  constructor
  · intro hnonempty record hrecord htype
    obtain ⟨index, hindex, rfl⟩ := List.getElem_of_mem hrecord
    exact hnonempty.payload p rfl _ _ _
      (bibReaderRecord_of_accepted haccepted ⟨0, 0, 0, 0, 0⟩ index hindex) htype
  · intro hfilled
    refine ⟨?_, ?_⟩
    · intro type htype slot reference hfound
      rw [findReference_ok_iff haccepted, lookupReference_ok_iff] at hfound
      obtain ⟨record, hfirst, -, rfl⟩ := hfound
      exact hfilled record (List.mem_of_find?_eq_some hfirst) (type_of_first hfirst ▸ htype)
    · rintro buffer hbuffer index slot record hrecord htype
      obtain rfl : p = buffer := Option.some.inj hbuffer
      have hmem := List.mem_of_getElem? ((bibReaderRecord_ok_iff haccepted slot).mp hrecord)
      exact hfilled record hmem htype

theorem mandatoryReferencesNonEmpty_iff_sample :
    let p := ofList (sampleBlock 0 0x300000).encode
    MandatoryReferencesNonEmpty (viewOf p) ↔ MandatoryRangesFilled p :=
  mandatoryReferencesNonEmpty_iff
    (sampleBlock_opened ⟨by decide, by decide, by decide, by decide⟩)

/-- A service directory of no bytes at address zero. -/
def emptyDirectoryBlock : BibBlock where
  toBibHeaderFields := (sampleBlock 0 0).toBibHeaderFields
  records := [
    sampleReference BibTlv.serviceDirectoryReference bibTlvFlagMandatory 0 0 0,
    sampleReference BibTlv.memoryMapReference bibTlvFlagMandatory 0x200000 0x3000 0]
  records_known := by
    have hmandatory : bibTlvFlagsAreKnown bibTlvFlagMandatory = true := by decide
    simp only [sampleReference, List.forall_mem_cons]
    exact ⟨hmandatory, hmandatory, List.forall_mem_nil _⟩

theorem empty_directory_opened :
    let p := ofList emptyDirectoryBlock.encode
    (bibReaderOpen (some .zero) (some p) 176).value = (.ok, some (viewOf p)) ∧
      (∃ reference, (bibReaderFindReference (some (viewOf p)) BibTlv.serviceDirectoryReference
          (some ⟨0, 0, 0, 0, 0, 0, 0, 0⟩)).value = (.ok, some reference) ∧
        reference.address = 0 ∧ reference.length = 0) ∧
      ¬ MandatoryReferencesNonEmpty (viewOf p) := by
  intro p
  have hsize : emptyDirectoryBlock.size = 176 := by
    simp [emptyDirectoryBlock, sampleReference, BibBlock.size, recordsSize, BibRecord.size]
  have hopened := BibBlock.open_eq hsize (by decide) ⟨by decide, by decide, by decide, by decide⟩
  have hfound : ∃ reference, (bibReaderFindReference (some (viewOf p))
        BibTlv.serviceDirectoryReference (some ⟨0, 0, 0, 0, 0, 0, 0, 0⟩)).value =
          (.ok, some reference) ∧ reference.address = 0 ∧ reference.length = 0 :=
    ⟨referenceViewAt p 80, by decide +kernel, by decide +kernel, by decide +kernel⟩
  refine ⟨hopened, hfound, ?_⟩
  intro hnonempty
  obtain ⟨reference, hreference, haddress, -⟩ := hfound
  exact (hnonempty.decoded BibTlv.serviceDirectoryReference (by decide) _ reference hreference).1
    haddress

end Atarix
