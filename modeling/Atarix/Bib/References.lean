import Atarix.Bib.Records
import Atarix.Bib.RoundTrip
import Mathlib.Algebra.Order.BigOperators.Group.List
import Mathlib.Algebra.Order.Group.Nat

/-! # What an opened block promises about its references

`open` checks the ranges of the two mandatory references, and the lookup checks
what the payload declares. Neither check covers the other: a mandatory reference
may be refused after the block was accepted, and an optional one may name a range
that wraps.
-/

namespace Atarix

open Memory

variable {p : Memory} {prior opened : BibView} {windowLength : Nat}

/-- A successful `open` hands back the view of an accepted image. -/
theorem imageRecordsAccepted_of_open
    (hopen : (bibReaderOpen (some prior) (some p) windowLength).value = (.ok, some opened)) :
    ImageRecordsAccepted p ∧ opened = viewOf p := by
  have hok : (bibReaderOpen (some prior) (some p) windowLength).value.1 = .ok := by rw [hopen]
  have hview := bibReaderOpen_view hok
  rw [hopen] at hview
  exact ⟨((bibReaderOpen_ok_iff_imageRecords prior p windowLength).mp hok).2.2,
    Option.some.inj hview⟩

/-- The one record of a type that occurs once is the first of its type. -/
theorem exists_first_of_viewCount {type : BitVec 16} {records : List BibRecordView}
    (hcount : viewCount type records = 1) :
    ∃ record, records.find? (·.type = type) = some record ∧
      ∀ other ∈ records, other.type = type → other = record := by
  rw [viewCount, List.countP_eq_length_filter, List.length_eq_one_iff] at hcount
  obtain ⟨record, hfilter⟩ := hcount
  refine ⟨record, ?_, ?_⟩
  · rw [← List.head?_filter, hfilter]
    rfl
  · intro other hother htype
    have hmem : other ∈ records.filter fun record => record.type = type :=
      List.mem_filter.mpr ⟨hother, decide_eq_true htype⟩
    rw [hfilter] at hmem
    exact List.mem_singleton.mp hmem

theorem type_of_first {type : BitVec 16} {records : List BibRecordView} {record : BibRecordView}
    (hfirst : records.find? (·.type = type) = some record) : record.type = type := by
  simpa using List.find?_some hfirst

/-! ## The records of a block -/

/-- The views of serialized records, the first of them at `offset`. -/
def viewsAt : Nat → List BibRecord → List BibRecordView
  | _, [] => []
  | offset, record :: records => record.view offset :: viewsAt (offset + record.size) records

theorem recordViewsFrom_eq_viewsAt {offset : Nat} (records : List BibRecord)
    (hholds : p.Holds offset (encodeRecords records))
    (hlt : ∀ record ∈ records, record.size < 2 ^ 32) :
    recordViewsFrom p records.length offset = viewsAt offset records := by
  induction records generalizing offset with
  | nil => rfl
  | cons record records ih =>
      rw [encodeRecords_cons, holds_append, BibRecord.length_encode] at hholds
      obtain ⟨hrecord, hrest⟩ := hholds
      obtain ⟨-, -, hsize, -⟩ := record.holds_encode.mp hrecord
      have hsize' : (p.load32 (offset + 4)).toNat = record.size := by
        rw [hsize.load32]
        exact Nat.mod_eq_of_lt (hlt record List.mem_cons_self)
      rw [List.length_cons, recordViewsFrom, viewsAt, BibRecord.recordViewAt_eq hrecord, hsize',
        ih hrest fun other hother => hlt other (List.mem_cons_of_mem _ hother)]

theorem BibBlock.imageRecords_eq {block : BibBlock} (hholds : p.Holds 0 block.encode)
    (hsize : block.size < 2 ^ 32) : imageRecords p = viewsAt 64 block.records := by
  obtain ⟨-, hrecords⟩ := block.holds_image.mp hholds
  have hview := viewOf_eq hholds
  have hoffset : (p.load32 48).toNat = 64 := congrArg (BitVec.toNat ∘ BibView.tlvOffset) hview
  have hcount : (p.load32 52).toNat = block.records.length := by
    have hlt := block.records_length_lt hsize
    rw [show p.load32 52 = _ from congrArg BibView.tlvCount hview]
    exact Nat.mod_eq_of_lt (by omega)
  rw [imageRecords, hoffset, hcount]
  refine recordViewsFrom_eq_viewsAt block.records hrecords fun record hrecord => ?_
  have hle : record.size ≤ recordsSize block.records :=
    List.le_sum_of_mem (List.mem_map_of_mem hrecord)
  unfold size at hsize
  omega

/-! ## Mandatory references -/

def mandatoryReferenceTypes : List (BitVec 16) :=
  [BibTlv.serviceDirectoryReference, BibTlv.memoryMapReference]

/-- Both mandatory references can be looked up. -/
def MandatoryReferencesUsable (view : BibView) : Prop :=
  ∀ type ∈ mandatoryReferenceTypes, ∀ prior,
    (bibReaderFindReference (some view) type (some prior)).value.1 = .ok

/-- Every mandatory reference record has room for the integrity bytes it declares. -/
def MandatoryIntegrityFits (p : Memory) : Prop :=
  ∀ record ∈ imageRecords p, record.type ∈ mandatoryReferenceTypes →
    40 + declaredIntegrity p record ≤ record.payloadLength.toNat

theorem ImageRecordsAccepted.exists_mandatory (haccepted : ImageRecordsAccepted p)
    {type : BitVec 16} (htype : type ∈ mandatoryReferenceTypes) :
    ∃ record, (imageRecords p).find? (·.type = type) = some record ∧
      ∀ other ∈ imageRecords p, other.type = type → other = record := by
  rcases List.mem_cons.mp htype with rfl | htype
  · exact exists_first_of_viewCount haccepted.one_service
  · rw [List.mem_singleton.mp htype]
    exact exists_first_of_viewCount haccepted.one_memory

/-- The mandatory references of an opened block can be looked up exactly if what
their payloads declare has room in them. -/
theorem mandatoryReferencesUsable_iff
    (hopen : (bibReaderOpen (some prior) (some p) windowLength).value = (.ok, some opened)) :
    MandatoryReferencesUsable opened ↔ MandatoryIntegrityFits p := by
  obtain ⟨haccepted, rfl⟩ := imageRecordsAccepted_of_open hopen
  simp only [MandatoryReferencesUsable, findReference_status_iff haccepted]
  constructor
  · intro husable record hrecord htype
    obtain ⟨first, hfirst, honly⟩ := haccepted.exists_mandatory htype
    obtain ⟨found, hfound, hfits⟩ := husable record.type htype ⟨0, 0, 0, 0, 0, 0, 0, 0⟩
    obtain rfl : first = found := Option.some.inj (hfirst.symm.trans hfound)
    rwa [honly record hrecord rfl]
  · intro hfits type htype _
    obtain ⟨first, hfirst, -⟩ := haccepted.exists_mandatory htype
    have hfirstType : first.type = type := type_of_first hfirst
    exact ⟨first, hfirst,
      hfits first (List.mem_of_find?_eq_some hfirst) (hfirstType ▸ htype)⟩

/-! ## Ranges -/

def optionalReferenceTypes : List (BitVec 16) :=
  [BibTlv.auditLogReference, BibTlv.entropySeedReference]

/-- No reference that is handed out names a range that wraps. -/
def NoWrappedReference (view : BibView) : Prop :=
  ∀ type ∈ mandatoryReferenceTypes ++ optionalReferenceTypes, ∀ prior reference,
    (bibReaderFindReference (some view) type (some prior)).value = (.ok, some reference) →
    reference.address.toNat + reference.length.toNat < 2 ^ 64

/-- The first audit-log and the first entropy-seed record name ranges that do not
wrap, if they have room for what they declare. -/
def OptionalRangesFit (p : Memory) : Prop :=
  ∀ type ∈ optionalReferenceTypes, ∀ record,
    (imageRecords p).find? (·.type = type) = some record →
    40 + declaredIntegrity p record ≤ record.payloadLength.toNat →
    (p.load64 (record.payload + 8)).toNat + (p.load64 (record.payload + 16)).toNat < 2 ^ 64

/-- A range that `open` has checked. -/
theorem ImageRecordsAccepted.range (haccepted : ImageRecordsAccepted p) {record : BibRecordView}
    (hrecord : record ∈ imageRecords p) (htype : record.type ∈ mandatoryReferenceTypes) :
    (p.load64 (record.payload + 8)).toNat + (p.load64 (record.payload + 16)).toNat < 2 ^ 64 := by
  refine (checkRequiredReference_ok_iff.mp (haccepted.checked record hrecord).reference ?_).2
  simpa [mandatoryReferenceTypes] using htype

/-- An opened block hands out no wrapped range exactly if its optional references
name none. -/
theorem noWrappedReference_iff
    (hopen : (bibReaderOpen (some prior) (some p) windowLength).value = (.ok, some opened)) :
    NoWrappedReference opened ↔ OptionalRangesFit p := by
  obtain ⟨haccepted, rfl⟩ := imageRecordsAccepted_of_open hopen
  simp only [NoWrappedReference, findReference_ok_iff haccepted, lookupReference_ok_iff]
  constructor
  · intro hranges type htype record hfirst hfits
    exact hranges type (List.mem_append_right _ htype) ⟨0, 0, 0, 0, 0, 0, 0, 0⟩ _
      ⟨record, hfirst, hfits, rfl⟩
  · rintro hoptional type htype - reference ⟨record, hfirst, hfits, rfl⟩
    rcases List.mem_append.mp htype with hmandatory | htype
    · have hrecordType : record.type = type := type_of_first hfirst
      exact haccepted.range (List.mem_of_find?_eq_some hfirst) (hrecordType ▸ hmandatory)
    · exact hoptional type htype record hfirst hfits

/-! ## Blocks on which the checks differ -/

def sampleReference (type flags : BitVec 16) (address length : BitVec 64)
    (integrityLength : BitVec 32) : BibRecord where
  type := type
  flags := flags
  payload := le64 0x1001 ++ le64 address ++ le64 length ++ le32 1 ++ le32 0 ++ le32 0 ++
    le32 integrityLength

/-- A service directory that declares `integrityLength` bytes behind its fixed
payload, a memory map, and an audit log at `address`. -/
def sampleBlock (integrityLength : BitVec 32) (address : BitVec 64) : BibBlock where
  flags := 0
  bootId := 1
  producerId := 2
  createdCounter := 3
  flags_known := by decide
  records := [
    sampleReference BibTlv.serviceDirectoryReference bibTlvFlagMandatory 0x100000 0x2000
      integrityLength,
    sampleReference BibTlv.memoryMapReference bibTlvFlagMandatory 0x200000 0x3000 0,
    sampleReference BibTlv.auditLogReference 0 address 0x1000 0]
  records_known := by
    have hnone : bibTlvFlagsAreKnown 0#16 = true := by decide
    have hmandatory : bibTlvFlagsAreKnown bibTlvFlagMandatory = true := by decide
    simp [sampleReference, hnone, hmandatory]

theorem BibBlock.open_eq {block : BibBlock} {windowLength : Nat}
    (hsize : block.size = windowLength) (hmax : windowLength ≤ 65536)
    (hacceptable : RecordsAcceptable block.records) :
    (bibReaderOpen (some .zero) (some (ofList block.encode)) windowLength).value =
      (.ok, some (viewOf (ofList block.encode))) := by
  have hok := (block.open_ok_iff (holds_ofList _) (by omega) hsize.le .zero).mpr
    ⟨hsize.trans_le hmax, hacceptable⟩
  exact Prod.ext hok (bibReaderOpen_view hok)

theorem sampleBlock_size (integrityLength : BitVec 32) (address : BitVec 64) :
    (sampleBlock integrityLength address).size = 232 := by
  simp [sampleBlock, sampleReference, BibBlock.size, recordsSize, BibRecord.size]

theorem sampleBlock_opened {integrityLength : BitVec 32} {address : BitVec 64}
    (hacceptable : RecordsAcceptable (sampleBlock integrityLength address).records) :
    (bibReaderOpen (some .zero) (some (ofList (sampleBlock integrityLength address).encode))
      232).value = (.ok, some (viewOf (ofList (sampleBlock integrityLength address).encode))) :=
  BibBlock.open_eq (sampleBlock_size _ _) (by decide) hacceptable

theorem mandatoryReferencesUsable_iff_sample :
    let p := ofList (sampleBlock 0 0x300000).encode
    MandatoryReferencesUsable (viewOf p) ↔ MandatoryIntegrityFits p :=
  mandatoryReferencesUsable_iff (sampleBlock_opened ⟨by decide, by decide, by decide, by decide⟩)

theorem noWrappedReference_iff_sample :
    let p := ofList (sampleBlock 0 0x300000).encode
    NoWrappedReference (viewOf p) ↔ OptionalRangesFit p :=
  noWrappedReference_iff (sampleBlock_opened ⟨by decide, by decide, by decide, by decide⟩)

/-- A service directory that declares one integrity byte it has no room for. -/
theorem unusable_reference_opened :
    let p := ofList (sampleBlock 1 0x300000).encode
    (bibReaderOpen (some .zero) (some p) 232).value = (.ok, some (viewOf p)) ∧
      (bibReaderFindReference (some (viewOf p)) BibTlv.serviceDirectoryReference
        (some ⟨0, 0, 0, 0, 0, 0, 0, 0⟩)).value.1 = .referenceIntegrity ∧
      ¬ MandatoryReferencesUsable (viewOf p) := by
  intro p
  have hstatus : (bibReaderFindReference (some (viewOf p)) BibTlv.serviceDirectoryReference
      (some ⟨0, 0, 0, 0, 0, 0, 0, 0⟩)).value.1 = .referenceIntegrity := by decide +kernel
  refine ⟨sampleBlock_opened ⟨by decide, by decide, by decide, by decide⟩, hstatus, ?_⟩
  intro husable
  have hok := husable BibTlv.serviceDirectoryReference (by decide) ⟨0, 0, 0, 0, 0, 0, 0, 0⟩
  rw [hstatus] at hok
  cases hok

/-- An audit log whose range ends past `2 ^ 64`. -/
theorem wrapped_reference_opened :
    let p := ofList (sampleBlock 0 0xFFFFFFFFFFFFFFFF).encode
    (bibReaderOpen (some .zero) (some p) 232).value = (.ok, some (viewOf p)) ∧
      (∃ reference, (bibReaderFindReference (some (viewOf p)) BibTlv.auditLogReference
          (some ⟨0, 0, 0, 0, 0, 0, 0, 0⟩)).value = (.ok, some reference) ∧
        reference.address = 0xFFFFFFFFFFFFFFFF ∧ reference.length = 0x1000) ∧
      ¬ NoWrappedReference (viewOf p) := by
  intro p
  have hfound : ∃ reference, (bibReaderFindReference (some (viewOf p)) BibTlv.auditLogReference
        (some ⟨0, 0, 0, 0, 0, 0, 0, 0⟩)).value = (.ok, some reference) ∧
      reference.address = 0xFFFFFFFFFFFFFFFF ∧ reference.length = 0x1000 :=
    ⟨referenceViewAt p 192, by decide +kernel, by decide +kernel, by decide +kernel⟩
  refine ⟨sampleBlock_opened ⟨by decide, by decide, by decide, by decide⟩, hfound, ?_⟩
  intro hranges
  obtain ⟨reference, hreference, haddress, hlength⟩ := hfound
  have hrange := hranges BibTlv.auditLogReference (by decide) _ reference hreference
  rw [haddress, hlength] at hrange
  exact absurd hrange (by decide)

end Atarix
