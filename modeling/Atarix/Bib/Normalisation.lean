import Atarix.Bib.Canonical
import Atarix.Bib.Contents

/-! # Normal forms

An accepted image may be laid out in many ways. Handing its records to the
builder again gives its normal form, which is never longer, is accepted wherever
it fits and is read like the image. Images are read alike exactly if they have
the same normal form.
-/

namespace Atarix

open Memory

variable {p q : Memory} {prior opened other : BibView} {windowLength : Nat}

/-- Rebuilding the records of an opened image, in a buffer of its length, succeeds
and leaves `image` at the start of the buffer. -/
def RebuildsTo (p : Memory) (view : BibView) (image : List (BitVec 8)) : Prop :=
  ∀ builder scratch slot, ∃ started results filled finished q length,
    bibBuilderInit (some builder) (some scratch) view.totalLength.toNat view.flags view.bootId
      view.producerId view.createdCounter = (.ok, started) ∧
    addAll started ((imageRecords p).map (rebuildCall p)) = (results, filled) ∧
    (∀ result ∈ results, result = .ok) ∧
    bibBuilderSeal filled (some slot) = (.ok, some finished, some length) ∧
    finished.buffer = some q ∧ length.toNat = image.length ∧ q.Holds 0 image

/-- The builder is deterministic, so there is one normal form. -/
theorem RebuildsTo.unique {view : BibView} {first second : List (BitVec 8)}
    (hfirst : RebuildsTo p view first) (hsecond : RebuildsTo p view second) : first = second := by
  obtain ⟨started, results, filled, finished, q, length, hinit, hadds, -, hseal, hbuffer, hlength,
    hholds⟩ := hfirst ⟨none, 0, 0, 0, false⟩ (fun _ => 0) 0
  obtain ⟨started', results', filled', finished', q', length', hinit', hadds', -, hseal', hbuffer',
    hlength', hholds'⟩ := hsecond ⟨none, 0, 0, 0, false⟩ (fun _ => 0) 0
  obtain rfl : started = started' := congrArg Prod.snd (hinit.symm.trans hinit')
  obtain rfl : filled = filled' := congrArg Prod.snd (hadds.symm.trans hadds')
  obtain ⟨rfl, rfl⟩ : finished = finished' ∧ length = length' := by
    simpa using hseal.symm.trans hseal'
  obtain rfl : q = q' := Option.some.inj (hbuffer.symm.trans hbuffer')
  have hsame : first.length = second.length := hlength.symm.trans hlength'
  rw [Holds, hsame] at hholds
  exact hholds.symm.trans hholds'

/-! ## Encoded blocks are read as themselves -/

theorem BibRecord.decoded_view {record : BibRecord} {offset : Nat}
    (hholds : p.Holds offset record.encode) (hlt : record.size < 2 ^ 32) :
    decodedRecord p (record.view offset) = record := by
  obtain ⟨-, -, -, -, -, hpayload, -⟩ := record.holds_encode.mp hholds
  rw [decodedRecord, view_payloadLength hlt]
  exact congrArg (BibRecord.mk record.type record.flags) hpayload

theorem map_decodedRecord_viewsAt {offset : Nat} (records : List BibRecord)
    (hholds : p.Holds offset (encodeRecords records)) (hlt : recordsSize records < 2 ^ 32) :
    (viewsAt offset records).map (decodedRecord p) = records := by
  induction records generalizing offset with
  | nil => rfl
  | cons record records ih =>
      rw [encodeRecords_cons, holds_append, BibRecord.length_encode] at hholds
      rw [recordsSize_cons] at hlt
      rw [viewsAt, List.map_cons, BibRecord.decoded_view hholds.1 (by omega),
        ih hholds.2 (by omega)]

namespace BibBlock

variable {block first second : BibBlock}

theorem imageContents_eq (hholds : p.Holds 0 block.encode) (hsize : block.size < 2 ^ 32) :
    imageContents p = block.records := by
  obtain ⟨-, hrecords⟩ := block.holds_image.mp hholds
  rw [imageContents, imageRecords_eq hholds hsize]
  unfold size at hsize
  exact map_decodedRecord_viewsAt block.records hrecords (by omega)

/-- A block is determined by its encoding. -/
theorem encode_injective (hfirst : first.size < 2 ^ 32) (hsecond : second.size < 2 ^ 32)
    (heq : first.encode = second.encode) : first = second := by
  have hholds : (ofList first.encode).Holds 0 first.encode := holds_ofList _
  have hholds' : (ofList first.encode).Holds 0 second.encode := heq ▸ holds_ofList _
  have hview := (viewOf_eq hholds).symm.trans (viewOf_eq hholds')
  have hrecords := (imageContents_eq hholds hfirst).symm.trans (imageContents_eq hholds' hsecond)
  exact BibBlock.ext (congrArg BibView.flags hview) (congrArg BibView.bootId hview)
    (congrArg BibView.producerId hview) (congrArg BibView.createdCounter hview) hrecords

/-- A block is determined by its answers. -/
theorem eq_of_record (hfirst : first.size < 2 ^ 32) (hsecond : second.size < 2 ^ 32)
    (hflags : first.flags = second.flags) (hboot : first.bootId = second.bootId)
    (hproducer : first.producerId = second.producerId)
    (hcounter : first.createdCounter = second.createdCounter)
    (hrecord : ∀ index, first.record index = second.record index) : first = second := by
  have hlength := first.records_length_lt hfirst
  have hlength' := second.records_length_lt hsecond
  refine BibBlock.ext hflags hboot hproducer hcounter (List.ext_getElem? fun index => ?_)
  by_cases hlt : index < 2 ^ 32
  · have hindex : (BitVec.ofNat 32 index).toNat = index := Nat.mod_eq_of_lt hlt
    have heq := hrecord (BitVec.ofNat 32 index)
    rw [record, record, hindex] at heq
    cases hleft : first.records[index]? <;> cases hright : second.records[index]? <;>
      simp_all
  · rw [List.getElem?_eq_none (by omega), List.getElem?_eq_none (by omega)]

/-- An encoded block of acceptable records is opened wherever it fits, and answers
as itself. -/
theorem opened_answers (hholds : p.Holds 0 block.encode) (hmax : block.size ≤ 65536)
    (hacceptable : RecordsAcceptable block.records) (hwindow : block.size ≤ windowLength)
    (prior : BibView) :
    (bibReaderOpen (some prior) (some p) windowLength).value = (.ok, some (viewOf p)) ∧
      (viewOf p).Answers p block := by
  have hsize : block.size < 2 ^ 32 := by omega
  have hok := (block.open_ok_iff hholds hsize hwindow prior).mpr ⟨hmax, hacceptable⟩
  have haccepted := ((bibReaderOpen_ok_iff_imageRecords prior p windowLength).mp hok).2.2
  have hview := viewOf_eq hholds
  refine ⟨Prod.ext hok (bibReaderOpen_view hok), haccepted.answers ?_ ?_ ?_ ?_ ?_⟩
  case refine_1 => exact (congrArg BibView.flags hview).symm
  case refine_2 => exact (congrArg BibView.bootId hview).symm
  case refine_3 => exact (congrArg BibView.producerId hview).symm
  case refine_4 => exact (congrArg BibView.createdCounter hview).symm
  case refine_5 => exact (imageContents_eq hholds hsize).symm

end BibBlock

/-! ## The normal form of an accepted image -/

theorem accepted_of_open
    (hopen : (bibReaderOpen (some prior) (some p) windowLength).value = (.ok, some opened)) :
    HeaderAccepted p windowLength ∧ ImageRecordsAccepted p ∧ opened = viewOf p := by
  obtain ⟨haccepted, hview⟩ := imageRecordsAccepted_of_open hopen
  obtain ⟨-, hheader, -⟩ := (bibReaderOpen_ok_iff prior p windowLength).mp (congrArg Prod.fst hopen)
  exact ⟨hheader, haccepted, hview⟩

section Accepted

variable (hheader : HeaderAccepted p windowLength) (haccepted : ImageRecordsAccepted p)
include hheader haccepted

theorem decodedBlock_size_le :
    (decodedBlock p hheader.flags_known haccepted.lie.flags_known).size ≤ (p.load32 16).toNat :=
  haccepted.recordsSize_le

theorem decodedBlock_size_lt :
    (decodedBlock p hheader.flags_known haccepted.lie.flags_known).size < 2 ^ 32 :=
  (decodedBlock_size_le hheader haccepted).trans_lt (p.load32 16).isLt

theorem decodedBlock_answers :
    (viewOf p).Answers p (decodedBlock p hheader.flags_known haccepted.lie.flags_known) :=
  haccepted.answers rfl rfl rfl rfl rfl

theorem rebuildsTo_decodedBlock :
    RebuildsTo p (viewOf p)
      (decodedBlock p hheader.flags_known haccepted.lie.flags_known).encode := by
  have hle := decodedBlock_size_le hheader haccepted
  generalize hblock : decodedBlock p hheader.flags_known haccepted.lie.flags_known = block at hle
  have hrecords : block.records = imageContents p := by rw [← hblock]; rfl
  intro builder scratch slot
  obtain ⟨started, q₀, hinit, hcapacity, hbuilds⟩ := bibBuilderInit_of_fits builder scratch
    (p.load64 24) (p.load64 32) (p.load64 40) hheader.total_ge (p.load32 16).isLt
    hheader.flags_known
  have hresults := addAll_rebuildCalls (p := p) hbuilds (imageRecords p)
    haccepted.lie.flags_known (hcapacity ▸ haccepted.recordsSize_le)
  obtain ⟨filled, q₁, filledBlock, hfilled, hbuilds', -⟩ := addAll_builds hbuilds _ hresults
  have hadds : addAll (some started) ((imageRecords p).map (rebuildCall p)) =
      ((addAll (some started) ((imageRecords p).map (rebuildCall p))).1, some filled) :=
    Prod.ext rfl hfilled
  have hseal := bibBuilderSeal_of_builds hbuilds' (some slot)
  obtain ⟨finished, q, rebuilt, hfinished, hbuffer, hlength, hholds, hsize, hflags, hboot,
    hproducer, hcounter, hrebuilt⟩ := build_encodes hinit hadds hresults hseal
  have hadded : rebuilt.records = block.records := by
    rw [hrebuilt, hrecords, imageContents, List.map_map]
    exact List.map_congr_left fun record _ => record_rebuildCall p record
  obtain rfl : rebuilt = block := by
    rw [← hblock] at hadded ⊢
    exact BibBlock.ext hflags hboot hproducer hcounter hadded
  obtain rfl := Option.some.inj hfinished
  refine ⟨_, _, _, _, q, _, hinit, hadds, hresults, hseal, hbuffer, ?_, hholds⟩
  rw [BibBlock.encode, rebuilt.length_image, Option.some.inj hlength]
  exact Nat.mod_eq_of_lt hsize

end Accepted

/-- An opened image describes a block: it answers as the block does, rebuilding it
gives the encoding of the block, and that is no longer, is opened in every window
that covers it, answers the same and is its own normal form. -/
theorem normal_form
    (hopen : (bibReaderOpen (some prior) (some p) windowLength).value = (.ok, some opened)) :
    ∃ block : BibBlock, opened.Answers p block ∧ RebuildsTo p opened block.encode ∧
      block.size ≤ opened.totalLength.toNat ∧
      ∀ q window slot, q.Holds 0 block.encode → block.size ≤ window →
        ∃ reopened, (bibReaderOpen (some slot) (some q) window).value = (.ok, some reopened) ∧
          reopened.totalLength.toNat = block.size ∧ reopened.Answers q block ∧
          RebuildsTo q reopened block.encode := by
  obtain ⟨hheader, haccepted, rfl⟩ := accepted_of_open hopen
  have hle := decodedBlock_size_le hheader haccepted
  have hmax := hle.trans hheader.total_le_max
  refine ⟨_, decodedBlock_answers hheader haccepted, rebuildsTo_decodedBlock hheader haccepted, hle,
    ?_⟩
  intro q window slot hholds hwindow
  have hsize := decodedBlock_size_lt hheader haccepted
  obtain ⟨hreopen, hanswers⟩ :=
    BibBlock.opened_answers hholds hmax haccepted.recordsAcceptable hwindow slot
  have htotal : (viewOf q).totalLength.toNat = _ :=
    (congrArg (BitVec.toNat ∘ BibView.totalLength) (BibBlock.viewOf_eq hholds)).trans
      (Nat.mod_eq_of_lt hsize)
  refine ⟨viewOf q, hreopen, htotal, hanswers, ?_⟩
  -- the image describes the block that it was encoded from
  obtain ⟨hheader', haccepted', -⟩ := accepted_of_open hreopen
  have hanswers' := decodedBlock_answers hheader' haccepted'
  have hsame := BibBlock.eq_of_record (decodedBlock_size_lt hheader' haccepted') hsize
    (hanswers'.flags.symm.trans hanswers.flags) (hanswers'.bootId.symm.trans hanswers.bootId)
    (hanswers'.producerId.symm.trans hanswers.producerId)
    (hanswers'.createdCounter.symm.trans hanswers.createdCounter)
    fun index => (hanswers'.record ⟨0, 0, 0, 0, 0⟩ index).symm.trans (hanswers.record _ index)
  rw [← hsame]
  exact rebuildsTo_decodedBlock hheader' haccepted'

/-- An image with a padding byte that is not zero. -/
theorem dirtyImage_opened :
    (bibReaderOpen (some .zero) (some dirtyImage) 200).value = (.ok, some (viewOf dirtyImage)) := by
  have hok : (bibReaderOpen (some .zero) (some dirtyImage) 200).value.1 = .ok := by decide +kernel
  exact Prod.ext hok (bibReaderOpen_view hok)

theorem normal_form_dirty :
    ∃ block : BibBlock, (viewOf dirtyImage).Answers dirtyImage block ∧
      RebuildsTo dirtyImage (viewOf dirtyImage) block.encode := by
  obtain ⟨block, hanswers, hrebuilds, -⟩ := normal_form dirtyImage_opened
  exact ⟨block, hanswers, hrebuilds⟩

/-! ## Images that are read alike -/

/-- No read tells two opened images apart. -/
structure ReadAlike (p : Memory) (view : BibView) (q : Memory) (other : BibView) : Prop where
  flags : view.flags = other.flags
  bootId : view.bootId = other.bootId
  producerId : view.producerId = other.producerId
  createdCounter : view.createdCounter = other.createdCounter
  record : ∀ prior index, readRecord p view prior index = readRecord q other prior index
  reference : ∀ prior type, readReference p view prior type = readReference q other prior type

theorem BibView.Answers.readAlike {block : BibBlock} (hleft : opened.Answers p block)
    (hright : other.Answers q block) : ReadAlike p opened q other where
  flags := hleft.flags.trans hright.flags.symm
  bootId := hleft.bootId.trans hright.bootId.symm
  producerId := hleft.producerId.trans hright.producerId.symm
  createdCounter := hleft.createdCounter.trans hright.createdCounter.symm
  record prior index := (hleft.record prior index).trans (hright.record prior index).symm
  reference prior type := (hleft.reference prior type).trans (hright.reference prior type).symm

/-- Blocks that give the same answers are one block. -/
theorem ReadAlike.eq {first second : BibBlock} (hsame : ReadAlike p opened q other)
    (hleft : opened.Answers p first) (hright : other.Answers q second)
    (hfirst : first.size < 2 ^ 32) (hsecond : second.size < 2 ^ 32) : first = second := by
  refine BibBlock.eq_of_record hfirst hsecond ?_ ?_ ?_ ?_ fun index => ?_
  case refine_1 => rw [← hleft.flags, hsame.flags, hright.flags]
  case refine_2 => rw [← hleft.bootId, hsame.bootId, hright.bootId]
  case refine_3 => rw [← hleft.producerId, hsame.producerId, hright.producerId]
  case refine_4 => rw [← hleft.createdCounter, hsame.createdCounter, hright.createdCounter]
  case refine_5 =>
    rw [← hleft.record ⟨0, 0, 0, 0, 0⟩ index, hsame.record, hright.record]

/-- Opened images are read alike exactly if they have the same normal form. -/
theorem readAlike_iff {prior' : BibView} {windowLength' : Nat}
    (hopen : (bibReaderOpen (some prior) (some p) windowLength).value = (.ok, some opened))
    (hopen' : (bibReaderOpen (some prior') (some q) windowLength').value = (.ok, some other)) :
    ReadAlike p opened q other ↔ ∃ image, RebuildsTo p opened image ∧ RebuildsTo q other image := by
  obtain ⟨hheader, haccepted, rfl⟩ := accepted_of_open hopen
  obtain ⟨hheader', haccepted', rfl⟩ := accepted_of_open hopen'
  have hleft := decodedBlock_answers hheader haccepted
  have hright := decodedBlock_answers hheader' haccepted'
  have hfirst := decodedBlock_size_lt hheader haccepted
  have hsecond := decodedBlock_size_lt hheader' haccepted'
  constructor
  · intro hsame
    refine ⟨_, rebuildsTo_decodedBlock hheader haccepted, ?_⟩
    rw [hsame.eq hleft hright hfirst hsecond]
    exact rebuildsTo_decodedBlock hheader' haccepted'
  · rintro ⟨image, himage, himage'⟩
    have hencode := (himage.unique (rebuildsTo_decodedBlock hheader haccepted)).symm.trans
      (himage'.unique (rebuildsTo_decodedBlock hheader' haccepted'))
    rw [← BibBlock.encode_injective hfirst hsecond hencode] at hright
    exact hleft.readAlike hright

/-- The image with clean padding. -/
theorem paddedImage_opened :
    let p := ofList paddedBlock.encode
    (bibReaderOpen (some .zero) (some p) 200).value = (.ok, some (viewOf p)) := by
  intro p
  have hok : (bibReaderOpen (some .zero) (some p) 200).value.1 = .ok := by decide +kernel
  exact Prod.ext hok (bibReaderOpen_view hok)

theorem readAlike_iff_dirty :
    let p := ofList paddedBlock.encode
    ReadAlike p (viewOf p) dirtyImage (viewOf dirtyImage) ↔
      ∃ image, RebuildsTo p (viewOf p) image ∧ RebuildsTo dirtyImage (viewOf dirtyImage) image :=
  readAlike_iff paddedImage_opened dirtyImage_opened

end Atarix
