import Atarix.Bib.Tiling

/-! # Accepted images and their canonical form

The builder writes one encoding of a block. The reader also accepts images with
bytes that no field accounts for: a gap before the first record, records longer
than their padded payload, padding that is not zero. These are the only ones that
rebuilding does not reproduce.
-/

namespace Atarix

open Memory

variable {p : Memory} {prior opened : BibView} {windowLength : Nat}

/-! ## The builder does not refuse what fits -/

section Builder

variable {builder : BibBuilder} {block : BibBlock}

theorem bibBuilderInit_of_fits (builder : BibBuilder) (p : Memory) {capacity : Nat}
    {flags : BitVec 16} (bootId producerId createdCounter : BitVec 64) (hmin : 64 ≤ capacity)
    (hmax : capacity < 2 ^ 32) (hknown : bibHeaderFlagsAreKnown flags) :
    ∃ (started : BibBuilder) (q : Memory),
      bibBuilderInit (some builder) (some p) capacity flags bootId producerId createdCounter =
        (.ok, some started) ∧ started.capacity = capacity ∧
      started.Builds q (.empty ⟨flags, bootId, producerId, createdCounter, hknown⟩) := by
  have hcapacity : ¬ (capacity < bibHeaderSizeV1.toNat ∨ capacity > 0xFFFFFFFF) := by
    rw [not_or]
    exact ⟨Nat.not_lt.mpr hmin, by omega⟩
  have hinit : bibBuilderInit (some builder) (some p) capacity flags bootId producerId
      createdCounter = (.ok, some
        { buffer := some (writeHeader (p.zeroRange 0 capacity) flags bootId producerId
            createdCounter)
          capacity, length := bibHeaderSizeV1, tlvCount := 0, sealed := false }) := by
    rw [bibBuilderInit, if_neg hcapacity, if_neg (not_not.mpr hknown)]
  obtain ⟨started, q, _, hstarted, hbuilds⟩ := bibBuilderInit_builds (congrArg Prod.fst hinit)
  obtain rfl := Option.some.inj ((congrArg Prod.snd hinit).symm.trans hstarted)
  exact ⟨_, q, hinit, rfl, hbuilds⟩

theorem align8U32_of_fits {value : BitVec 32} (hfits : value.toNat + 7 < 2 ^ 32) :
    align8U32 value = some ((value + 7) &&& ~~~ 7#32) := by
  refine if_neg ?_
  rw [gt_iff_lt, BitVec.not_lt, BitVec.le_def]
  change value.toNat ≤ 0xFFFFFFFF - 7
  omega

theorem BibBuilder.Builds.add_ok (hbuilds : builder.Builds p block) {type flags : BitVec 16}
    (payload : Memory) {payloadLength : BitVec 32} (hknown : bibTlvFlagsAreKnown flags)
    (hfits : block.size + BibRecord.size ⟨type, flags, payloadBytes (some payload) payloadLength⟩ ≤
      builder.capacity) :
    (bibBuilderAddTlv (some builder) type flags (some payload) payloadLength).1 = .ok := by
  have hcapacity := hbuilds.capacity_lt
  have hsize : BibRecord.size ⟨type, flags, payloadBytes (some payload) payloadLength⟩ =
      (16 + payloadLength.toNat + 7) / 8 * 8 := by
    rw [BibRecord.size, payloadBytes, length_slice]
  rw [hsize] at hfits
  have hlength : ¬ payloadLength > 0xFFFFFFFF - bibTlvHeaderSizeV1 := by
    rw [gt_iff_lt, BitVec.not_lt, BitVec.le_def]
    change payloadLength.toNat ≤ 0xFFFFFFFF - 16
    omega
  have hunaligned : (bibTlvHeaderSizeV1 + payloadLength).toNat = 16 + payloadLength.toNat := by
    rw [BitVec.toNat_add]
    exact Nat.mod_eq_of_lt (by change 16 + _ < _; omega)
  have halign := @align8U32_of_fits (bibTlvHeaderSizeV1 + payloadLength) (by omega)
  have haligned := align8U32_eq_some halign
  rw [hunaligned] at haligned
  have hroom : ¬ (builder.length.toNat > builder.capacity ∨
      ((bibTlvHeaderSizeV1 + payloadLength + 7) &&& ~~~ 7#32).toNat >
        builder.capacity - builder.length.toNat) := by
    rw [haligned, hbuilds.length]
    omega
  simp only [bibBuilderAddTlv, hbuilds.buffer]
  rw [if_neg (by simp), if_neg (by simp [hbuilds.unsealed]), if_neg (not_not.mpr hknown),
    if_neg hlength, halign]
  simp only [if_neg hroom]

end Builder

/-! ## Taking an image apart and putting it together again -/

/-- The record that a view describes. -/
def decodedRecord (p : Memory) (record : BibRecordView) : BibRecord where
  type := record.type
  flags := record.flags
  payload := p.slice record.payload record.payloadLength.toNat

/-- The call that adds the record of a view anew. -/
def rebuildCall (p : Memory) (record : BibRecordView) : BibAdd :=
  .tlv record.type record.flags (some fun index => p (record.payload + index)) record.payloadLength

theorem record_rebuildCall (p : Memory) (record : BibRecordView) :
    (rebuildCall p record).record = decodedRecord p record := by
  have hpayload : payloadBytes (some fun index => p (record.payload + index)) record.payloadLength =
      p.slice record.payload record.payloadLength.toNat := by
    simp [payloadBytes, slice]
  rw [rebuildCall, BibAdd.record, hpayload, decodedRecord]

/-- Rebuilding the records of an opened image, in a buffer of its length, succeeds
and gives back its bytes. -/
def Reproduced (p : Memory) (view : BibView) : Prop :=
  ∀ builder scratch slot, ∃ started results filled finished q,
    bibBuilderInit (some builder) (some scratch) view.totalLength.toNat view.flags view.bootId
      view.producerId view.createdCounter = (.ok, started) ∧
    addAll started ((imageRecords p).map (rebuildCall p)) = (results, filled) ∧
    (∀ result ∈ results, result = .ok) ∧
    bibBuilderSeal filled (some slot) = (.ok, some finished, some view.totalLength) ∧
    finished.buffer = some q ∧
    q.slice 0 view.totalLength.toNat = p.slice 0 view.totalLength.toNat

/-- A record as long as its padded payload, with zero padding. -/
structure BibRecordView.Padded (p : Memory) (record : BibRecordView) : Prop where
  length : record.serializedLength.toNat = (16 + record.payloadLength.toNat + 7) / 8 * 8
  zeros : p.Holds (record.payload + record.payloadLength.toNat)
    (List.replicate (record.serializedLength.toNat - 16 - record.payloadLength.toNat) 0)

/-- The records start right behind the header, and each is padded. -/
structure CanonicalLayout (p : Memory) : Prop where
  offset : p.load32 48 = 64
  padded : ∀ record ∈ imageRecords p, record.Padded p

/-! ## Rebuilding succeeds -/

theorem addAll_rebuildCalls {builder : BibBuilder} {q : Memory} {block : BibBlock}
    (hbuilds : builder.Builds q block) (views : List BibRecordView)
    (hknown : ∀ record ∈ views, bibTlvFlagsAreKnown record.flags)
    (hfits : block.size + recordsSize (views.map (decodedRecord p)) ≤ builder.capacity) :
    ∀ result ∈ (addAll (some builder) (views.map (rebuildCall p))).1, result = .ok := by
  induction views generalizing builder q block with
  | nil => simp [addAll]
  | cons record views ih =>
      obtain ⟨hhead, htail⟩ := List.forall_mem_cons.mp hknown
      rw [List.map_cons, recordsSize_cons, ← record_rebuildCall] at hfits
      have hok : ((rebuildCall p record).apply (some builder)).1 = .ok :=
        hbuilds.add_ok _ hhead ((Nat.add_le_add_left (Nat.le_add_right _ _) _).trans hfits)
      obtain ⟨current, q', recordLength, hcurrent, hbuffer, -, -, hlength, hroom, hadded⟩ :=
        bibBuilderAddTlv_ok hok
      obtain rfl := Option.some.inj hcurrent
      obtain rfl : q' = q := Option.some.inj (hbuffer.symm.trans hbuilds.buffer)
      have hrest := ih (hbuilds.add hhead hlength hroom) htail (by
        rw [block.size_add, Nat.add_assoc]
        exact hfits)
      rw [← hadded] at hrest
      simp only [List.map_cons, addAll, List.forall_mem_cons]
      exact ⟨hok, hrest⟩

/-! ## Canonical images are encoded blocks -/

theorem holds_decodedRecord {totalLength offset : Nat} (fits : BibRecordFits p totalLength offset)
    (hpadded : (recordViewAt p offset).Padded p) :
    p.Holds offset (decodedRecord p (recordViewAt p offset)).encode ∧
      (decodedRecord p (recordViewAt p offset)).size = (p.load32 (offset + 4)).toNat := by
  have hpayload : (decodedRecord p (recordViewAt p offset)).payload.length =
      (p.load32 (offset + 8)).toNat := length_slice _ _ _
  have hsize : (decodedRecord p (recordViewAt p offset)).size = (p.load32 (offset + 4)).toNat := by
    rw [BibRecord.size, hpayload]
    exact hpadded.length.symm
  refine ⟨(BibRecord.holds_encode _).mpr ⟨?_, ?_, ?_, ?_, ?_, ?_, ?_⟩, hsize⟩
  case refine_1 => exact holds_le16_iff.mpr rfl
  case refine_2 => exact holds_le16_iff.mpr rfl
  case refine_3 =>
    rw [hsize, BitVec.ofNat_toNat, BitVec.setWidth_eq]
    exact holds_le32_iff.mpr rfl
  case refine_4 =>
    rw [hpayload, BitVec.ofNat_toNat, BitVec.setWidth_eq]
    exact holds_le32_iff.mpr rfl
  case refine_5 => exact holds_le32_iff.mpr fits.reserved
  case refine_6 =>
    rw [Holds, hpayload]
    rfl
  case refine_7 =>
    rw [hsize, hpayload, ← Nat.add_assoc]
    exact hpadded.zeros

/-- Padded records that lie behind one another are encoded records. -/
theorem RecordsLie.holds_encode {totalLength offset last : Nat} {views : List BibRecordView}
    (hlie : RecordsLie p totalLength offset views last)
    (hpadded : ∀ record ∈ views, record.Padded p) :
    p.Holds offset (encodeRecords (views.map (decodedRecord p))) ∧
      last = offset + recordsSize (views.map (decodedRecord p)) := by
  induction hlie with
  | nil offset => simp [encodeRecords, recordsSize, Holds, slice]
  | cons fits rest ih =>
      obtain ⟨hhead, htail⟩ := List.forall_mem_cons.mp hpadded
      obtain ⟨hrecord, hsize⟩ := holds_decodedRecord fits hhead
      obtain ⟨hrest, hlast⟩ := ih htail
      rw [List.map_cons, encodeRecords_cons, holds_append, recordsSize_cons,
        BibRecord.length_encode,
        hsize, ← Nat.add_assoc]
      exact ⟨⟨hrecord, hrest⟩, hlast⟩

/-- The block that an accepted image describes. -/
def decodedBlock (p : Memory) (hflags : bibHeaderFlagsAreKnown (p.load16 14))
    (hknown : ∀ record ∈ imageRecords p, bibTlvFlagsAreKnown record.flags) : BibBlock where
  flags := p.load16 14
  bootId := p.load64 24
  producerId := p.load64 32
  createdCounter := p.load64 40
  flags_known := hflags
  records := (imageRecords p).map (decodedRecord p)
  records_known := by
    intro record hrecord
    obtain ⟨view, hview, rfl⟩ := List.mem_map.mp hrecord
    exact hknown view hview

theorem RecordsLie.flags_known {totalLength offset last : Nat} {views : List BibRecordView}
    (hlie : RecordsLie p totalLength offset views last) :
    ∀ record ∈ views, bibTlvFlagsAreKnown record.flags := by
  induction hlie with
  | nil offset => simp
  | cons fits rest ih => exact List.forall_mem_cons.mpr ⟨fits.flags_known, ih⟩

/-- An accepted image of canonical layout is the encoding of the block it
describes. -/
theorem holds_decodedBlock (hheader : HeaderAccepted p windowLength)
    (haccepted : ImageRecordsAccepted p) (hminor : p.load16 10 = bibVersionMinorV0)
    (hcanonical : CanonicalLayout p) :
    p.Holds 0 (decodedBlock p hheader.flags_known haccepted.lie.flags_known).encode ∧
      (decodedBlock p hheader.flags_known haccepted.lie.flags_known).size =
        (p.load32 16).toNat := by
  generalize hblock : decodedBlock p hheader.flags_known haccepted.lie.flags_known = block
  have hrecords : block.records = (imageRecords p).map (decodedRecord p) := by rw [← hblock]; rfl
  obtain ⟨hholds, hlast⟩ := haccepted.lie.holds_encode hcanonical.padded
  have hoffset : (p.load32 48).toNat = 64 := congrArg BitVec.toNat hcanonical.offset
  rw [hoffset, ← hrecords] at hholds hlast
  have hsize : block.size = (p.load32 16).toNat := hlast.symm
  have hlt : block.size < 2 ^ 32 := hsize ▸ (p.load32 16).isLt
  have htotal : BitVec.ofNat 32 block.size = p.load32 16 := by
    rw [hsize, BitVec.ofNat_toNat, BitVec.setWidth_eq]
  have hcount : BitVec.ofNat 32 block.records.length = p.load32 52 := by
    rw [hrecords, List.length_map, imageRecords, length_recordViewsFrom, BitVec.ofNat_toNat,
      BitVec.setWidth_eq]
  have himage : p.Holds 0 (block.image (p.load32 20)) := by
    refine block.holds_image.mpr ⟨block.holds_header.mpr ?_, hholds⟩
    rw [htotal, hcount]
    simp only [holds_le16_iff, holds_le32_iff, holds_le64_iff]
    refine ⟨hheader.magic, hheader.version, hminor, hheader.header_length, ?_, trivial, trivial, ?_,
      ?_, ?_, hcanonical.offset, trivial, hheader.reserved⟩
    all_goals rw [← hblock]; rfl
  have hchecksum := BibBlock.checksum_eq_of_image himage hlt
  rw [htotal, ← hheader.crc] at hchecksum
  rw [hchecksum] at himage
  exact ⟨himage, hsize⟩

/-! ## Encoded blocks are canonical -/

theorem BibRecord.view_padded {record : BibRecord} {offset : Nat}
    (hholds : p.Holds offset record.encode) (hlt : record.size < 2 ^ 32) :
    (record.view offset).Padded p := by
  obtain ⟨-, -, -, -, -, -, hzeros⟩ := record.holds_encode.mp hholds
  have hlength : (record.view offset).payloadLength.toNat = _ := view_payloadLength hlt
  have hsize : (record.view offset).serializedLength.toNat = record.size := Nat.mod_eq_of_lt hlt
  refine ⟨?_, ?_⟩
  · rw [hsize, hlength, BibRecord.size]
  · rw [hsize, hlength]
    rwa [← Nat.add_assoc] at hzeros

theorem viewsAt_padded {offset : Nat} (records : List BibRecord)
    (hholds : p.Holds offset (encodeRecords records)) (hlt : recordsSize records < 2 ^ 32) :
    ∀ record ∈ viewsAt offset records, record.Padded p := by
  induction records generalizing offset with
  | nil => simp [viewsAt]
  | cons record records ih =>
      rw [encodeRecords_cons, holds_append, BibRecord.length_encode] at hholds
      rw [recordsSize_cons] at hlt
      exact List.forall_mem_cons.mpr
        ⟨BibRecord.view_padded hholds.1 (by omega), ih hholds.2 (by omega)⟩

theorem BibBlock.canonicalLayout {block : BibBlock} (hholds : p.Holds 0 block.encode)
    (hsize : block.size < 2 ^ 32) : CanonicalLayout p := by
  obtain ⟨-, hrecords⟩ := block.holds_image.mp hholds
  refine ⟨congrArg BibView.tlvOffset (viewOf_eq hholds), ?_⟩
  rw [imageRecords_eq hholds hsize]
  unfold size at hsize
  exact viewsAt_padded block.records hrecords (by omega)

/-! ## What rebuilding reproduces -/

theorem CanonicalLayout.of_reproduced (hreproduced : Reproduced p (viewOf p)) :
    CanonicalLayout p := by
  obtain ⟨started, results, filled, finished, q, hinit, hadds, hresults, hseal, hbuffer, hbytes⟩ :=
    hreproduced ⟨none, 0, 0, 0, false⟩ (fun _ => 0) 0
  obtain ⟨sealed, q', block, hsealed, hbuffer', hlength, hholds, hsize, -⟩ :=
    build_encodes hinit hadds hresults hseal
  obtain rfl := Option.some.inj hsealed
  obtain rfl := Option.some.inj (hbuffer.symm.trans hbuffer')
  obtain hlength : (viewOf p).totalLength = BitVec.ofNat 32 block.size := Option.some.inj hlength
  have htotal : (viewOf p).totalLength.toNat = block.size := by
    rw [hlength]
    exact Nat.mod_eq_of_lt hsize
  rw [htotal, ← block.length_image block.checksum] at hbytes
  exact block.canonicalLayout (hbytes.symm.trans hholds) hsize

theorem CanonicalLayout.reproduced (hheader : HeaderAccepted p windowLength)
    (haccepted : ImageRecordsAccepted p) (hminor : p.load16 10 = bibVersionMinorV0)
    (hcanonical : CanonicalLayout p) : Reproduced p (viewOf p) := by
  obtain ⟨hholds, hsize⟩ := holds_decodedBlock hheader haccepted hminor hcanonical
  generalize hblock : decodedBlock p hheader.flags_known haccepted.lie.flags_known = block
    at hholds hsize
  have hrecords : block.records = (imageRecords p).map (decodedRecord p) := by rw [← hblock]; rfl
  intro builder scratch slot
  obtain ⟨started, q₀, hinit, hcapacity, hbuilds⟩ := bibBuilderInit_of_fits builder scratch
    (p.load64 24) (p.load64 32) (p.load64 40) hheader.total_ge (p.load32 16).isLt
    hheader.flags_known
  have hresults := addAll_rebuildCalls (p := p) hbuilds (imageRecords p)
    haccepted.lie.flags_known (by rw [hcapacity, ← hsize, ← hrecords]; exact le_rfl)
  obtain ⟨filled, q₁, filledBlock, hfilled, hbuilds', -⟩ := addAll_builds hbuilds _ hresults
  have hadds : addAll (some started) ((imageRecords p).map (rebuildCall p)) =
      ((addAll (some started) ((imageRecords p).map (rebuildCall p))).1, some filled) :=
    Prod.ext rfl hfilled
  have hseal := bibBuilderSeal_of_builds hbuilds' (some slot)
  obtain ⟨finished, q, rebuilt, hfinished, hbuffer, hlength, hholds', hsize', hflags, hboot,
    hproducer, hcounter, hrebuilt⟩ := build_encodes hinit hadds hresults hseal
  have hadded : rebuilt.records = block.records := by
    rw [hrebuilt, hrecords, List.map_map]
    exact List.map_congr_left fun record _ => record_rebuildCall p record
  obtain rfl : rebuilt = block := by
    rw [← hblock] at hadded ⊢
    exact BibBlock.ext hflags hboot hproducer hcounter hadded
  obtain rfl := Option.some.inj hfinished
  refine ⟨_, _, _, _, q, hinit, hadds, hresults, ?_, hbuffer, ?_⟩
  · rw [hseal, hlength, hsize, BitVec.ofNat_toNat, BitVec.setWidth_eq]
    rfl
  · have htotal : (viewOf p).totalLength.toNat = (rebuilt.image rebuilt.checksum).length := by
      rw [rebuilt.length_image, hsize]
      rfl
    rw [htotal]
    exact hholds'.trans hholds.symm

/-- Rebuilding reproduces an accepted image of minor version 0 exactly if its
layout is canonical. -/
theorem reproduced_iff
    (hopen : (bibReaderOpen (some prior) (some p) windowLength).value = (.ok, some opened))
    (hminor : p.load16 10 = bibVersionMinorV0) : Reproduced p opened ↔ CanonicalLayout p := by
  obtain ⟨haccepted, rfl⟩ := imageRecordsAccepted_of_open hopen
  obtain ⟨-, hheader, -⟩ := (bibReaderOpen_ok_iff prior p windowLength).mp (congrArg Prod.fst hopen)
  exact ⟨CanonicalLayout.of_reproduced, CanonicalLayout.reproduced hheader haccepted hminor⟩

theorem reproduced_iff_sample :
    let p := ofList (sampleBlock 0 0x300000).encode
    Reproduced p (viewOf p) ↔ CanonicalLayout p :=
  reproduced_iff (sampleBlock_opened ⟨by decide, by decide, by decide, by decide⟩)
    (by decide +kernel)

/-! ## An image with dirty padding -/

/-- The mandatory references and an identity of one byte, which is padded. -/
def paddedBlock : BibBlock where
  toBibHeaderFields := (sampleBlock 0 0).toBibHeaderFields
  records := [
    sampleReference BibTlv.serviceDirectoryReference bibTlvFlagMandatory 0x100000 0x2000 0,
    sampleReference BibTlv.memoryMapReference bibTlvFlagMandatory 0x200000 0x3000 0,
    ⟨BibTlv.bootDeviceIdentity, 0, [7]⟩]
  records_known := by
    have hnone : bibTlvFlagsAreKnown 0#16 = true := by decide
    have hmandatory : bibTlvFlagsAreKnown bibTlvFlagMandatory = true := by decide
    simp [sampleReference, hnone, hmandatory]

/-- The block with its first padding byte set, under the checksum of these bytes. -/
def dirtyImage : Memory := ofList ((paddedBlock.image 0x27C11F0D).set 193 0xAA)

theorem dirty_padding_opened :
    (bibReaderOpen (some .zero) (some dirtyImage) 200).value.1 = .ok ∧
      dirtyImage.load16 10 = bibVersionMinorV0 ∧ ¬ Reproduced dirtyImage (viewOf dirtyImage) := by
  have hopen : (bibReaderOpen (some .zero) (some dirtyImage) 200).value.1 = .ok := by decide +kernel
  refine ⟨hopen, by decide +kernel, fun hreproduced => ?_⟩
  have hpadded := (CanonicalLayout.of_reproduced hreproduced).padded
  have hrecord : recordViewAt dirtyImage 176 ∈ imageRecords dirtyImage := by decide +kernel
  have hbyte := holds_iff.mp (hpadded _ hrecord).zeros 0 (by decide +kernel)
  exact absurd hbyte (by decide +kernel)

end Atarix
