import Atarix.Bib.Block

/-! # What the builder writes

Along every run of successful calls the buffer holds the block built so far, and
sealing turns it into the block's serialized form.
-/

namespace Atarix

open Memory

/-! ## Record lengths -/

theorem toNat_and_not_seven (value : BitVec 32) :
    (value &&& ~~~ 7#32).toNat = value.toNat / 8 * 8 := by
  have hmask : ∀ index : Fin 32, (~~~ 7#32).getLsbD index = decide (3 ≤ index.val) := by decide
  have hshift : value &&& ~~~ 7#32 = value >>> 3 <<< 3 := by
    ext index hindex
    rw [BitVec.getElem_and, ← BitVec.getLsbD_eq_getElem, ← BitVec.getLsbD_eq_getElem,
      hmask ⟨index, hindex⟩, BitVec.getElem_shiftLeft]
    by_cases hlow : index < 3
    · simp [hlow]
    · simp [hlow, Nat.not_lt.mp hlow, Nat.add_sub_cancel' (Nat.not_lt.mp hlow)]
  have hlt := value.isLt
  rw [hshift, BitVec.toNat_shiftLeft, BitVec.toNat_ushiftRight, Nat.shiftRight_eq_div_pow,
    Nat.shiftLeft_eq]
  exact Nat.mod_eq_of_lt (by omega)

theorem align8U32_eq_some {value aligned : BitVec 32} (halign : align8U32 value = some aligned) :
    aligned.toNat = (value.toNat + 7) / 8 * 8 := by
  unfold align8U32 at halign
  split_ifs at halign with hwrap
  have hle : value.toNat ≤ 0xFFFFFFFF - 7 := BitVec.not_lt.mp hwrap
  obtain rfl := Option.some.inj halign
  rw [toNat_and_not_seven, BitVec.toNat_add]
  change (value.toNat + 7) % 2 ^ 32 / 8 * 8 = _
  rw [Nat.mod_eq_of_lt (by omega)]

/-! ## The invariant -/

/-- The builder is at work on `block` in the buffer `p`: header and records are in
place, the three fields that sealing fills and everything behind the block are zero. -/
structure BibBuilder.Builds (builder : BibBuilder) (p : Memory) (block : BibBlock) : Prop where
  buffer : builder.buffer = some p
  length : builder.length.toNat = block.size
  tlvCount : builder.tlvCount.toNat = block.records.length
  unsealed : builder.sealed = false
  fits : block.size ≤ builder.capacity
  capacity_lt : builder.capacity < 2 ^ 32
  contents : p.Holds 0 (block.header 0 0 0 ++ encodeRecords block.records)
  rest : p.Holds block.size (List.replicate (builder.capacity - block.size) 0)

/-! ## Starting a block -/

section Init

variable {flags : BitVec 16} {bootId producerId createdCounter : BitVec 64}

theorem writeHeader_holds (p : Memory) {capacity : Nat} (hcapacity : 64 ≤ capacity)
    (hknown : bibHeaderFlagsAreKnown flags) :
    (writeHeader (p.zeroRange 0 capacity) flags bootId producerId createdCounter).Holds 0
      ((BibBlock.empty ⟨flags, bootId, producerId, createdCounter, hknown⟩).header 0 0 0) := by
  have hzero : ∀ first count, first + count ≤ 64 →
      (p.zeroRange 0 capacity).Holds first (List.replicate count 0) :=
    fun first count hle => holds_zeroRange_of_inside first.zero_le (by omega)
  have htotal : (p.zeroRange 0 capacity).Holds 16 (le32 0) := hzero 16 4 (by omega)
  have hcrc : (p.zeroRange 0 capacity).Holds 20 (le32 0) := hzero 20 4 (by omega)
  have hcount : (p.zeroRange 0 capacity).Holds 52 (le32 0) := hzero 52 4 (by omega)
  have hreserved : (p.zeroRange 0 capacity).Holds 56 (le64 0) := hzero 56 8 (by omega)
  have hmagic : bibMagic.length = 8 := rfl
  have hsize : bibHeaderSizeV1 = 64 := rfl
  have hsize16 : BitVec.setWidth 16 (64 : BitVec 32) = 64 := rfl
  -- each field survives the stores behind it, which lie elsewhere in the header
  simp only [BibBlock.holds_header, writeHeader, BibBlock.empty]
  simp (disch := simp [hmagic]) only [holds_write_of_disjoint, hsize, hsize16, holds_write_same,
    htotal, hcrc, hcount, hreserved, and_self]

/-- The header stores leave what lies behind the header alone. -/
theorem holds_writeHeader {p : Memory} {first : Nat} {bytes : List (BitVec 8)}
    (hfirst : 64 ≤ first) :
    (writeHeader p flags bootId producerId createdCounter).Holds first bytes ↔
      p.Holds first bytes := by
  have hmagic : bibMagic.length = 8 := rfl
  simp only [writeHeader]
  simp (disch := (simp only [hmagic, length_le16, length_le32, length_le64]; omega)) only
    [holds_write_of_disjoint]

theorem bibBuilderInit_builds {builder : Option BibBuilder} {buffer : Option Memory}
    {capacity : Nat}
    (hinit : (bibBuilderInit builder buffer capacity flags bootId producerId createdCounter).1 =
      .ok) :
    ∃ (started : BibBuilder) (p : Memory) (hknown : bibHeaderFlagsAreKnown flags),
      (bibBuilderInit builder buffer capacity flags bootId producerId createdCounter).2 =
        some started ∧
      started.Builds p (.empty ⟨flags, bootId, producerId, createdCounter, hknown⟩) := by
  rcases builder with _ | builder
  · cases hinit
  rcases buffer with _ | p
  · cases hinit
  simp only [bibBuilderInit] at hinit ⊢
  split_ifs at hinit ⊢ with hcapacity hflags
  obtain ⟨hmin, hmax⟩ := not_or.mp hcapacity
  have hmin' : 64 ≤ capacity := Nat.not_lt.mp hmin
  refine ⟨_, _, hflags, rfl, ⟨rfl, rfl, rfl, rfl, hmin', ?_, ?_, ?_⟩⟩
  · exact Nat.lt_succ_of_le (Nat.not_lt.mp hmax)
  · rw [BibBlock.empty, encodeRecords, List.flatMap_nil, List.append_nil]
    exact writeHeader_holds p hmin' hflags
  · apply (holds_writeHeader le_rfl).mpr
    apply holds_zeroRange_of_inside (Nat.zero_le _)
    change 64 + (capacity - 64) ≤ 0 + capacity
    omega

end Init

/-! ## Adding a record -/

section AddTlv

variable {type flags : BitVec 16} {recordLength payloadLength : BitVec 32} {p payload : Memory}
  {record : Nat}

/-- Copying no bytes is copying the empty payload. -/
theorem writeRecord_eq :
    writeRecord p record type flags recordLength payloadLength payload =
      (((((p.zeroRange record recordLength.toNat).write record (le16 type)).write (record + 2)
        (le16 flags)).write (record + 4) (le32 recordLength)).write (record + 8)
        (le32 payloadLength)).write (record + 16) (payload.slice 0 payloadLength.toNat) := by
  simp only [writeRecord, Nat.add_zero]
  split_ifs with hempty
  · rfl
  · obtain rfl := not_not.mp hempty
    exact (write_nil _ _).symm

theorem writeRecord_holds
    (hlength : recordLength.toNat =
      BibRecord.size ⟨type, flags, payload.slice 0 payloadLength.toNat⟩) :
    (writeRecord p record type flags recordLength payloadLength payload).Holds record
      (BibRecord.encode ⟨type, flags, payload.slice 0 payloadLength.toNat⟩) := by
  have hfits := BibRecord.payload_fits ⟨type, flags, payload.slice 0 payloadLength.toNat⟩
  rw [length_slice] at hfits
  have hzero : ∀ step count, step + count ≤ recordLength.toNat →
      (p.zeroRange record recordLength.toNat).Holds (record + step) (List.replicate count 0) :=
    fun step count hle => holds_zeroRange_of_inside (by omega) (by omega)
  have hreserved : (p.zeroRange record recordLength.toNat).Holds (record + 12) (le32 0) :=
    hzero 12 4 (by omega)
  have hpadding := hzero (16 + payloadLength.toNat)
    (recordLength.toNat - 16 - payloadLength.toNat) (by omega)
  rw [BibRecord.holds_encode, writeRecord_eq, ← hlength]
  simp only [length_slice, BitVec.ofNat_toNat, BitVec.setWidth_eq]
  simp (disch := (simp only [length_le16, length_le32, length_slice, List.length_replicate]; omega))
    only [holds_write_of_disjoint, holds_write_same, hreserved, hpadding, and_self]

/-- The record stores leave what lies outside the record alone. -/
theorem holds_writeRecord {first : Nat} {bytes : List (BitVec 8)}
    (hfits : 16 + payloadLength.toNat ≤ recordLength.toNat)
    (hdisjoint : first + bytes.length ≤ record ∨ record + recordLength.toNat ≤ first) :
    (writeRecord p record type flags recordLength payloadLength payload).Holds first bytes ↔
      p.Holds first bytes := by
  rw [writeRecord_eq]
  simp (disch := (simp only [length_le16, length_le32, length_slice]; omega)) only
    [holds_write_of_disjoint]
  exact holds_zeroRange_of_disjoint hdisjoint

variable {builder : BibBuilder} {source : Option Memory}

/-- The bytes behind a payload pointer. -/
def payloadBytes (source : Option Memory) (payloadLength : BitVec 32) : List (BitVec 8) :=
  (source.getD fun _ => 0).slice 0 payloadLength.toNat

/-- Everything a successful `add_tlv` says about its arguments and does. -/
theorem bibBuilderAddTlv_ok {builder : Option BibBuilder}
    (hadd : (bibBuilderAddTlv builder type flags source payloadLength).1 = .ok) :
    ∃ (current : BibBuilder) (p : Memory) (recordLength : BitVec 32),
      builder = some current ∧ current.buffer = some p ∧
      (payloadLength ≠ 0 → source.isSome) ∧ bibTlvFlagsAreKnown flags ∧
      recordLength.toNat = BibRecord.size ⟨type, flags, payloadBytes source payloadLength⟩ ∧
      current.length.toNat + recordLength.toNat ≤ current.capacity ∧
      (bibBuilderAddTlv builder type flags source payloadLength).2 = some
        { current with
          buffer := some (writeRecord p current.length.toNat type flags recordLength payloadLength
            (source.getD fun _ => 0))
          length := current.length + recordLength
          tlvCount := current.tlvCount + 1 } := by
  rcases builder with _ | current
  · cases hadd
  cases hbuffer : current.buffer with
  | none =>
      simp only [bibBuilderAddTlv, hbuffer] at hadd
      cases hadd
  | some p =>
      simp only [bibBuilderAddTlv, hbuffer] at hadd ⊢
      split_ifs at hadd ⊢ with hpayload hsealed hflags hlength
      cases halign : align8U32 (bibTlvHeaderSizeV1 + payloadLength) with
      | none =>
          rw [halign] at hadd
          cases hadd
      | some recordLength =>
          simp only [halign] at hadd ⊢
          split_ifs at hadd ⊢ with hcapacity
          refine ⟨current, p, recordLength, rfl, hbuffer, ?_, hflags, ?_, by omega, rfl⟩
          · intro hlength
            have hsome := fun hnone => hpayload ⟨hlength, hnone⟩
            exact Option.isSome_iff_ne_none.mpr fun hnone => hsome (by simp [hnone])
          · have hle : payloadLength.toNat ≤ 0xFFFFFFFF - 16 := BitVec.not_lt.mp hlength
            rw [align8U32_eq_some halign, BitVec.toNat_add, BibRecord.size, payloadBytes,
              length_slice]
            change ((16 + payloadLength.toNat) % 2 ^ 32 + 7) / 8 * 8 = _
            rw [Nat.mod_eq_of_lt (by omega)]

/-- The builder after the stores of a record that fits. -/
theorem BibBuilder.Builds.add {block : BibBlock} (hbuilds : builder.Builds p block)
    (hknown : bibTlvFlagsAreKnown flags)
    (hlength : recordLength.toNat = BibRecord.size ⟨type, flags, payloadBytes source payloadLength⟩)
    (hcapacity : builder.length.toNat + recordLength.toNat ≤ builder.capacity) :
    BibBuilder.Builds
      { builder with
        buffer := some (writeRecord p builder.length.toNat type flags recordLength payloadLength
          (source.getD fun _ => 0))
        length := builder.length + recordLength
        tlvCount := builder.tlvCount + 1 }
      (writeRecord p builder.length.toNat type flags recordLength payloadLength
        (source.getD fun _ => 0))
      (block.add ⟨type, flags, payloadBytes source payloadLength⟩ hknown) := by
  have hfits := BibRecord.payload_fits ⟨type, flags, payloadBytes source payloadLength⟩
  have hsize := block.size_add ⟨type, flags, payloadBytes source payloadLength⟩ hknown
  have hcount := block.records_length_lt (hbuilds.fits.trans_lt hbuilds.capacity_lt)
  rw [← hlength, payloadBytes, length_slice] at hfits
  rw [← hlength, ← hbuilds.length] at hsize
  have hlt := hbuilds.capacity_lt
  refine ⟨rfl, ?_, ?_, hbuilds.unsealed, ?_, hlt, ?_, ?_⟩
  case refine_1 =>
    rw [hsize, BitVec.toNat_add]
    exact Nat.mod_eq_of_lt (by omega)
  case refine_2 =>
    rw [BitVec.toNat_add, hbuilds.tlvCount, BibBlock.add, List.length_append]
    exact Nat.mod_eq_of_lt (Nat.lt_sub_iff_add_lt.mp hcount)
  case refine_3 =>
    rw [hsize]
    exact hcapacity
  case refine_4 =>
    -- the block so far lies before the record, and the record is behind it
    have hbefore : (block.header 0 0 0 ++ encodeRecords block.records).length =
        builder.length.toNat := by
      simp [hbuilds.length, BibBlock.size]
    rw [BibBlock.add, encodeRecords_concat, ← List.append_assoc]
    apply holds_append.mpr
    constructor
    · exact (holds_writeRecord hfits (.inl (by rw [Nat.zero_add]; exact hbefore.le))).mpr
        hbuilds.contents
    · have hafter : 0 + (block.header 0 0 0 ++ encodeRecords block.records).length =
          builder.length.toNat := by rw [Nat.zero_add, hbefore]
      exact hafter ▸ writeRecord_holds hlength
  case refine_5 =>
    rw [hsize]
    apply (holds_writeRecord hfits (.inr le_rfl)).mpr
    have hsplit : builder.capacity - block.size =
        recordLength.toNat + (builder.capacity - (builder.length.toNat + recordLength.toNat)) := by
      rw [← hbuilds.length]
      omega
    have hrest := hbuilds.rest
    rw [hsplit, ← List.replicate_append_replicate] at hrest
    simpa [hbuilds.length] using (holds_append.mp hrest).2

/-- A successful `add_tlv` adds its record to the block. -/
theorem bibBuilderAddTlv_builds {block : BibBlock} (hbuilds : builder.Builds p block)
    (hadd : (bibBuilderAddTlv (some builder) type flags source payloadLength).1 = .ok) :
    ∃ (added : BibBuilder) (p' : Memory) (hknown : bibTlvFlagsAreKnown flags),
      (bibBuilderAddTlv (some builder) type flags source payloadLength).2 = some added ∧
      added.Builds p' (block.add ⟨type, flags, payloadBytes source payloadLength⟩ hknown) := by
  obtain ⟨current, q, recordLength, hcurrent, hbuffer, -, hknown, hlength, hcapacity, hafter⟩ :=
    bibBuilderAddTlv_ok hadd
  obtain rfl := Option.some.inj hcurrent
  obtain rfl : q = p := Option.some.inj (hbuffer.symm.trans hbuilds.buffer)
  exact ⟨_, _, hknown, hafter, hbuilds.add hknown hlength hcapacity⟩

end AddTlv

/-! ## Runs of calls -/

/-- A call that adds a record. -/
inductive BibAdd where
  | tlv (type flags : BitVec 16) (payload : Option Memory) (payloadLength : BitVec 32)
  | reference (type flags : BitVec 16) (objectId address length : BitVec 64)
      (formatMajor formatMinor : BitVec 32)

namespace BibAdd

def apply (builder : Option BibBuilder) : BibAdd → BibBuilderResult × Option BibBuilder
  | tlv type flags payload payloadLength =>
    bibBuilderAddTlv builder type flags payload payloadLength
  | reference type flags objectId address length formatMajor formatMinor =>
    bibBuilderAddReference builder type flags objectId address length formatMajor formatMinor

/-- The record that the call asks for. -/
def record : BibAdd → BibRecord
  | tlv type flags payload payloadLength => ⟨type, flags, payloadBytes payload payloadLength⟩
  | reference type flags objectId address length formatMajor formatMinor =>
    ⟨type, flags, le64 objectId ++ le64 address ++ le64 length ++ le32 formatMajor ++
      le32 formatMinor ++ List.replicate 8 0⟩

end BibAdd

/-- The results of a run of calls, and the builder after it. -/
def addAll (builder : Option BibBuilder) : List BibAdd → List BibBuilderResult × Option BibBuilder
  | [] => ([], builder)
  | add :: adds =>
    let (result, added) := add.apply builder
    let (results, final) := addAll added adds
    (result :: results, final)

theorem referencePayload_bytes (objectId address length : BitVec 64)
    (formatMajor formatMinor : BitVec 32) :
    payloadBytes (some (referencePayload objectId address length formatMajor formatMinor))
        bibReferenceFixedSizeV1 =
      le64 objectId ++ le64 address ++ le64 length ++ le32 formatMajor ++ le32 formatMinor ++
        List.replicate 8 0 := by
  have hzero : (ofList (List.replicate bibReferenceFixedSizeV1.toNat 0)).Holds 32
      (List.replicate 8 0) := rfl
  have hholds : (referencePayload objectId address length formatMajor formatMinor).Holds 0
      (le64 objectId ++ le64 address ++ le64 length ++ le32 formatMajor ++ le32 formatMinor ++
        List.replicate 8 0) := by
    simp only [holds_append, List.length_append, length_le32, length_le64, Nat.zero_add,
      Nat.reduceAdd, referencePayload]
    simp (disch := simp) only [holds_write_of_disjoint, holds_write_same, hzero, and_self]
  exact hholds

/-- A successful call adds the record it asks for. -/
theorem BibAdd.apply_builds {builder : BibBuilder} {p : Memory} {block : BibBlock}
    (hbuilds : builder.Builds p block) (add : BibAdd)
    (hadd : (add.apply (some builder)).1 = .ok) :
    ∃ (added : BibBuilder) (p' : Memory) (hknown : bibTlvFlagsAreKnown add.record.flags),
      (add.apply (some builder)).2 = some added ∧
        added.Builds p' (block.add add.record hknown) := by
  cases add with
  | tlv type flags payload payloadLength => exact bibBuilderAddTlv_builds hbuilds hadd
  | reference type flags objectId address length formatMajor formatMinor =>
      have hrecord := bibBuilderAddTlv_builds hbuilds hadd
      simp only [referencePayload_bytes] at hrecord
      exact hrecord

/-- A run of successful calls adds their records in order. -/
theorem addAll_builds {builder : BibBuilder} {p : Memory} {block : BibBlock}
    (hbuilds : builder.Builds p block) (adds : List BibAdd)
    (hadds : ∀ result ∈ (addAll (some builder) adds).1, result = .ok) :
    ∃ (filled : BibBuilder) (p' : Memory) (block' : BibBlock),
      (addAll (some builder) adds).2 = some filled ∧ filled.Builds p' block' ∧
      block'.toBibHeaderFields = block.toBibHeaderFields ∧
      block'.records = block.records ++ adds.map BibAdd.record := by
  induction adds generalizing builder p block with
  | nil => exact ⟨builder, p, block, rfl, hbuilds, rfl, by simp⟩
  | cons add adds ih =>
      simp only [addAll, List.forall_mem_cons] at hadds
      obtain ⟨added, q, hknown, hadded, hbuilds'⟩ := add.apply_builds hbuilds hadds.1
      rw [hadded] at hadds
      obtain ⟨filled, p', block', hfilled, hfinal, hfields, hrecords⟩ := ih hbuilds' hadds.2
      refine ⟨filled, p', block', ?_, hfinal, hfields, ?_⟩
      · simp only [addAll, hadded, hfilled]
      · rw [hrecords, BibBlock.add, List.map_cons, List.append_assoc]
        rfl

/-! ## Sealing -/

theorem crc32c_eq_of_holds {p : Memory} {bytes : List (BitVec 8)} (hholds : p.Holds 0 bytes) :
    crc32c p bytes.length = crc32c (ofList bytes) bytes.length := by
  have hbytes : ∀ index < bytes.length, p index = ofList bytes index := by
    intro index hindex
    rw [← hholds.apply hindex, Nat.zero_add]
  rw [crc32c, Crc.update_congr _ _ hbytes, crc32c]

/-- The stores of `seal` turn the block under construction into its encoding. -/
theorem BibBuilder.Builds.seal {builder : BibBuilder} {p : Memory} {block : BibBlock}
    (hbuilds : builder.Builds p block) :
    (writeSeal p builder.length builder.tlvCount).Holds 0 block.encode := by
  obtain ⟨hheader, hrecords⟩ := holds_append.mp hbuilds.contents
  rw [BibBlock.length_header, Nat.zero_add] at hrecords
  have hlength : builder.length = BitVec.ofNat 32 block.size := by
    rw [← hbuilds.length, BitVec.ofNat_toNat, BitVec.setWidth_eq]
  have hcount : builder.tlvCount = BitVec.ofNat 32 block.records.length := by
    rw [← hbuilds.tlvCount, BitVec.ofNat_toNat, BitVec.setWidth_eq]
  have hmagic : bibMagic.length = 8 := rfl
  -- the checksum is taken of the image that still has a zero in its place
  have hdraft : (((p.write 16 (le32 builder.length)).write 20 (le32 0)).write 52
      (le32 builder.tlvCount)).Holds 0 (block.image 0) := by
    apply block.holds_image.mpr
    rw [BibBlock.holds_header] at hheader ⊢
    simp (disch := simp [hmagic]) only [holds_write_of_disjoint, holds_write_same, hheader,
      hrecords, hlength, hcount, and_self]
  have hcrc := crc32c_eq_of_holds hdraft
  rw [block.length_image] at hcrc
  obtain ⟨hheader', hrecords'⟩ := block.holds_image.mp hdraft
  apply block.holds_image.mpr
  rw [BibBlock.holds_header] at hheader' ⊢
  simp only [writeSeal, hbuilds.length, hcrc]
  simp (disch := simp [hmagic]) only [holds_write_of_disjoint, holds_write_same, hheader',
    hrecords', BibBlock.checksum, and_self]

theorem bibBuilderSeal_of_builds {builder : BibBuilder} {p : Memory} {block : BibBlock}
    (hbuilds : builder.Builds p block) (slot : Option (BitVec 32)) :
    bibBuilderSeal (some builder) slot =
      (.ok,
        some { builder with
          buffer := some (writeSeal p builder.length builder.tlvCount)
          sealed := true },
        slot.map fun _ => builder.length) := by
  simp [bibBuilderSeal, hbuilds.buffer, hbuilds.unsealed]

/-- A run of successful calls from `init` to `seal` leaves an encoded block behind. -/
theorem build_encodes {builder started filled finished : Option BibBuilder}
    {buffer : Option Memory} {capacity : Nat} {flags : BitVec 16}
    {bootId producerId createdCounter : BitVec 64} {adds : List BibAdd}
    {results : List BibBuilderResult} {slot length : Option (BitVec 32)}
    (hinit : bibBuilderInit builder buffer capacity flags bootId producerId createdCounter =
      (.ok, started))
    (hadds : addAll started adds = (results, filled)) (hresults : ∀ result ∈ results, result = .ok)
    (hseal : bibBuilderSeal filled slot = (.ok, finished, length)) :
    ∃ (sealed : BibBuilder) (p : Memory) (block : BibBlock), finished = some sealed ∧
      sealed.buffer = some p ∧ length = slot.map (fun _ => BitVec.ofNat 32 block.size) ∧
      p.Holds 0 block.encode ∧ block.size < 2 ^ 32 ∧
      block.flags = flags ∧ block.bootId = bootId ∧ block.producerId = producerId ∧
      block.createdCounter = createdCounter ∧ block.records = adds.map BibAdd.record := by
  obtain ⟨current, q, hknown, hstarted, hbuilds⟩ := bibBuilderInit_builds (congrArg Prod.fst hinit)
  obtain rfl : started = some current := (congrArg Prod.snd hinit).symm.trans hstarted
  have hall : ∀ result ∈ (addAll (some current) adds).1, result = .ok := by
    rwa [hadds]
  obtain ⟨last, p, block, hfilled, hbuilds', hfields, hrecords⟩ := addAll_builds hbuilds adds hall
  obtain rfl : filled = some last := (congrArg Prod.snd hadds).symm.trans hfilled
  rw [bibBuilderSeal_of_builds hbuilds', Prod.mk.injEq, Prod.mk.injEq] at hseal
  obtain ⟨-, hfinished, hlength⟩ := hseal
  have hsize : BitVec.ofNat 32 block.size = last.length := by
    rw [← hbuilds'.length, BitVec.ofNat_toNat, BitVec.setWidth_eq]
  refine ⟨_, _, block, hfinished.symm, rfl, ?_, hbuilds'.seal,
    hbuilds'.fits.trans_lt hbuilds'.capacity_lt, ?_, ?_, ?_, ?_, hrecords⟩
  case refine_1 => rw [← hlength, hsize]
  case refine_2 => exact congrArg BibHeaderFields.flags hfields
  case refine_3 => exact congrArg BibHeaderFields.bootId hfields
  case refine_4 => exact congrArg BibHeaderFields.producerId hfields
  case refine_5 => exact congrArg BibHeaderFields.createdCounter hfields

end Atarix
