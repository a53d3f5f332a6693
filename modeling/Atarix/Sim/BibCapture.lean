import Atarix.Bib.References

/-! # Boot blocks published by the emulator

`sim_bib.c`. The capture writes what it is configured with; the ranges that the
reader checks are not looked at before the block is sealed.
-/

namespace Atarix

open Memory

/-- `atarix_sim_bib_capture_config_t`. -/
structure SimBibCaptureConfig where
  headerFlags : BitVec 16
  bootId : BitVec 64
  producerId : BitVec 64
  createdCounter : BitVec 64
  serviceObjectId : BitVec 64
  serviceAddress : BitVec 64
  serviceLength : BitVec 64
  memoryObjectId : BitVec 64
  memoryAddress : BitVec 64
  memoryLength : BitVec 64
deriving DecidableEq, Repr

/-- `none` is a NULL pointer, and `stack` is what the local builder happens to hold.
Returns the result, the buffer contents and the caller's length. -/
def simBibCapture (config : Option SimBibCaptureConfig) (buffer : Option Memory) (capacity : Nat)
    (serializedLength : Option (BitVec 32)) (stack : BibBuilder) :
    BibBuilderResult × Option Memory × Option (BitVec 32) :=
  match config, buffer, serializedLength with
  | some config, some p, some length =>
    let (result, builder) := bibBuilderInit (some stack) (some p) capacity config.headerFlags
      config.bootId config.producerId config.createdCounter
    -- a refused `init` has not touched the buffer
    if result ≠ .ok then (result, some p, some length)
    else
      let (result, builder) := bibBuilderAddReference builder BibTlv.serviceDirectoryReference
        bibTlvFlagMandatory config.serviceObjectId config.serviceAddress config.serviceLength 1 0
      if result ≠ .ok then (result, builder.bind BibBuilder.buffer, some length)
      else
        let (result, builder) := bibBuilderAddReference builder BibTlv.memoryMapReference
          bibTlvFlagMandatory config.memoryObjectId config.memoryAddress config.memoryLength 1 0
        if result ≠ .ok then (result, builder.bind BibBuilder.buffer, some length)
        else
          let (result, builder, length) := bibBuilderSeal builder (some length)
          (result, builder.bind BibBuilder.buffer, length)
  | _, buffer, serializedLength => (.argument, buffer, serializedLength)

/-! ## What a capture writes -/

/-- The two records of a capture. -/
def SimBibCaptureConfig.adds (config : SimBibCaptureConfig) : List BibAdd :=
  [.reference BibTlv.serviceDirectoryReference bibTlvFlagMandatory config.serviceObjectId
      config.serviceAddress config.serviceLength 1 0,
    .reference BibTlv.memoryMapReference bibTlvFlagMandatory config.memoryObjectId
      config.memoryAddress config.memoryLength 1 0]

/-- The block carries the configuration. -/
structure BibBlock.Captures (block : BibBlock) (config : SimBibCaptureConfig) : Prop where
  flags : block.flags = config.headerFlags
  bootId : block.bootId = config.bootId
  producerId : block.producerId = config.producerId
  createdCounter : block.createdCounter = config.createdCounter
  records : block.records = config.adds.map BibAdd.record

variable {config : Option SimBibCaptureConfig} {buffer after : Option Memory} {capacity : Nat}
  {slot length : Option (BitVec 32)} {stack : BibBuilder}

/-- A successful capture leaves the block of its configuration in the buffer. -/
theorem simBibCapture_ok
    (hcapture : simBibCapture config buffer capacity slot stack = (.ok, after, length)) :
    ∃ (settings : SimBibCaptureConfig) (p : Memory) (block : BibBlock),
      config = some settings ∧ after = some p ∧
      length = some (BitVec.ofNat 32 block.size) ∧ p.Holds 0 block.encode ∧
      block.Captures settings := by
  rcases config with _ | config
  · cases hcapture
  rcases buffer with _ | q
  · cases hcapture
  rcases slot with _ | slot
  · cases hcapture
  simp only [simBibCapture] at hcapture
  split_ifs at hcapture with hinit hservice hmemory
  · exact absurd (congrArg Prod.fst hcapture) hinit
  · exact absurd (congrArg Prod.fst hcapture) hservice
  · exact absurd (congrArg Prod.fst hcapture) hmemory
  -- every call has succeeded, so the capture is a run of the builder
  rw [not_not] at hinit hservice hmemory
  simp only [Prod.mk.injEq] at hcapture
  obtain ⟨hsealed, hafter, hlength⟩ := hcapture
  have hadds : ∀ result ∈ (addAll (bibBuilderInit (some stack) (some q) capacity
      config.headerFlags config.bootId config.producerId config.createdCounter).2 config.adds).1,
      result = .ok := by
    simp only [SimBibCaptureConfig.adds, addAll, BibAdd.apply, List.forall_mem_cons]
    exact ⟨hservice, hmemory, List.forall_mem_nil _⟩
  obtain ⟨finished, p, block, hfinished, hbuffer, hslot, hholds, -, hflags, hboot, hproducer,
    hcounter, hrecords⟩ :=
      build_encodes (Prod.ext hinit rfl) rfl hadds (Prod.ext hsealed (Prod.ext rfl rfl))
  refine ⟨config, p, block, rfl, ?_, ?_, hholds, hflags, hboot, hproducer, hcounter, hrecords⟩
  · rw [← hafter, ← hbuffer]
    exact congrArg (Option.bind · BibBuilder.buffer) hfinished
  · rw [← hlength]
    exact hslot

section Captured

variable {settings : SimBibCaptureConfig} {block : BibBlock} {p : Memory}

theorem BibBlock.Captures.size_eq (hcaptures : block.Captures settings) : block.size = 176 := by
  rw [BibBlock.size, hcaptures.records]
  simp [SimBibCaptureConfig.adds, BibAdd.record, recordsSize, BibRecord.size]

/-- Both ranges of the configuration end below `2 ^ 64`. -/
def SimBibCaptureConfig.RangesFit (config : SimBibCaptureConfig) : Prop :=
  config.serviceAddress.toNat + config.serviceLength.toNat < 2 ^ 64 ∧
    config.memoryAddress.toNat + config.memoryLength.toNat < 2 ^ 64

/-- A reference record names the range it was given. -/
theorem BibAdd.reference_range (type flags : BitVec 16) (objectId address length : BitVec 64)
    (formatMajor formatMinor : BitVec 32) :
    (reference type flags objectId address length formatMajor formatMinor).record.address =
        address ∧
      (reference type flags objectId address length formatMajor formatMinor).record.length =
        length := by
  have hholds := holds_ofList
    (reference type flags objectId address length formatMajor formatMinor).record.payload
  simp only [record, holds_append, List.length_append, length_le32, length_le64, Nat.reduceAdd,
    Nat.zero_add] at hholds
  obtain ⟨⟨⟨⟨⟨-, haddress⟩, hlength⟩, -⟩, -⟩, -⟩ := hholds
  exact ⟨haddress.load64, hlength.load64⟩

theorem BibBlock.Captures.acceptable_iff (hcaptures : block.Captures settings) :
    RecordsAcceptable block.records ↔ settings.RangesFit := by
  rw [hcaptures.records]
  constructor
  · rintro ⟨-, -, -, hreferences⟩
    simp only [SimBibCaptureConfig.adds, List.map_cons, List.forall_mem_cons] at hreferences
    obtain ⟨hservice, hmemory, -⟩ := hreferences
    have hserviceRange := (hservice (.inl rfl)).2
    have hmemoryRange := (hmemory (.inr rfl)).2
    rw [(BibAdd.reference_range ..).1, (BibAdd.reference_range ..).2] at hserviceRange hmemoryRange
    exact ⟨hserviceRange, hmemoryRange⟩
  · rintro ⟨hservice, hmemory⟩
    refine ⟨?_, ?_, ?_, ?_⟩
    case refine_1 =>
      have hservice : knownType BibTlv.serviceDirectoryReference := by decide
      have hmemory : knownType BibTlv.memoryMapReference := by decide
      simp only [SimBibCaptureConfig.adds, List.map_cons, List.forall_mem_cons]
      exact ⟨.inl ((knownType_iff _).mp hservice), .inl ((knownType_iff _).mp hmemory),
        List.forall_mem_nil _⟩
    case refine_2 => rfl
    case refine_3 => rfl
    case refine_4 =>
      simp only [SimBibCaptureConfig.adds, List.map_cons, List.forall_mem_cons]
      refine ⟨fun _ => ⟨le_rfl, ?_⟩, fun _ => ⟨le_rfl, ?_⟩, List.forall_mem_nil _⟩
      · rwa [(BibAdd.reference_range ..).1, (BibAdd.reference_range ..).2]
      · rwa [(BibAdd.reference_range ..).1, (BibAdd.reference_range ..).2]

/-! ## What the consumer reads back -/

/-- Looking up `type` hands out the given reference. -/
def BibView.Finds (view : BibView) (type : BitVec 16) (objectId address length : BitVec 64) :
    Prop :=
  ∀ prior, ∃ reference,
    (bibReaderFindReference (some view) type (some prior)).value = (.ok, some reference) ∧
      reference.objectId = objectId ∧ reference.address = address ∧ reference.length = length

/-- The opened view shows the configuration of the capture. -/
structure BibView.Shows (opened : BibView) (config : SimBibCaptureConfig) : Prop where
  bootId : opened.bootId = config.bootId
  producerId : opened.producerId = config.producerId
  createdCounter : opened.createdCounter = config.createdCounter
  flags : opened.flags = config.headerFlags
  service : opened.Finds BibTlv.serviceDirectoryReference config.serviceObjectId
    config.serviceAddress config.serviceLength
  memory : opened.Finds BibTlv.memoryMapReference config.memoryObjectId config.memoryAddress
    config.memoryLength

/-- The consumer opens the block and reads the configuration back. -/
def CaptureAccepted (config : SimBibCaptureConfig) (p : Memory) (windowLength : Nat) : Prop :=
  ∀ prior, ∃ opened,
    (bibReaderOpen (some prior) (some p) windowLength).value = (.ok, some opened) ∧
      opened.Shows config

/-- The reference payload that `add_reference` wrote, read back. -/
theorem finds_of_first (haccepted : ImageRecordsAccepted p) {type flags : BitVec 16}
    {objectId address length : BitVec 64} {formatMajor formatMinor : BitVec 32} {offset : Nat}
    {record : BibRecord} (hrecord : record = BibAdd.record
      (.reference type flags objectId address length formatMajor formatMinor))
    (hholds : p.Holds offset record.encode)
    (hfirst : (imageRecords p).find? (·.type = type) = some (record.view offset)) :
    (viewOf p).Finds type objectId address length := by
  obtain ⟨-, -, -, -, -, hpayload, -⟩ := record.holds_encode.mp hholds
  have htail : List.replicate 8 (0 : BitVec 8) = le32 0 ++ le32 0 := rfl
  subst hrecord
  -- the eight bytes left at zero are an integrity kind and length of zero
  simp only [BibAdd.record, htail, holds_append, List.length_append, length_le32, length_le64,
    Nat.reduceAdd] at hpayload
  obtain ⟨⟨⟨⟨⟨hobject, haddress⟩, hlength⟩, -⟩, -⟩, -, hintegrity⟩ := hpayload
  intro prior
  refine ⟨referenceViewAt p (offset + 16), ?_, hobject.load64, haddress.load64, hlength.load64⟩
  apply (findReference_ok_iff haccepted).mpr
  refine lookupReference_ok_iff.mpr ⟨_, hfirst, ?_, rfl⟩
  change 40 + (p.load32 (offset + 16 + 36)).toNat ≤ 40
  rw [show p.load32 (offset + 16 + 36) = 0 from hintegrity.load32]
  rfl

/-- An opened capture shows its configuration. -/
theorem BibBlock.Captures.shows (hcaptures : block.Captures settings)
    (hholds : p.Holds 0 block.encode) (haccepted : ImageRecordsAccepted p) :
    (viewOf p).Shows settings := by
  have hrecords : imageRecords p = viewsAt 64 (settings.adds.map BibAdd.record) := by
    rw [BibBlock.imageRecords_eq hholds (by rw [hcaptures.size_eq]; decide), hcaptures.records]
  obtain ⟨-, hencoded⟩ := block.holds_image.mp hholds
  simp only [hcaptures.records, SimBibCaptureConfig.adds, List.map_cons, encodeRecords_cons,
    holds_append, BibRecord.length_encode] at hencoded
  obtain ⟨hservice, hmemory, -⟩ := hencoded
  rw [BibBlock.viewOf_eq hholds]
  refine ⟨hcaptures.bootId, hcaptures.producerId, hcaptures.createdCounter, hcaptures.flags, ?_, ?_⟩
  · rw [← BibBlock.viewOf_eq hholds]
    refine finds_of_first haccepted rfl hservice ?_
    rw [hrecords]
    rfl
  · rw [← BibBlock.viewOf_eq hholds]
    refine finds_of_first haccepted rfl hmemory ?_
    rw [hrecords]
    rfl

end Captured

/-- The consumer accepts what a capture has published, and reads the configuration
back, exactly if neither range of the configuration wraps. -/
theorem captureAccepted_iff
    (hcapture : simBibCapture config buffer capacity slot stack = (.ok, after, length)) :
    ∃ (settings : SimBibCaptureConfig) (p : Memory) (serializedLength : BitVec 32),
      config = some settings ∧ after = some p ∧ length = some serializedLength ∧
      (CaptureAccepted settings p serializedLength.toNat ↔ settings.RangesFit) := by
  obtain ⟨settings, p, block, rfl, rfl, rfl, hholds, hcaptures⟩ := simBibCapture_ok hcapture
  have hsize := hcaptures.size_eq
  refine ⟨settings, p, BitVec.ofNat 32 block.size, rfl, rfl, rfl, ?_⟩
  have hopen : ∀ prior, (bibReaderOpen (some prior) (some p) block.size).value.1 = .ok ↔
      block.size ≤ 65536 ∧ RecordsAcceptable block.records :=
    block.open_ok_iff hholds (by rw [hsize]; decide) le_rfl
  rw [BitVec.toNat_ofNat, Nat.mod_eq_of_lt (by rw [hsize]; decide), ← hcaptures.acceptable_iff]
  constructor
  · intro haccepted
    obtain ⟨opened, hopened, -⟩ := haccepted .zero
    exact ((hopen .zero).mp (congrArg Prod.fst hopened)).2
  · intro hacceptable prior
    have hok := (hopen prior).mpr ⟨by rw [hsize]; decide, hacceptable⟩
    have hopened : (bibReaderOpen (some prior) (some p) block.size).value =
        (.ok, some (viewOf p)) := Prod.ext hok (bibReaderOpen_view hok)
    exact ⟨viewOf p, hopened, hcaptures.shows hholds (imageRecordsAccepted_of_open hopened).1⟩

/-- A configuration with the service directory at `address`. -/
def sampleConfig (address : BitVec 64) : SimBibCaptureConfig where
  headerFlags := 8
  bootId := 0x454D554C41544F52
  producerId := 0x4154415249580001
  createdCounter := 1
  serviceObjectId := 0x1001
  serviceAddress := address
  serviceLength := 0x2000
  memoryObjectId := 0x1002
  memoryAddress := 0x200000
  memoryLength := 0x3000

/-- A capture into a buffer of 176 bytes. -/
def sampleCapture (address : BitVec 64) : BibBuilderResult × Option Memory × Option (BitVec 32) :=
  simBibCapture (some (sampleConfig address)) (some fun _ => 0xFF) 176 (some 0)
    ⟨none, 0, 0, 0, false⟩

theorem captureAccepted_iff_sample :
    ∃ p, sampleCapture 0x100000 = (.ok, some p, some 176) ∧
      CaptureAccepted (sampleConfig 0x100000) p 176 := by
  have hcapture : sampleCapture 0x100000 = (.ok, (sampleCapture 0x100000).2.1, some 176) :=
    Prod.ext (by decide) (Prod.ext rfl (by decide))
  obtain ⟨settings, p, length, hsettings, hafter, hlength, hiff⟩ := captureAccepted_iff hcapture
  obtain rfl := Option.some.inj hsettings
  obtain rfl := Option.some.inj hlength
  refine ⟨p, ?_, hiff.mpr ⟨by decide, by decide⟩⟩
  rw [hcapture, hafter]

/-- A capture of a range that ends past `2 ^ 64` is sealed, and refused by the reader. -/
theorem refused_block_captured :
    ∃ p, sampleCapture 0xFFFFFFFFFFFFFFFF = (.ok, some p, some 176) ∧
      (bibReaderOpen (some .zero) (some p) 176).value.1 = .referenceOverflow ∧
      ¬ CaptureAccepted (sampleConfig 0xFFFFFFFFFFFFFFFF) p 176 := by
  have hrefused : (bibReaderOpen (some .zero) (sampleCapture 0xFFFFFFFFFFFFFFFF).2.1 176).value.1 =
      .referenceOverflow := by decide +kernel
  have hcapture : sampleCapture 0xFFFFFFFFFFFFFFFF =
      (.ok, (sampleCapture 0xFFFFFFFFFFFFFFFF).2.1, some 176) :=
    Prod.ext (by decide) (Prod.ext rfl (by decide))
  cases hafter : (sampleCapture 0xFFFFFFFFFFFFFFFF).2.1 with
  | none =>
      rw [hafter] at hrefused
      cases hrefused
  | some p =>
      rw [hafter] at hrefused
      refine ⟨p, by rw [hcapture, hafter], hrefused, ?_⟩
      intro haccepted
      obtain ⟨opened, hopened, -⟩ := haccepted .zero
      rw [hopened] at hrefused
      cases hrefused

end Atarix
