import Atarix.Discovery.Exact
import Atarix.Discovery.Integrity

/-! # Building discovery images

`mkdiscovery.c`. The records of a profile are appended behind the header, and the
checksums are patched in last.
-/

namespace Atarix

open Memory

/-! ## Checksums -/

namespace MkDiscovery

/-- The tool's own copy of the checksum. -/
def crc32IsoHdlc (data : Memory) (length : Nat) : BitVec 32 :=
  ~~~ Crc.update crc32IsoHdlcBitStep 0xFFFFFFFF data length

/-- The header checksum is in place when the image checksum is computed. -/
def patchCrc32 (image : Memory) (imageLength : Nat) : Memory :=
  let image := image.write 24 (le32 0)
  let image := image.write 28 (le32 0)
  let image := image.write 24 (le32 (crc32IsoHdlc image discoveryHeaderSizeV1))
  image.write 28 (le32 (crc32IsoHdlc image imageLength))

/-! ## Appending records -/

/-- The image with the `size_t` offset of the next record. -/
structure ImageWriter where
  image : Memory
  offset : BitVec 64

/-- `true` is the status of an append that does not fit. -/
def appendBytes (imageCapacity : BitVec 64) (writer : ImageWriter) (src : List (BitVec 8)) :
    Bool × ImageWriter :=
  if BitVec.ofNat 64 src.length > imageCapacity - writer.offset then (true, writer)
  else
    (false, { image := writer.image.write writer.offset.toNat src
              offset := writer.offset + BitVec.ofNat 64 src.length })

def endRecord : List (BitVec 8) := le16 DiscoveryRecord.endOfRecords ++ le16 1 ++ le32 8

/-- A resource and a service record have one layout. -/
def typedRecord (recordType typeId : BitVec 16) (providerId instanceId : BitVec 32) :
    List (BitVec 8) :=
  le16 recordType ++ le16 1 ++ le32 32 ++ le16 typeId ++ le16 1 ++ le32 0 ++
    le64 (discoveryMakeHandle (providerId.setWidth 16) typeId instanceId) ++ le32 providerId ++
    le32 instanceId

def appendEnd (imageCapacity : BitVec 64) (writer : ImageWriter) : Bool × ImageWriter :=
  appendBytes imageCapacity writer endRecord

def appendResource (imageCapacity : BitVec 64) (writer : ImageWriter) (type : BitVec 16)
    (providerId instanceId : BitVec 32) : Bool × ImageWriter :=
  appendBytes imageCapacity writer (typedRecord DiscoveryRecord.resource type providerId instanceId)

def appendService (imageCapacity : BitVec 64) (writer : ImageWriter) (serviceId : BitVec 16)
    (providerId instanceId : BitVec 32) : Bool × ImageWriter :=
  appendBytes imageCapacity writer
    (typedRecord DiscoveryRecord.service serviceId providerId instanceId)

/-! ## Profiles -/

inductive AppendedKind where
  | resource
  | service
deriving DecidableEq, Repr

/-- A call of `append_resource` or of `append_service`. -/
structure AppendedRecord where
  kind : AppendedKind
  typeId : BitVec 16
  providerId : BitVec 32
  instanceId : BitVec 32
deriving DecidableEq, Repr

def appendRecord (imageCapacity : BitVec 64) (writer : ImageWriter) (record : AppendedRecord) :
    Bool × ImageWriter :=
  match record.kind with
  | .resource =>
      appendResource imageCapacity writer record.typeId record.providerId record.instanceId
  | .service =>
      appendService imageCapacity writer record.typeId record.providerId record.instanceId

/-- The locals of `build_profile`. -/
structure ProfileBuild where
  writer : ImageWriter
  recordCount : BitVec 32
  appendStatus : Bool

/-- `append_status |= append(..); record_count++;` -/
def ProfileBuild.append (build : ProfileBuild) (append : ImageWriter → Bool × ImageWriter) :
    ProfileBuild where
  writer := (append build.writer).2
  recordCount := build.recordCount + 1
  appendStatus := build.appendStatus || (append build.writer).1

def appendRecords (imageCapacity : BitVec 64) (build : ProfileBuild)
    (records : List AppendedRecord) : ProfileBuild :=
  records.foldl (fun build record => build.append (appendRecord imageCapacity · record)) build

/-- The header fields that are set before the records. -/
def writeImageHeader (image : Memory) (providerId : BitVec 32) : Memory :=
  let image := image.write 0 (le32 discoveryMagicAtdx)
  let image := image.write 4 (le16 discoveryVersionMajorV1)
  let image := image.write 6 (le16 discoveryVersionMinorV0)
  image.write 16 (le32 providerId)

/-- `build_profile` up to the first append. -/
def startBuild (providerId : BitVec 32) (image : Memory) (imageCapacity : BitVec 64) :
    ProfileBuild where
  writer := { image := writeImageHeader (image.zeroRange 0 imageCapacity.toNat) providerId
              offset := 32 }
  recordCount := 0
  appendStatus := false

/-- `build_profile` for the records of a profile: the image and its length, or
`none` where an append failed. -/
def buildImage (providerId : BitVec 32) (records : List AppendedRecord) (image : Memory)
    (imageCapacity : BitVec 64) : Option (Memory × BitVec 64) :=
  let start := startBuild providerId image imageCapacity
  let build := (appendRecords imageCapacity start records).append (appendEnd imageCapacity)
  if build.appendStatus then none
  else
    let offset := build.writer.offset
    let image := build.writer.image.write 8 (le32 (offset.setWidth 32))
    let image := image.write 12 (le32 build.recordCount)
    some (patchCrc32 image offset.toNat, offset)

/-! ## The profiles of the tool -/

def resourceSupervisor : BitVec 16 := 0x0010
def resourceLogicAnalyzer : BitVec 16 := 0x1000
def resourceCpu : BitVec 16 := 0x2000
def resourceCpuHealth : BitVec 16 := 0x2003

def serviceHealth : BitVec 16 := 0x0006
def serviceInstrumentation : BitVec 16 := 0x1000
def serviceCpuDiagnostics : BitVec 16 := 0x2000
def serviceCpuHealth : BitVec 16 := 0x2001

/-- The provider of a profile and what it appends; `none` is an unknown profile. -/
def profileRecords (profile : String) : Option (BitVec 32 × List AppendedRecord) :=
  if profile = "minimal" then some (3, [])
  else if profile = "cpu-card" then
    some (3, [⟨.resource, resourceCpu, 3, 1⟩, ⟨.resource, resourceCpuHealth, 3, 1⟩,
      ⟨.service, serviceCpuDiagnostics, 3, 1⟩, ⟨.service, serviceCpuHealth, 3, 1⟩])
  else if profile = "supervisor" then
    some (1, [⟨.resource, resourceSupervisor, 1, 1⟩, ⟨.service, serviceHealth, 1, 1⟩])
  else if profile = "instrumentation" then
    some (5, [⟨.resource, resourceLogicAnalyzer, 5, 1⟩, ⟨.service, serviceInstrumentation, 5, 1⟩])
  else none

def buildProfile (profile : String) (image : Memory) (imageCapacity : BitVec 64) :
    Option (Memory × BitVec 64) := do
  let (providerId, records) ← profileRecords profile
  buildImage providerId records image imageCapacity

/-! ## The image built -/

def AppendedKind.recordType : AppendedKind → BitVec 16
  | .resource => DiscoveryRecord.resource
  | .service => DiscoveryRecord.service

/-- The bytes an append stores. -/
def AppendedRecord.encode (record : AppendedRecord) : List (BitVec 8) :=
  typedRecord record.kind.recordType record.typeId record.providerId record.instanceId

theorem AppendedRecord.length_encode (record : AppendedRecord) : record.encode.length = 32 := rfl

def encodeAppended (records : List AppendedRecord) : List (BitVec 8) :=
  records.flatMap AppendedRecord.encode

theorem length_encodeAppended (records : List AppendedRecord) :
    (encodeAppended records).length = 32 * records.length := by
  induction records with
  | nil => rfl
  | cons record rest ih =>
      rw [encodeAppended, List.flatMap_cons, List.length_append, record.length_encode]
      rw [encodeAppended] at ih
      rw [ih, List.length_cons]
      omega

variable {imageCapacity : BitVec 64} {writer : ImageWriter} {records : List AppendedRecord}

theorem appendRecord_eq (imageCapacity : BitVec 64) (writer : ImageWriter)
    (record : AppendedRecord) :
    appendRecord imageCapacity writer record = appendBytes imageCapacity writer record.encode := by
  unfold appendRecord AppendedRecord.encode
  cases record.kind <;> rfl

/-- The writer behind bytes that were stored. -/
def ImageWriter.store (writer : ImageWriter) (src : List (BitVec 8)) : ImageWriter where
  image := writer.image.write writer.offset.toNat src
  offset := writer.offset + BitVec.ofNat 64 src.length

theorem ImageWriter.store_offset {src : List (BitVec 8)}
    (hfits : writer.offset.toNat + src.length ≤ imageCapacity.toNat) :
    (writer.store src).offset.toNat = writer.offset.toNat + src.length := by
  have hcapacity := imageCapacity.isLt
  simp only [store, BitVec.toNat_add, BitVec.toNat_ofNat, Nat.add_mod_mod]
  exact Nat.mod_eq_of_lt (by omega)

theorem ImageWriter.store_store {first second : List (BitVec 8)}
    (hfits : writer.offset.toNat + first.length ≤ imageCapacity.toNat) :
    (writer.store first).store second = writer.store (first ++ second) := by
  have hoffset := store_offset hfits
  unfold store at hoffset ⊢
  rw [hoffset, write_write_append, List.length_append, BitVec.ofNat_add, BitVec.add_assoc]

/-- Bytes that fit behind the offset are stored there. -/
theorem appendBytes_of_fits {src : List (BitVec 8)}
    (hfits : writer.offset.toNat + src.length ≤ imageCapacity.toNat) :
    appendBytes imageCapacity writer src = (false, writer.store src) := by
  have hcapacity := imageCapacity.isLt
  have hroom : ¬ BitVec.ofNat 64 src.length > imageCapacity - writer.offset := by
    rw [gt_iff_lt, BitVec.lt_def, BitVec.toNat_ofNat, Nat.mod_eq_of_lt (by omega),
      BitVec.toNat_sub_of_le (by rw [BitVec.le_def]; omega)]
    omega
  exact if_neg hroom

/-- Records that fit are all appended and counted. -/
theorem appendRecords_of_fits {build : ProfileBuild}
    (hfits : build.writer.offset.toNat + 32 * records.length ≤ imageCapacity.toNat) :
    appendRecords imageCapacity build records =
      { writer := build.writer.store (encodeAppended records)
        recordCount := build.recordCount + BitVec.ofNat 32 records.length
        appendStatus := build.appendStatus } := by
  induction records generalizing build with
  | nil => simp [appendRecords, encodeAppended, ImageWriter.store]
  | cons record rest ih =>
      rw [List.length_cons] at hfits
      have hrecord : build.writer.offset.toNat + record.encode.length ≤ imageCapacity.toNat := by
        rw [record.length_encode]
        omega
      have hstep : build.append (appendRecord imageCapacity · record) =
          { writer := build.writer.store record.encode
            recordCount := build.recordCount + 1
            appendStatus := build.appendStatus } := by
        simp [ProfileBuild.append, appendRecord_eq, appendBytes_of_fits hrecord]
      have hoffset := ImageWriter.store_offset hrecord
      rw [record.length_encode] at hoffset
      rw [appendRecords, List.foldl_cons, hstep]
      change appendRecords imageCapacity _ rest = _
      rw [ih (by rw [hoffset]; omega), ImageWriter.store_store hrecord, BitVec.add_assoc]
      simp only [encodeAppended, List.flatMap_cons, List.length_cons, Nat.add_comm rest.length 1,
        BitVec.ofNat_add]
      rfl

def imageLength (records : List AppendedRecord) : Nat := 32 + (32 * records.length + 8)

theorem length_body (records : List AppendedRecord) :
    (encodeAppended records ++ endRecord).length = 32 * records.length + 8 := by
  rw [List.length_append, length_encodeAppended]
  rfl

/-- All records and the END record, behind the header. -/
theorem appended_of_fits (providerId : BitVec 32) (image : Memory)
    (hfits : imageLength records ≤ imageCapacity.toNat) :
    (appendRecords imageCapacity (startBuild providerId image imageCapacity) records).append
        (appendEnd imageCapacity) =
      { writer :=
          { image := (writeImageHeader (image.zeroRange 0 imageCapacity.toNat) providerId).write 32
              (encodeAppended records ++ endRecord)
            offset := BitVec.ofNat 64 (imageLength records) }
        recordCount := BitVec.ofNat 32 (records.length + 1)
        appendStatus := false } := by
  have hstart : (startBuild providerId image imageCapacity).writer.offset.toNat = 32 := rfl
  unfold imageLength at hfits
  have hrecords : (startBuild providerId image imageCapacity).writer.offset.toNat +
      32 * records.length ≤ imageCapacity.toNat := by
    rw [hstart]
    omega
  have hencoded : (startBuild providerId image imageCapacity).writer.offset.toNat +
      (encodeAppended records).length ≤ imageCapacity.toNat := by
    rwa [length_encodeAppended]
  have hend : ((startBuild providerId image imageCapacity).writer.store
      (encodeAppended records)).offset.toNat + endRecord.length ≤ imageCapacity.toNat := by
    rw [ImageWriter.store_offset hencoded, hstart, length_encodeAppended]
    change 32 + 32 * records.length + 8 ≤ _
    omega
  have hcount : 0 + BitVec.ofNat 32 records.length + 1 = BitVec.ofNat 32 (records.length + 1) := by
    simp [BitVec.ofNat_add]
  rw [appendRecords_of_fits hrecords]
  simp only [ProfileBuild.append, appendEnd, appendBytes_of_fits hend,
    ImageWriter.store_store hencoded, Bool.or_false]
  simp only [ImageWriter.store, length_body, startBuild, imageLength, hcount,
    BitVec.ofNat_add 32 (32 * records.length + 8)]
  rfl

/-- The image before its checksums. -/
def unpatchedImage (providerId : BitVec 32) (records : List AppendedRecord) (image : Memory)
    (imageCapacity : BitVec 64) : Memory :=
  let header := writeImageHeader (image.zeroRange 0 imageCapacity.toNat) providerId
  let body := header.write 32 (encodeAppended records ++ endRecord)
  (body.write 8 (le32 (BitVec.ofNat 32 (imageLength records)))).write 12
    (le32 (BitVec.ofNat 32 (records.length + 1)))

def builtImage (providerId : BitVec 32) (records : List AppendedRecord) (image : Memory)
    (imageCapacity : BitVec 64) : Memory :=
  patchCrc32 (unpatchedImage providerId records image imageCapacity) (imageLength records)

/-- Records that fit the capacity make an image. -/
theorem buildImage_of_fits (providerId : BitVec 32) (image : Memory)
    (hfits : imageLength records ≤ imageCapacity.toNat) :
    buildImage providerId records image imageCapacity =
      some (builtImage providerId records image imageCapacity,
        BitVec.ofNat 64 (imageLength records)) := by
  have hlength : (BitVec.ofNat 64 (imageLength records)).toNat = imageLength records :=
    Nat.mod_eq_of_lt (lt_of_le_of_lt hfits imageCapacity.isLt)
  have htotal : (BitVec.ofNat 64 (imageLength records)).setWidth 32 =
      BitVec.ofNat 32 (imageLength records) := BitVec.setWidth_ofNat_of_le (by decide) _
  simp only [buildImage, appended_of_fits providerId image hfits, hlength, htotal]
  rfl

/-! ## What the image holds -/

section Checksums

variable {image : Memory} {length : Nat}

/-- The patches lie in the two checksum fields. -/
theorem holds_patchCrc32 {first : Nat} {bytes : List (BitVec 8)}
    (houtside : first + bytes.length ≤ 24 ∨ 32 ≤ first) :
    (patchCrc32 image length).Holds first bytes ↔ image.Holds first bytes := by
  simp only [patchCrc32]
  simp (disch := (simp only [length_le32]; omega)) only [holds_write_of_disjoint]

/-- The header checksum covers the header with both fields cleared. -/
theorem patchCrc32_header (image : Memory) (length : Nat) :
    DiscoveryHeader.headerCrc32 (patchCrc32 image length) =
      Atarix.crc32IsoHdlc ((patchCrc32 image length).zeroRange 24 8) discoveryHeaderSizeV1 := by
  have hcleared : (image.write 24 (le32 0)).write 28 (le32 0) = image.zeroRange 24 8 :=
    (write_write_append image 24 (le32 0) (le32 0)).trans (write_replicate_zero image 24 8)
  have hzero : (image.zeroRange 24 8).Holds 24 (List.replicate 8 0) :=
    holds_zeroRange_of_inside le_rfl le_rfl
  have hpatched (first second : BitVec 32) :
      ((((image.zeroRange 24 8).write 24 (le32 first)).write 28 (le32 second)).zeroRange 24 8) =
        image.zeroRange 24 8 := by
    have hjoined := write_write_append (image.zeroRange 24 8) 24 (le32 first) (le32 second)
    rw [length_le32] at hjoined
    rw [hjoined]
    exact (zeroRange_write _ 24 (le32 first ++ le32 second)).trans (zeroRange_eq_self hzero)
  have hfield (memory : Memory) (first second : BitVec 32) :
      ((memory.write 24 (le32 first)).write 28 (le32 second)).load32 24 = first :=
    Holds.load32 ((holds_write_of_disjoint (by simp)).mpr (holds_write_same _ _ _))
  simp only [patchCrc32, hcleared, hpatched, DiscoveryHeader.headerCrc32, hfield]
  rfl

/-- The image checksum covers the image with its own field cleared. -/
theorem patchCrc32_image (image : Memory) (length : Nat) :
    DiscoveryHeader.imageCrc32 (patchCrc32 image length) =
      Atarix.crc32IsoHdlc ((patchCrc32 image length).zeroRange 28 4) length := by
  have hcleared (first second : BitVec 32) (memory : Memory) :
      ((((memory.write 28 (le32 0)).write 24 (le32 first)).write 28 (le32 second)).zeroRange 28 4) =
        (memory.write 28 (le32 0)).write 24 (le32 first) := by
    refine (zeroRange_write _ 28 (le32 second)).trans (zeroRange_eq_self ?_)
    exact (holds_write_of_disjoint (by simp)).mpr (holds_write_same memory 28 (le32 0))
  have hfield (memory : Memory) (second : BitVec 32) :
      (memory.write 28 (le32 second)).load32 28 = second :=
    Holds.load32 (holds_write_same _ _ _)
  simp only [patchCrc32, hcleared, DiscoveryHeader.imageCrc32, hfield]
  rfl

end Checksums

/-- An image of the records: header, body and checksums are in place. -/
structure IsImage (image : Memory) (records : List AppendedRecord) : Prop where
  magic : image.Holds 0 (le32 discoveryMagicAtdx)
  versionMajor : image.Holds 4 (le16 discoveryVersionMajorV1)
  totalLength : image.Holds 8 (le32 (BitVec.ofNat 32 (imageLength records)))
  recordCount : image.Holds 12 (le32 (BitVec.ofNat 32 (records.length + 1)))
  body : image.Holds 32 (encodeAppended records ++ endRecord)
  headerCrc32 : DiscoveryHeader.headerCrc32 image =
    Atarix.crc32IsoHdlc (image.zeroRange 24 8) discoveryHeaderSizeV1
  imageCrc32 : DiscoveryHeader.imageCrc32 image =
    Atarix.crc32IsoHdlc (image.zeroRange 28 4) (imageLength records)

theorem builtImage_isImage (providerId : BitVec 32) (records : List AppendedRecord)
    (image : Memory) (imageCapacity : BitVec 64) :
    IsImage (builtImage providerId records image imageCapacity) records := by
  refine ⟨?_, ?_, ?_, ?_, ?_, patchCrc32_header _ _, patchCrc32_image _ _⟩
  all_goals
    refine (holds_patchCrc32 (by simp)).mpr ?_
    simp only [unpatchedImage, writeImageHeader]
    simp (disch := (simp only [length_le16, length_le32, length_body]; omega)) only
      [holds_write_of_disjoint, holds_write_same]

end MkDiscovery

end Atarix
