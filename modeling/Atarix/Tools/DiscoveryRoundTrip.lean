import Atarix.Tools.MkDiscovery

/-! # From the discovery tool to the parser

The parser run on a built image: which record lists it accepts, and that it hands
back their entries. Handles leave out the kind of a record.
-/

namespace Atarix

namespace MkDiscovery

open Memory

variable {image : Memory} {first : Nat} {records : List AppendedRecord} {record : AppendedRecord}

/-! ## One record -/

namespace AppendedRecord

def handle (record : AppendedRecord) : DiscoveryHandle :=
  discoveryMakeHandle (record.providerId.setWidth 16) record.typeId record.instanceId

/-- The entry a resource is to become. -/
def resourceEntry (record : AppendedRecord) : ResourceEntry where
  handle := record.handle
  resourceType := record.typeId
  resourceVersion := 1
  resourceFlags := 0
  providerId := record.providerId
  instanceId := record.instanceId

/-- The entry a service is to become. -/
def serviceEntry (record : AppendedRecord) : ServiceEntry where
  handle := record.handle
  serviceId := record.typeId
  serviceVersion := 1
  serviceFlags := 0
  providerId := record.providerId
  instanceId := record.instanceId

/-- A record read back where it was stored. -/
structure ReadsBack (record : AppendedRecord) (image : Memory) (offset : Nat) : Prop where
  type : recordType image offset = record.kind.recordType
  length : recordLength image offset = 32
  handle : recordHandle image offset = record.handle
  resource : (loadResource image offset).value = record.resourceEntry
  service : (loadService image offset).value = record.serviceEntry

theorem readsBack (hholds : image.Holds first record.encode) : record.ReadsBack image first := by
  simp only [encode, typedRecord, holds_append, List.length_append, length_le16, length_le32,
    length_le64] at hholds
  obtain ⟨⟨⟨⟨⟨⟨⟨⟨htype, -⟩, hlength⟩, htypeId⟩, hversion⟩, hflags⟩, hhandle⟩, hprovider⟩,
    hinstance⟩ := hholds
  have hentry : ∀ {Entry : Type}
      (entry : BitVec 64 → BitVec 16 → BitVec 16 → BitVec 32 → BitVec 32 → BitVec 32 → Entry),
      entry (image.load64 (first + 16)) (image.load16 (first + 8)) (image.load16 (first + 10))
          (image.load32 (first + 12)) (image.load32 (first + 24)) (image.load32 (first + 28)) =
        entry record.handle record.typeId 1 0 record.providerId record.instanceId := by
    intro Entry entry
    rw [hhandle.load64, htypeId.load16, hversion.load16, hflags.load32, hprovider.load32,
      hinstance.load32]
    rfl
  exact ⟨htype.load16, congrArg BitVec.toNat hlength.load32, hhandle.load64,
    hentry ResourceEntry.mk, hentry ServiceEntry.mk⟩

end AppendedRecord

theorem AppendedKind.recordType_ne_end (kind : AppendedKind) :
    kind.recordType ≠ DiscoveryRecord.endOfRecords := by
  cases kind <;> decide

theorem AppendedKind.carriesHandle (kind : AppendedKind) : CarriesHandle kind.recordType := by
  cases kind <;> decide

/-! ## The records of an image -/

def recordOffsets (first count : Nat) : List Nat := List.range' first count 32

theorem recordOffsets_succ (first count : Nat) :
    recordOffsets first (count + 1) = first :: recordOffsets (first + 32) count :=
  List.range'_succ

/-- Where the END record lies. -/
theorem end_readsBack (hholds : image.Holds first endRecord) :
    recordType image first = DiscoveryRecord.endOfRecords ∧ recordLength image first = 8 := by
  simp only [endRecord, holds_append, List.length_append, length_le16] at hholds
  obtain ⟨⟨htype, -⟩, hlength⟩ := hholds
  exact ⟨htype.load16, congrArg BitVec.toNat hlength.load32⟩

theorem holds_encodeAppended_cons {rest : List AppendedRecord}
    (hbody : image.Holds first (encodeAppended (record :: rest) ++ endRecord)) :
    record.ReadsBack image first ∧
      image.Holds (first + 32) (encodeAppended rest ++ endRecord) := by
  rw [encodeAppended, List.flatMap_cons, List.append_assoc, holds_append] at hbody
  exact ⟨AppendedRecord.readsBack hbody.1, hbody.2⟩

/-- A body that fits is a chain of its records. -/
theorem recordChain_of_body {totalLength : Nat}
    (hbody : image.Holds first (encodeAppended records ++ endRecord)) (haligned : first % 8 = 0)
    (htotal : first + (32 * records.length + 8) ≤ totalLength) :
    RecordChain image totalLength first (recordOffsets first records.length) := by
  induction records generalizing first with
  | nil =>
      obtain ⟨htype, hlength⟩ := end_readsBack hbody
      refine .stop ⟨haligned, ?_, ?_, ?_⟩ htype
      all_goals rw [hlength]
      · exact le_rfl
      · exact htotal
  | cons record rest ih =>
      obtain ⟨hrecord, hrest⟩ := holds_encodeAppended_cons hbody
      rw [List.length_cons] at htotal ⊢
      rw [recordOffsets_succ]
      refine .next ⟨haligned, ?_, ?_, ?_⟩ (hrecord.type ▸ record.kind.recordType_ne_end) ?_
      all_goals rw [hrecord.length]
      · decide
      · omega
      · exact ih hrest (by omega) (by omega)

/-- No chain through a body ends before its END record. -/
theorem body_le_of_recordChain {totalLength : Nat} {chained : List Nat}
    (hbody : image.Holds first (encodeAppended records ++ endRecord))
    (hchain : RecordChain image totalLength first chained) :
    first + (32 * records.length + 8) ≤ totalLength := by
  induction records generalizing first chained with
  | nil =>
      obtain ⟨-, hlength⟩ := end_readsBack hbody
      have hfits : RecordFits image totalLength first := by
        cases hchain <;> assumption
      have hle := hfits.le_total
      rw [hlength] at hle
      exact hle
  | cons record rest ih =>
      obtain ⟨hrecord, hrest⟩ := holds_encodeAppended_cons hbody
      cases hchain with
      | stop fits isEnd => exact absurd (hrecord.type ▸ isEnd) record.kind.recordType_ne_end
      | next fits notEnd chain =>
          rw [hrecord.length] at chain
          have hle := ih hrest chain
          rw [List.length_cons]
          omega

theorem recordHandles_of_body (hbody : image.Holds first (encodeAppended records ++ endRecord)) :
    recordHandles image (recordOffsets first records.length) = records.map (·.handle) := by
  induction records generalizing first with
  | nil => rfl
  | cons record rest ih =>
      obtain ⟨hrecord, hrest⟩ := holds_encodeAppended_cons hbody
      have hcarries : CarriesHandle (recordType image first) :=
        hrecord.type ▸ record.kind.carriesHandle
      rw [List.length_cons, recordOffsets_succ, List.map_cons, ← ih hrest, ← hrecord.handle]
      simp [recordHandles, hcarries]

/-- What the records are to become. -/
def appendedContents (records : List AppendedRecord) : DatabaseContents where
  resources := (records.filter (·.kind = .resource)).map (·.resourceEntry)
  services := (records.filter (·.kind = .service)).map (·.serviceEntry)
  dependencies := []
  instrumentation := []

/-- The parser loads from a body what its records are to become. -/
theorem loadedContents_of_body (hbody : image.Holds first (encodeAppended records ++ endRecord)) :
    loadedContents image (recordOffsets first records.length) = appendedContents records := by
  induction records generalizing first with
  | nil => rfl
  | cons record rest ih =>
      obtain ⟨hrecord, hrest⟩ := holds_encodeAppended_cons hbody
      have hloaded := ih hrest
      simp only [loadedContents, appendedContents, DatabaseContents.mk.injEq] at hloaded ⊢
      obtain ⟨hresources, hservices, hdependencies, hinstrumentation⟩ := hloaded
      simp only [List.length_cons, recordOffsets_succ, entriesOf_cons, hrecord.type,
        hrecord.resource, hrecord.service, hresources, hservices, hdependencies, hinstrumentation]
      cases hkind : record.kind with
      | resource => simp [AppendedKind.recordType, DiscoveryRecord.distinct, hkind]
      | service => simp [AppendedKind.recordType, DiscoveryRecord.distinct, hkind]

/-! ## Handles -/

namespace AppendedRecord

/-- What a handle is made of. -/
def handleParts (record : AppendedRecord) : BitVec 16 × BitVec 16 × BitVec 32 :=
  (record.typeId, record.providerId.setWidth 16, record.instanceId)

theorem handle_eq_iff {left right : AppendedRecord} :
    left.handle = right.handle ↔ left.handleParts = right.handleParts := by
  simp only [handleParts, Prod.mk.injEq]
  constructor
  · intro hsame
    have htype := congrArg discoveryHandleType hsame
    have hprovider := congrArg discoveryHandleProvider16 hsame
    have hinstance := congrArg discoveryHandleInstance hsame
    simp only [handle, handleType_makeHandle, handleProvider16_makeHandle,
      handleInstance_makeHandle] at htype hprovider hinstance
    exact ⟨htype, hprovider, hinstance⟩
  · rintro ⟨htype, hprovider, hinstance⟩
    rw [handle, handle, htype, hprovider, hinstance]

end AppendedRecord

/-- The records differ in kind, id, provider id low 16 bits or instance. -/
def TuplesDiffer (records : List AppendedRecord) : Prop :=
  (records.map fun record => (record.kind, record.handleParts)).Nodup

instance (records : List AppendedRecord) : Decidable (TuplesDiffer records) :=
  inferInstanceAs (Decidable (List.Nodup _))

/-- No resource shares its id, provider id low 16 bits and instance with a service. -/
def KindsApart (records : List AppendedRecord) : Prop :=
  ∀ resource ∈ records, ∀ service ∈ records, resource.kind = .resource → service.kind = .service →
    resource.handleParts ≠ service.handleParts

instance (records : List AppendedRecord) : Decidable (KindsApart records) :=
  inferInstanceAs (Decidable (∀ resource ∈ records, ∀ service ∈ records, _ → _ → _ ≠ _))

theorem handles_nodup_iff (hdiffer : TuplesDiffer records) :
    (records.map (·.handle)).Nodup ↔ KindsApart records := by
  constructor
  · intro hnodup resource hresource service hservice hresourceKind hserviceKind hparts
    have hsame := List.inj_on_of_nodup_map hnodup hresource hservice
      (AppendedRecord.handle_eq_iff.mpr hparts)
    rw [hsame, hserviceKind] at hresourceKind
    cases hresourceKind
  · intro hapart
    rw [TuplesDiffer, List.Nodup, List.pairwise_map] at hdiffer
    rw [List.Nodup, List.pairwise_map]
    refine hdiffer.imp_of_mem fun {left right} hleft hright htuples hhandle => ?_
    have hparts := AppendedRecord.handle_eq_iff.mp hhandle
    cases hleftKind : left.kind <;> cases hrightKind : right.kind
    · exact htuples (by rw [hleftKind, hrightKind, hparts])
    · exact hapart left hleft right hright hleftKind hrightKind hparts
    · exact hapart right hright left hleft hrightKind hleftKind hparts.symm
    · exact htuples (by rw [hleftKind, hrightKind, hparts])

/-! ## The round trip -/

/-- An image whose length fits its header field is accepted with its records. -/
theorem IsImage.validate (hbuilt : IsImage image records) (hlength : imageLength records < 2 ^ 32) :
    discoveryValidate (some image) (imageLength records) = .ok ∧
      RecordChain image (DiscoveryHeader.totalLength image) discoveryHeaderSizeV1
        (recordOffsets 32 records.length) := by
  have htotal : DiscoveryHeader.totalLength image = imageLength records :=
    (congrArg BitVec.toNat hbuilt.totalLength.load32).trans (Nat.mod_eq_of_lt hlength)
  have hcrc : discoveryCrcValid image (imageLength records) = true :=
    (discoveryCrcValid_iff image _).mpr ⟨hbuilt.headerCrc32, fun _ => htotal ▸ hbuilt.imageCrc32⟩
  have hsize : imageLength records = 32 + (32 * records.length + 8) := rfl
  have hchain : RecordChain image (DiscoveryHeader.totalLength image) discoveryHeaderSizeV1
      (recordOffsets 32 records.length) :=
    recordChain_of_body hbuilt.body (by decide) htotal.ge
  have hcount : (recordOffsets 32 records.length).length = records.length := List.length_range'
  refine ⟨discoveryValidate_of_chain hbuilt.magic.load32 hbuilt.versionMajor.load16 ?_ htotal.le ?_
    hcrc hchain ?_, hchain⟩
  · rw [htotal, hsize]
    exact Nat.le_add_right _ _
  · rw [htotal, hsize]
    omega
  · rw [hcount]
    exact .inr hbuilt.recordCount.load32

/-- An accepted image fits its header field. -/
theorem IsImage.length_lt {imageSize : Nat} (hbuilt : IsImage image records)
    (hvalid : discoveryValidate (some image) imageSize = .ok) : imageLength records < 2 ^ 32 := by
  obtain ⟨chained, haccepted⟩ := acceptedImage_of_validate hvalid
  have hle := body_le_of_recordChain hbuilt.body haccepted.chain
  have hlt := (image.load32 8).isLt
  exact lt_of_le_of_lt hle hlt

/-- The parser, given the image built from the records, returns OK and yields
exactly the resources and services among them, in order. -/
def RoundTrips (providerId : BitVec 32) (records : List AppendedRecord) (image : Memory)
    (imageCapacity : BitVec 64) (supply : DatabaseSupply) : Prop :=
  ∃ built length db, buildImage providerId records image imageCapacity = some (built, length) ∧
    (discoveryParse (some built) length.toNat (some supply.database)).value = (.ok, some db) ∧
    db.contents = appendedContents records

/-- Records that differ come back exactly if no resource looks like a service, in
an image whose length fits its header field. -/
theorem roundTrips_iff (providerId : BitVec 32) (image : Memory) (imageCapacity : BitVec 64)
    (supply : DatabaseSupply) (hdiffer : TuplesDiffer records)
    (hfits : imageLength records ≤ imageCapacity.toNat)
    (hroom : supply.Fits (appendedContents records)) :
    RoundTrips providerId records image imageCapacity supply ↔
      KindsApart records ∧ imageLength records < 2 ^ 32 := by
  have hbuild := buildImage_of_fits providerId image hfits
  have hbuilt := builtImage_isImage providerId records image imageCapacity
  have hsize : (BitVec.ofNat 64 (imageLength records)).toNat = imageLength records :=
    Nat.mod_eq_of_lt (lt_of_le_of_lt hfits imageCapacity.isLt)
  constructor
  · rintro ⟨built, length, db, hmade, hparsed, -⟩
    obtain ⟨rfl, rfl⟩ := Prod.mk.inj (Option.some.inj (hbuild.symm.trans hmade))
    rw [hsize] at hparsed
    have hvalid : discoveryValidate
        (some (builtImage providerId records image imageCapacity)) (imageLength records) = .ok := by
      by_contra hrefused
      rw [discoveryParse_of_refused hrefused] at hparsed
      exact hrefused (congrArg Prod.fst hparsed)
    have hlength := hbuilt.length_lt hvalid
    obtain ⟨-, hchain⟩ := hbuilt.validate hlength
    have hok := (parseEmpty_ok_iff supply hvalid hchain).mp (congrArg Prod.fst hparsed)
    rw [recordHandles_of_body hbuilt.body] at hok
    exact ⟨(handles_nodup_iff hdiffer).mp hok.1, hlength⟩
  · rintro ⟨hapart, hlength⟩
    obtain ⟨hvalid, hchain⟩ := hbuilt.validate hlength
    have hhandles := recordHandles_of_body hbuilt.body
    have hloaded := loadedContents_of_body hbuilt.body
    have hok := (parseEmpty_ok_iff supply hvalid hchain).mpr
      ⟨hhandles ▸ (handles_nodup_iff hdiffer).mpr hapart, hloaded ▸ hroom⟩
    obtain ⟨db, hdb, hcontents⟩ := parseEmpty_contents supply hvalid hchain hok
    refine ⟨_, _, db, hbuild, ?_, hcontents.trans hloaded⟩
    rw [hsize]
    exact Prod.ext hok hdb

/-- The supervisor profile round-trips into a database with one entry of each kind. -/
theorem roundTrips_iff_supervisor :
    profileRecords "supervisor" =
        some (1, [⟨.resource, resourceSupervisor, 1, 1⟩, ⟨.service, serviceHealth, 1, 1⟩]) ∧
      RoundTrips 1 [⟨.resource, resourceSupervisor, 1, 1⟩, ⟨.service, serviceHealth, 1, 1⟩]
        (fun _ => 0) 4096 ⟨⟨true, 1⟩, ⟨true, 1⟩, ⟨false, 0⟩, ⟨false, 0⟩⟩ :=
  ⟨by decide, (roundTrips_iff 1 _ 4096 _ (by decide) (by decide)
    ⟨by decide, by decide, by decide, by decide⟩).mpr ⟨by decide, by decide⟩⟩

def instrumentationRecords : List AppendedRecord :=
  [⟨.resource, resourceLogicAnalyzer, 5, 1⟩, ⟨.service, serviceInstrumentation, 5, 1⟩]

def roomForTwo : DatabaseSupply := ⟨⟨true, 2⟩, ⟨true, 2⟩, ⟨true, 2⟩, ⟨true, 2⟩⟩

/-- In the instrumentation profile the logic analyzer and the instrumentation
service have one id, so the parser refuses the second record. -/
theorem instrumentation_profile_refused :
    profileRecords "instrumentation" = some (5, instrumentationRecords) ∧
      TuplesDiffer instrumentationRecords ∧
      ((buildProfile "instrumentation" (fun _ => 0) 4096).map fun built => (built.2,
        (discoveryParse (some built.1) built.2.toNat (some roomForTwo.database)).value.1)) =
          some (104, .duplicateHandle) ∧
      ¬ RoundTrips 5 instrumentationRecords (fun _ => 0) 4096 roomForTwo := by
  have hprofile : profileRecords "instrumentation" = some (5, instrumentationRecords) := by decide
  have hrefused : ((buildProfile "instrumentation" (fun _ => 0) 4096).map fun built => (built.2,
      (discoveryParse (some built.1) built.2.toNat (some roomForTwo.database)).value.1)) =
        some (104, .duplicateHandle) := by decide +kernel
  refine ⟨hprofile, by decide, hrefused, ?_⟩
  rintro ⟨built, length, db, hmade, hparsed, -⟩
  have hbuilt : buildProfile "instrumentation" (fun _ => 0) 4096 = some (built, length) := by
    rw [buildProfile, hprofile]
    exact hmade
  rw [hbuilt, Option.map_some, hparsed] at hrefused
  cases hrefused

end MkDiscovery

end Atarix
