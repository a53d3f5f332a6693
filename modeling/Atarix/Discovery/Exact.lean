import Atarix.Discovery.Contents
import Atarix.Foundation.Registry

/-! # A parse stores what the image describes

Into an empty database, an accepted image whose typed records hold their fields
parses exactly if no handle is repeated and each kind fits its array. The arrays
then hold the fields of the records of their kind, in the order of the image.
-/

namespace Atarix

/-! ## What a record describes -/

/-- A record by itself: the bytes it declares, and none of those behind it. -/
def recordAlone (image : Memory) (record : Nat) : Memory :=
  Memory.ofList (image.slice record (recordLength image record))

/-- The fields of a RESOURCE record. -/
def ResourceEntry.ofRecord (record : Memory) : ResourceEntry where
  handle := record.load64 16
  resourceType := record.load16 8
  resourceVersion := record.load16 10
  resourceFlags := record.load32 12
  providerId := record.load32 24
  instanceId := record.load32 28

/-- The fields of a SERVICE record. -/
def ServiceEntry.ofRecord (record : Memory) : ServiceEntry where
  handle := record.load64 16
  serviceId := record.load16 8
  serviceVersion := record.load16 10
  serviceFlags := record.load32 12
  providerId := record.load32 24
  instanceId := record.load32 28

/-- The fields of a DEPENDENCY record. -/
def DependencyEntry.ofRecord (record : Memory) : DependencyEntry where
  consumerHandle := record.load64 8
  providerHandle := record.load64 16
  dependencyType := record.load16 24
  dependencyVersion := record.load16 26
  dependencyFlags := record.load32 28

/-- The fields of an INSTRUMENTATION record. -/
def InstrumentationEntry.ofRecord (record : Memory) : InstrumentationEntry where
  handle := record.load64 16
  observedHandle := record.load64 24
  instrumentationType := record.load16 8
  instrumentationVersion := record.load16 10
  instrumentationFlags := record.load32 12

/-- What the records of one type describe, in the order of the image. -/
def describedBy {Entry : Type} (image : Memory) (ofRecord : Memory → Entry) (type : BitVec 16)
    (records : List Nat) : List Entry :=
  (records.filter (recordType image · = type)).map fun record => ofRecord (recordAlone image record)

def describedContents (image : Memory) (records : List Nat) : DatabaseContents where
  resources := describedBy image .ofRecord DiscoveryRecord.resource records
  services := describedBy image .ofRecord DiscoveryRecord.service records
  dependencies := describedBy image .ofRecord DiscoveryRecord.dependency records
  instrumentation := describedBy image .ofRecord DiscoveryRecord.instrumentation records

/-- The records the parser stores hold the fields it loads. -/
def WideRecords (image : Memory) (records : List Nat) : Prop :=
  ∀ record ∈ records, CarriesHandle (recordType image record) ∨
    recordType image record = DiscoveryRecord.dependency → 32 ≤ recordLength image record

variable {image : Memory} {imageSize record : Nat} {records : List Nat}

section Fields

variable {index : Nat}

theorem holds_record (image : Memory) (record : Nat) :
    image.Holds record (image.slice record (recordLength image record)) := by
  simp [Memory.Holds]

theorem load16_record (hinside : index + 2 ≤ recordLength image record) :
    image.load16 (record + index) = (recordAlone image record).load16 index :=
  (holds_record image record).load16_inside (by simpa using hinside)

theorem load32_record (hinside : index + 4 ≤ recordLength image record) :
    image.load32 (record + index) = (recordAlone image record).load32 index :=
  (holds_record image record).load32_inside (by simpa using hinside)

theorem load64_record (hinside : index + 8 ≤ recordLength image record) :
    image.load64 (record + index) = (recordAlone image record).load64 index :=
  (holds_record image record).load64_inside (by simpa using hinside)

end Fields

/-- The layout that RESOURCE and SERVICE records share. -/
theorem provided_record {Entry : Type}
    (entry : BitVec 64 → BitVec 16 → BitVec 16 → BitVec 32 → BitVec 32 → BitVec 32 → Entry)
    (hwide : 32 ≤ recordLength image record) :
    entry (image.load64 (record + 16)) (image.load16 (record + 8)) (image.load16 (record + 10))
        (image.load32 (record + 12)) (image.load32 (record + 24)) (image.load32 (record + 28)) =
      entry ((recordAlone image record).load64 16) ((recordAlone image record).load16 8)
        ((recordAlone image record).load16 10) ((recordAlone image record).load32 12)
        ((recordAlone image record).load32 24) ((recordAlone image record).load32 28) := by
  rw [load64_record (by omega), load16_record (by omega), load16_record (by omega),
    load32_record (by omega), load32_record (by omega), load32_record (by omega)]

theorem loadResource_value (hwide : 32 ≤ recordLength image record) :
    (loadResource image record).value = .ofRecord (recordAlone image record) :=
  provided_record ResourceEntry.mk hwide

theorem loadService_value (hwide : 32 ≤ recordLength image record) :
    (loadService image record).value = .ofRecord (recordAlone image record) :=
  provided_record ServiceEntry.mk hwide

theorem loadDependency_value (hwide : 32 ≤ recordLength image record) :
    (loadDependency image record).value = .ofRecord (recordAlone image record) := by
  change DependencyEntry.mk (image.load64 (record + 8)) (image.load64 (record + 16))
    (image.load16 (record + 24)) (image.load16 (record + 26)) (image.load32 (record + 28)) = _
  rw [load64_record (by omega), load64_record (by omega), load16_record (by omega),
    load16_record (by omega), load32_record (by omega)]
  rfl

theorem loadInstrumentation_value (hwide : 32 ≤ recordLength image record) :
    (loadInstrumentation image record).value = .ofRecord (recordAlone image record) := by
  change InstrumentationEntry.mk (image.load64 (record + 16)) (image.load64 (record + 24))
    (image.load16 (record + 8)) (image.load16 (record + 10)) (image.load32 (record + 12)) = _
  rw [load64_record (by omega), load64_record (by omega), load16_record (by omega),
    load16_record (by omega), load32_record (by omega)]
  rfl

/-- Loading the records of a type that are wide gives what they describe. -/
theorem entriesOf_eq_describedBy {Entry : Type} {load : Memory → Nat → Parsing Entry}
    {ofRecord : Memory → Entry} {type : BitVec 16}
    (hload : ∀ record, 32 ≤ recordLength image record →
      (load image record).value = ofRecord (recordAlone image record))
    (hwide : ∀ record ∈ records, recordType image record = type → 32 ≤ recordLength image record) :
    entriesOf image load type records = describedBy image ofRecord type records := by
  apply List.map_congr_left
  intro record hrecord
  rw [List.mem_filter, decide_eq_true_eq] at hrecord
  exact hload record (hwide record hrecord.1 hrecord.2)

theorem loadedContents_eq (hwide : WideRecords image records) :
    loadedContents image records = describedContents image records := by
  have hresources := entriesOf_eq_describedBy (fun _ => loadResource_value)
    fun record hrecord htype => hwide record hrecord (Or.inl (Or.inl htype))
  have hservices := entriesOf_eq_describedBy (fun _ => loadService_value)
    fun record hrecord htype => hwide record hrecord (Or.inl (Or.inr (Or.inl htype)))
  have hdependencies := entriesOf_eq_describedBy (fun _ => loadDependency_value)
    fun record hrecord htype => hwide record hrecord (Or.inr htype)
  have hinstrumentation := entriesOf_eq_describedBy (fun _ => loadInstrumentation_value)
    fun record hrecord htype => hwide record hrecord (Or.inl (Or.inr (Or.inr htype)))
  rw [loadedContents, hresources, hservices, hdependencies, hinstrumentation, describedContents]

/-! ## An empty database -/

/-- How many entries a caller makes room for; a NULL array takes none. -/
def ArraySupply.room (supply : ArraySupply) : Nat := if supply.present then supply.capacity else 0

theorem ArraySupply.takes_iff {Entry : Type} (supply : ArraySupply) (count : Nat) :
    (supply.entryArray : EntryArray Entry).Takes count ↔ count ≤ supply.room := by
  unfold EntryArray.Takes EntryArray.Holds entryArray room
  cases supply.present with
  | false => simp
  | true =>
      simp only [if_true, Option.some.injEq, exists_eq_left', List.length_nil, Nat.zero_add]
      exact or_iff_right_of_imp fun hzero => hzero ▸ Nat.zero_le _

/-- Each kind of entry fits its array. -/
structure DatabaseSupply.Fits (supply : DatabaseSupply) (contents : DatabaseContents) : Prop where
  resources : contents.resources.length ≤ supply.resources.room
  services : contents.services.length ≤ supply.services.room
  dependencies : contents.dependencies.length ≤ supply.dependencies.room
  instrumentation : contents.instrumentation.length ≤ supply.instrumentation.room

variable {supply : DatabaseSupply} {described : DatabaseContents}

theorem DatabaseSupply.takesContents_iff :
    supply.database.TakesContents described ↔ supply.Fits described := by
  constructor
  · intro htakes
    exact ⟨(supply.resources.takes_iff _).mp htakes.resources,
      (supply.services.takes_iff _).mp htakes.services,
      (supply.dependencies.takes_iff _).mp htakes.dependencies,
      (supply.instrumentation.takes_iff _).mp htakes.instrumentation⟩
  · intro hfits
    exact ⟨(supply.resources.takes_iff _).mpr hfits.resources,
      (supply.services.takes_iff _).mpr hfits.services,
      (supply.dependencies.takes_iff _).mpr hfits.dependencies,
      (supply.instrumentation.takes_iff _).mpr hfits.instrumentation⟩

theorem DatabaseSupply.handles_eq_nil (supply : DatabaseSupply) : supply.database.handles = [] := by
  simp [DiscoveryDatabase.handles, DatabaseSupply.database, ArraySupply.visible_eq_nil]

/-- The entries a caller sees in the database. -/
def DiscoveryDatabase.contents (db : DiscoveryDatabase) : DatabaseContents where
  resources := db.resources.visible
  services := db.services.visible
  dependencies := db.dependencies.visible
  instrumentation := db.instrumentation.visible

theorem EntryArray.visible_appendAll {Entry : Type} {array : EntryArray Entry}
    {added : List Entry} (htakes : array.Takes added.length) :
    (array.appendAll added).visible = array.visible ++ added := by
  rcases htakes with hnone | ⟨entries, hentries, -⟩
  · rw [List.eq_nil_of_length_eq_zero hnone, appendAll_nil, List.append_nil]
  · simp [visible, appendAll, hentries]

/-- An empty database that takes the contents holds them. -/
theorem contents_appendContents (hfits : supply.Fits described) :
    (supply.database.appendContents described).contents = described := by
  have htakes := DatabaseSupply.takesContents_iff.mpr hfits
  simp only [DiscoveryDatabase.contents, DiscoveryDatabase.appendContents,
    EntryArray.visible_appendAll htakes.resources, EntryArray.visible_appendAll htakes.services,
    EntryArray.visible_appendAll htakes.dependencies,
    EntryArray.visible_appendAll htakes.instrumentation]
  simp [DatabaseSupply.database, ArraySupply.visible_eq_nil]

/-! ## Looking up a handle -/

theorem discoveryFindResource_eq (db : DiscoveryDatabase) (handle : DiscoveryHandle) :
    discoveryFindResource (some db) handle = db.contents.resources.find? (·.handle = handle) := by
  cases hentries : db.resources.entries with
  | none => simp [discoveryFindResource, DiscoveryDatabase.contents, EntryArray.visible, hentries]
  | some entries =>
      simp [discoveryFindResource, DiscoveryDatabase.contents, EntryArray.visible, hentries]

theorem discoveryFindService_eq (db : DiscoveryDatabase) (handle : DiscoveryHandle) :
    discoveryFindService (some db) handle = db.contents.services.find? (·.handle = handle) := by
  cases hentries : db.services.entries with
  | none => simp [discoveryFindService, DiscoveryDatabase.contents, EntryArray.visible, hentries]
  | some entries =>
      simp [discoveryFindService, DiscoveryDatabase.contents, EntryArray.visible, hentries]

/-- Among records whose handles differ, the one with a handle is found by it. -/
theorem find?_describedBy {Entry : Type} {ofRecord : Memory → Entry} {key : Entry → DiscoveryHandle}
    {type : BitVec 16} (hdistinct : (recordHandles image records).Nodup)
    (hcarries : CarriesHandle type)
    (hkey : ∀ record ∈ records, recordType image record = type →
      key (ofRecord (recordAlone image record)) = recordHandle image record)
    (handle : DiscoveryHandle) (entry : Entry) :
    (describedBy image ofRecord type records).find? (key · = handle) = some entry ↔
      ∃ record ∈ records, recordType image record = type ∧ recordHandle image record = handle ∧
        ofRecord (recordAlone image record) = entry := by
  have hkeys : (describedBy image ofRecord type records).map key =
      (records.filter (recordType image · = type)).map (recordHandle image) := by
    rw [describedBy, List.map_map]
    apply List.map_congr_left
    intro record hrecord
    rw [List.mem_filter, decide_eq_true_eq] at hrecord
    exact hkey record hrecord.1 hrecord.2
  have hsublist : List.Sublist (records.filter (recordType image · = type))
      (records.filter fun record => CarriesHandle (recordType image record)) := by
    apply List.monotone_filter_right
    intro record htype
    exact decide_eq_true (of_decide_eq_true htype ▸ hcarries)
  rw [List.find?_key_iff (hkeys ▸ hdistinct.sublist (hsublist.map _)), describedBy, List.mem_map]
  constructor
  · rintro ⟨⟨record, hrecord, rfl⟩, rfl⟩
    rw [List.mem_filter, decide_eq_true_eq] at hrecord
    exact ⟨record, hrecord.1, hrecord.2, (hkey record hrecord.1 hrecord.2).symm, rfl⟩
  · rintro ⟨record, hmem, htype, rfl, rfl⟩
    exact ⟨⟨record, List.mem_filter.mpr ⟨hmem, decide_eq_true htype⟩, rfl⟩, hkey record hmem htype⟩

/-! ## The parse -/

/-- The database holds what the records describe, and finds it by handle. -/
structure StoresExactly (image : Memory) (records : List Nat) (db : Option DiscoveryDatabase) :
    Prop where
  contents : db.map DiscoveryDatabase.contents = some (describedContents image records)
  findResource : ∀ handle entry, discoveryFindResource db handle = some entry ↔
    ∃ record ∈ records, recordType image record = DiscoveryRecord.resource ∧
      recordHandle image record = handle ∧ .ofRecord (recordAlone image record) = entry
  findService : ∀ handle entry, discoveryFindService db handle = some entry ↔
    ∃ record ∈ records, recordType image record = DiscoveryRecord.service ∧
      recordHandle image record = handle ∧ .ofRecord (recordAlone image record) = entry

theorem storesExactly_of_contents {db : DiscoveryDatabase}
    (hcontents : db.contents = describedContents image records) (hwide : WideRecords image records)
    (hdistinct : (recordHandles image records).Nodup) : StoresExactly image records (some db) where
  contents := congrArg some hcontents
  findResource handle entry := by
    rw [discoveryFindResource_eq, hcontents]
    refine find?_describedBy hdistinct (Or.inl rfl) (fun record hrecord htype => ?_) handle entry
    have hlength := hwide record hrecord (Or.inl (Or.inl htype))
    exact (load64_record (by omega)).symm
  findService handle entry := by
    rw [discoveryFindService_eq, hcontents]
    refine find?_describedBy hdistinct (Or.inr (Or.inl rfl)) (fun record hrecord htype => ?_) handle
      entry
    have hlength := hwide record hrecord (Or.inl (Or.inr (Or.inl htype)))
    exact (load64_record (by omega)).symm

/-- Into an empty database a parse ends well if no handle is repeated and what the
parser loads fits. -/
theorem parseEmpty_ok_iff (supply : DatabaseSupply)
    (hvalid : discoveryValidate (some image) imageSize = .ok)
    (hchain : RecordChain image (DiscoveryHeader.totalLength image) discoveryHeaderSizeV1 records) :
    (discoveryParse (some image) imageSize (some supply.database)).value.1 = .ok ↔
      (recordHandles image records).Nodup ∧ supply.Fits (loadedContents image records) := by
  obtain ⟨_, haccepted⟩ := acceptedImage_of_validate hvalid
  have hstart : supply.database.handles.Nodup := by
    rw [supply.handles_eq_nil]
    exact List.nodup_nil
  have hadmits : (recordAdmission image).AdmitsAll supply.database records ↔ _ :=
    admitsAll_iff hstart
  rw [supply.handles_eq_nil, List.nil_append, DatabaseSupply.takesContents_iff] at hadmits
  rw [discoveryParse_of_valid hvalid]
  exact (parseRecords_ok_iff haccepted.total_le hchain).trans hadmits

/-- It then holds what the parser loads. -/
theorem parseEmpty_contents (supply : DatabaseSupply)
    (hvalid : discoveryValidate (some image) imageSize = .ok)
    (hchain : RecordChain image (DiscoveryHeader.totalLength image) discoveryHeaderSizeV1 records)
    (hok : (discoveryParse (some image) imageSize (some supply.database)).value.1 = .ok) :
    ∃ db, (discoveryParse (some image) imageSize (some supply.database)).value.2 = some db ∧
      db.contents = loadedContents image records := by
  obtain ⟨_, haccepted⟩ := acceptedImage_of_validate hvalid
  have hfits := ((parseEmpty_ok_iff supply hvalid hchain).mp hok).2
  rw [discoveryParse_of_valid hvalid] at hok ⊢
  have hadmits := (parseRecords_ok_iff haccepted.total_le hchain).mp hok
  have hstored := parseRecords_of_admitsAll haccepted.total_le hchain hadmits
  rw [insertAll_eq] at hstored
  refine ⟨_, ?_, contents_appendContents hfits⟩
  exact congrArg (fun outcome : DiscoveryResult × DiscoveryDatabase => some outcome.2) hstored

/-- Parsing an accepted image whose typed records hold their fields, into an empty
database: which images parse, and what they leave. -/
theorem discoveryParse_exact (supply : DatabaseSupply)
    (hvalid : discoveryValidate (some image) imageSize = .ok)
    (hchain : RecordChain image (DiscoveryHeader.totalLength image) discoveryHeaderSizeV1 records)
    (hwide : WideRecords image records) :
    let outcome := (discoveryParse (some image) imageSize (some supply.database)).value
    (outcome.1 = .ok ↔
        (recordHandles image records).Nodup ∧ supply.Fits (describedContents image records)) ∧
      (outcome.1 = .ok → StoresExactly image records outcome.2) := by
  have hok := parseEmpty_ok_iff supply hvalid hchain
  refine ⟨loadedContents_eq hwide ▸ hok, fun hparsed => ?_⟩
  obtain ⟨db, hdb, hcontents⟩ := parseEmpty_contents supply hvalid hchain hparsed
  rw [hdb]
  exact storesExactly_of_contents (hcontents.trans (loadedContents_eq hwide)) hwide
    (hok.mp hparsed).1

/-- A RESOURCE record, a PROVIDER record of 16 bytes and a SERVICE record. -/
def mixedImage : Memory := Memory.ofList [
  0x41, 0x54, 0x44, 0x58, 0x01, 0x00, 0x00, 0x00, 0x78, 0x00, 0x00, 0x00, 0x04, 0x00, 0x00, 0x00,
  0x03, 0x00, 0x00, 0x00, 0x00, 0x00, 0x00, 0x00, 0xD6, 0x14, 0x57, 0xE3, 0xB1, 0x40, 0x88, 0x5B,
  0x01, 0x00, 0x01, 0x00, 0x20, 0x00, 0x00, 0x00, 0x00, 0x20, 0x01, 0x00, 0x00, 0x00, 0x00, 0x00,
  0x01, 0x00, 0x00, 0x00, 0x00, 0x20, 0x03, 0x00, 0x03, 0x00, 0x00, 0x00, 0x01, 0x00, 0x00, 0x00,
  0x03, 0x00, 0x01, 0x00, 0x10, 0x00, 0x00, 0x00, 0x00, 0x00, 0x00, 0x00, 0x00, 0x00, 0x00, 0x00,
  0x02, 0x00, 0x01, 0x00, 0x20, 0x00, 0x00, 0x00, 0x01, 0x20, 0x01, 0x00, 0x00, 0x00, 0x00, 0x00,
  0x01, 0x00, 0x00, 0x00, 0x01, 0x20, 0x03, 0x00, 0x03, 0x00, 0x00, 0x00, 0x01, 0x00, 0x00, 0x00,
  0xFF, 0xFF, 0x01, 0x00, 0x08, 0x00, 0x00, 0x00]

theorem mixedImage_chain :
    RecordChain mixedImage (DiscoveryHeader.totalLength mixedImage) discoveryHeaderSizeV1
      [32, 64, 80] := by
  have hfits : ∀ record ∈ [32, 64, 80, 112],
      RecordFits mixedImage (DiscoveryHeader.totalLength mixedImage) record := by
    have hfields : ∀ record ∈ [32, 64, 80, 112], record % 8 = 0 ∧
        discoveryRecordHeaderSizeV1 ≤ recordLength mixedImage record ∧
        recordLength mixedImage record % 8 = 0 ∧
        record + recordLength mixedImage record ≤ DiscoveryHeader.totalLength mixedImage := by
      decide +kernel
    exact fun record hrecord =>
      ⟨(hfields record hrecord).1, (hfields record hrecord).2.1, (hfields record hrecord).2.2.1,
        (hfields record hrecord).2.2.2⟩
  exact .next (hfits 32 (by decide)) (by decide +kernel)
    (.next (hfits 64 (by decide)) (by decide +kernel)
      (.next (hfits 80 (by decide)) (by decide +kernel)
        (.stop (hfits 112 (by decide)) (by decide +kernel))))

/-- With room for one resource and one service the image is stored exactly. -/
theorem discoveryParse_exact_mixed :
    StoresExactly mixedImage [32, 64, 80]
      (discoveryParse (some mixedImage) 120
        (some (DatabaseSupply.database ⟨⟨true, 1⟩, ⟨true, 1⟩, ⟨false, 0⟩, ⟨false, 0⟩⟩))).value.2 :=
  (discoveryParse_exact _ (by decide +kernel) mixedImage_chain
    (by unfold WideRecords; decide +kernel)).2 (by decide +kernel)

end Atarix
