import Atarix.Discovery.Database
import Atarix.Discovery.Validate
import Atarix.Foundation.Traced

/-! # Parsing discovery images

`discovery_iterator.c` and `discovery_parser.c`. Every byte the parser reads
while it walks an accepted image is an event: a read of a record header by the
walk, or a read of a field of a record by the function that stores it.
-/

namespace Atarix

inductive ImageRead where
  /-- The walk reads a record header. -/
  | header (index : Nat)
  /-- A field of `record` is read for its database entry. -/
  | field (record index : Nat)
deriving DecidableEq, Repr

abbrev Parsing := Traced ImageRead

/-! ## Typed fields, at their offset in the record -/

def fieldReads (record offset size : Nat) : List ImageRead :=
  (List.range' (record + offset) size).map (ImageRead.field record)

def field16 (image : Memory) (record offset : Nat) : Parsing (BitVec 16) :=
  ⟨image.load16 (record + offset), fieldReads record offset 2⟩

def field32 (image : Memory) (record offset : Nat) : Parsing (BitVec 32) :=
  ⟨image.load32 (record + offset), fieldReads record offset 4⟩

def field64 (image : Memory) (record offset : Nat) : Parsing (BitVec 64) :=
  ⟨image.load64 (record + offset), fieldReads record offset 8⟩

def loadResource (image : Memory) (record : Nat) : Parsing ResourceEntry := do
  let handle ← field64 image record 16
  let resourceType ← field16 image record 8
  let resourceVersion ← field16 image record 10
  let resourceFlags ← field32 image record 12
  let providerId ← field32 image record 24
  let instanceId ← field32 image record 28
  return { handle, resourceType, resourceVersion, resourceFlags, providerId, instanceId }

def loadService (image : Memory) (record : Nat) : Parsing ServiceEntry := do
  let handle ← field64 image record 16
  let serviceId ← field16 image record 8
  let serviceVersion ← field16 image record 10
  let serviceFlags ← field32 image record 12
  let providerId ← field32 image record 24
  let instanceId ← field32 image record 28
  return { handle, serviceId, serviceVersion, serviceFlags, providerId, instanceId }

def loadDependency (image : Memory) (record : Nat) : Parsing DependencyEntry := do
  let consumerHandle ← field64 image record 8
  let providerHandle ← field64 image record 16
  let dependencyType ← field16 image record 24
  let dependencyVersion ← field16 image record 26
  let dependencyFlags ← field32 image record 28
  return { consumerHandle, providerHandle, dependencyType, dependencyVersion, dependencyFlags }

def loadInstrumentation (image : Memory) (record : Nat) : Parsing InstrumentationEntry := do
  let handle ← field64 image record 16
  let observedHandle ← field64 image record 24
  let instrumentationType ← field16 image record 8
  let instrumentationVersion ← field16 image record 10
  let instrumentationFlags ← field32 image record 12
  return { handle, observedHandle, instrumentationType, instrumentationVersion,
           instrumentationFlags }

/-! ## Storing records -/

/-- Store an entry in one array of the database, if it has room. -/
def storeEntry {Entry : Type} (db : DiscoveryDatabase) (array : EntryArray Entry)
    (load : Parsing Entry) (store : EntryArray Entry → DiscoveryDatabase) :
    Parsing (DiscoveryResult × DiscoveryDatabase) :=
  if array.HasRoom then do
    let entry ← load
    return (.ok, store (array.append entry))
  else return (.capacity, db)

/-- Store an entry whose handle, at offset 16 of the record, must be new. -/
def storeUnique {Entry : Type} (image : Memory) (record : Nat) (db : DiscoveryDatabase)
    (array : EntryArray Entry) (load : Parsing Entry)
    (store : EntryArray Entry → DiscoveryDatabase) :
    Parsing (DiscoveryResult × DiscoveryDatabase) := do
  let handle ← field64 image record 16
  if discoveryDatabaseContainsHandle db handle then return (.duplicateHandle, db)
  else storeEntry db array load store

def addResource (image : Memory) (record : Nat) (db : DiscoveryDatabase) :
    Parsing (DiscoveryResult × DiscoveryDatabase) :=
  storeUnique image record db db.resources (loadResource image record)
    fun resources => { db with resources }

def addService (image : Memory) (record : Nat) (db : DiscoveryDatabase) :
    Parsing (DiscoveryResult × DiscoveryDatabase) :=
  storeUnique image record db db.services (loadService image record)
    fun services => { db with services }

def addDependency (image : Memory) (record : Nat) (db : DiscoveryDatabase) :
    Parsing (DiscoveryResult × DiscoveryDatabase) :=
  storeEntry db db.dependencies (loadDependency image record)
    fun dependencies => { db with dependencies }

def addInstrumentation (image : Memory) (record : Nat) (db : DiscoveryDatabase) :
    Parsing (DiscoveryResult × DiscoveryDatabase) :=
  storeUnique image record db db.instrumentation (loadInstrumentation image record)
    fun instrumentation => { db with instrumentation }

/-- The `switch` on the record type. -/
def addRecord (image : Memory) (record : Nat) (db : DiscoveryDatabase) :
    Parsing (DiscoveryResult × DiscoveryDatabase) :=
  if recordType image record = DiscoveryRecord.resource then addResource image record db
  else if recordType image record = DiscoveryRecord.service then addService image record db
  else if recordType image record = DiscoveryRecord.dependency then addDependency image record db
  else if recordType image record = DiscoveryRecord.instrumentation then
    addInstrumentation image record db
  else return (.ok, db)

/-! ## The walk -/

/-- `atarix_discovery_first_record`, for a header that is not NULL. -/
def discoveryFirstRecord (imageSize : Nat) : Option Nat :=
  if imageSize < discoveryHeaderSizeV1 then none else some discoveryHeaderSizeV1

/-- `atarix_discovery_next_record`, for a header and a record that are not NULL. -/
def discoveryNextRecord (image : Memory) (imageSize record : Nat) : Option Nat :=
  if recordLength image record < discoveryRecordHeaderSizeV1 then none
  else
    let next := record + recordLength image record
    if next ≥ imageSize then none
    else if next % 8 ≠ 0 then none
    else some next

theorem discoveryNextRecord_lt {image : Memory} {imageSize record next : Nat}
    (hnext : discoveryNextRecord image imageSize record = some next) :
    record < next ∧ next < imageSize := by
  simp only [discoveryNextRecord, discoveryRecordHeaderSizeV1, ge_iff_le] at hnext
  split_ifs at hnext
  simp only [Option.some.injEq] at hnext
  omega

def typeReads (record : Nat) : List ImageRead := (List.range' record 2).map ImageRead.header

def readRecordType (image : Memory) (record : Nat) : Parsing (BitVec 16) :=
  ⟨recordType image record, typeReads record⟩

/-- The bytes `atarix_discovery_next_record` reads. -/
def lengthReads (record : Nat) : List ImageRead :=
  (List.range' (record + 4) 4).map ImageRead.header

/-- One iteration of `while (record)`: the database it leaves and either the
result it returns or the record to go on with. -/
def discoveryParseStep (image : Memory) (imageSize record : Nat) (db : DiscoveryDatabase) :
    Parsing (DiscoveryDatabase × (DiscoveryResult ⊕ Nat)) := do
  let type ← readRecordType image record
  if type = DiscoveryRecord.endOfRecords then return (db, .inl .ok)
  else
    let (result, db) ← addRecord image record db
    if result ≠ .ok then return (db, .inl result)
    else
      Traced.emit (lengthReads record)
      match discoveryNextRecord image imageSize record with
      | none => return (db, .inl .missingEnd)
      | some next => return (db, .inr next)

theorem discoveryParseStep_lt {image : Memory} {imageSize record next : Nat}
    {db stored : DiscoveryDatabase}
    (hstep : (discoveryParseStep image imageSize record db).value = (stored, .inr next)) :
    record < next ∧ next < imageSize := by
  simp only [discoveryParseStep, Traced.value_bind, Traced.value_ite, Traced.value_pure] at hstep
  split_ifs at hstep
  · simp at hstep
  · simp at hstep
  · cases hnext : discoveryNextRecord image imageSize record with
    | none => simp [hnext] at hstep
    | some found =>
        simp only [hnext, Traced.value_pure, Prod.mk.injEq, Sum.inr.injEq] at hstep
        exact discoveryNextRecord_lt (hstep.2 ▸ hnext)

/-- The `while (record)` loop, from a record on. -/
def discoveryParseRecords (image : Memory) (imageSize record : Nat) (db : DiscoveryDatabase) :
    Parsing (DiscoveryResult × DiscoveryDatabase) :=
  let step := discoveryParseStep image imageSize record db
  match _hstep : step.value with
  | (db, .inl result) => ⟨(result, db), step.trace⟩
  | (db, .inr next) =>
    let rest := discoveryParseRecords image imageSize next db
    ⟨rest.value, step.trace ++ rest.trace⟩
termination_by imageSize - record
decreasing_by
  have := discoveryParseStep_lt _hstep
  omega

section Iterations

variable {image : Memory} {imageSize record : Nat} {db : DiscoveryDatabase}

theorem parseRecords_end (hend : recordType image record = DiscoveryRecord.endOfRecords) :
    discoveryParseRecords image imageSize record db = ⟨(.ok, db), typeReads record⟩ := by
  have hstep : discoveryParseStep image imageSize record db =
      ⟨(db, .inl .ok), typeReads record⟩ := by
    apply Traced.ext <;> simp [discoveryParseStep, readRecordType, hend]
  rw [discoveryParseRecords, hstep]

theorem parseRecords_refused (hend : recordType image record ≠ DiscoveryRecord.endOfRecords)
    (hrefused : (addRecord image record db).value.1 ≠ .ok) :
    discoveryParseRecords image imageSize record db =
      ⟨(addRecord image record db).value,
        typeReads record ++ (addRecord image record db).trace⟩ := by
  have hstep : discoveryParseStep image imageSize record db =
      ⟨((addRecord image record db).value.2, .inl (addRecord image record db).value.1),
        typeReads record ++ (addRecord image record db).trace⟩ := by
    apply Traced.ext <;> simp [discoveryParseStep, readRecordType, hend, hrefused]
  rw [discoveryParseRecords, hstep]

theorem parseRecords_next (hend : recordType image record ≠ DiscoveryRecord.endOfRecords)
    (hstored : (addRecord image record db).value.1 = .ok) {next : Nat}
    (hnext : discoveryNextRecord image imageSize record = some next) :
    let stored := (addRecord image record db).value.2
    let rest := discoveryParseRecords image imageSize next stored
    discoveryParseRecords image imageSize record db =
      ⟨rest.value, typeReads record ++ (addRecord image record db).trace ++ lengthReads record ++
        rest.trace⟩ := by
  have hstep : discoveryParseStep image imageSize record db =
      ⟨((addRecord image record db).value.2, .inr next),
        typeReads record ++ (addRecord image record db).trace ++ lengthReads record⟩ := by
    apply Traced.ext <;> simp [discoveryParseStep, readRecordType, hend, hstored, hnext]
  rw [discoveryParseRecords, hstep]

end Iterations

/-- Returns the result and the database the caller sees afterwards. -/
def discoveryParse (image : Option Memory) (imageSize : Nat) (db : Option DiscoveryDatabase) :
    Parsing (DiscoveryResult × Option DiscoveryDatabase) :=
  match db with
  | none => return (.null, none)
  | some db =>
    let result := discoveryValidate image imageSize
    if result ≠ .ok then return (result, some db)
    else
      match image, discoveryFirstRecord imageSize with
      | some image, some record => do
        let (result, db) ← discoveryParseRecords image imageSize record db
        return (result, some db)
      | _, _ => return (.missingEnd, some db)

theorem discoveryParse_of_refused {image : Option Memory} {imageSize : Nat}
    (hrefused : discoveryValidate image imageSize ≠ .ok) (db : DiscoveryDatabase) :
    discoveryParse image imageSize (some db) =
      pure (discoveryValidate image imageSize, some db) := by
  simp only [discoveryParse, if_pos hrefused]

theorem discoveryParse_of_valid {image : Memory} {imageSize : Nat}
    (hvalid : discoveryValidate (some image) imageSize = .ok) (db : DiscoveryDatabase) :
    discoveryParse (some image) imageSize (some db) =
      (fun outcome => (outcome.1, some outcome.2)) <$>
        discoveryParseRecords image imageSize discoveryHeaderSizeV1 db := by
  obtain ⟨_, haccepted⟩ := acceptedImage_of_validate hvalid
  have hfirst : discoveryFirstRecord imageSize = some discoveryHeaderSizeV1 :=
    if_neg (Nat.not_lt.mpr haccepted.header_le)
  simp only [discoveryParse, hvalid, hfirst]
  rfl

end Atarix
