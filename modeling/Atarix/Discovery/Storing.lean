import Atarix.Discovery.Parser
import Atarix.Foundation.Admission

/-! # Storing one record

The database admits a record if its handle is new and its array has room. It then
holds one more entry; otherwise it is as it was.
-/

namespace Atarix

variable {image : Memory} {record : Nat} {db : DiscoveryDatabase}

/-! ## Records by type -/

def recordHandle (image : Memory) (record : Nat) : DiscoveryHandle := image.load64 (record + 16)

/-- The types whose records carry a handle of their own. -/
def CarriesHandle (type : BitVec 16) : Prop :=
  type = DiscoveryRecord.resource ∨ type = DiscoveryRecord.service ∨
    type = DiscoveryRecord.instrumentation

instance (type : BitVec 16) : Decidable (CarriesHandle type) := inferInstanceAs (Decidable (_ ∨ _))

/-- No two of the types the parser tells apart are equal. -/
theorem DiscoveryRecord.distinct :
    (resource ≠ service ∧ resource ≠ dependency ∧ resource ≠ instrumentation) ∧
      (service ≠ resource ∧ service ≠ dependency ∧ service ≠ instrumentation) ∧
      (dependency ≠ resource ∧ dependency ≠ service ∧ dependency ≠ instrumentation) ∧
      (instrumentation ≠ resource ∧ instrumentation ≠ service ∧ instrumentation ≠ dependency) := by
  decide

/-- The five ways the parser treats a record. -/
inductive RecordKind (type : BitVec 16) : Prop where
  | resource (htype : type = DiscoveryRecord.resource)
  | service (htype : type = DiscoveryRecord.service)
  | dependency (htype : type = DiscoveryRecord.dependency)
  | instrumentation (htype : type = DiscoveryRecord.instrumentation)
  | other (hresource : type ≠ DiscoveryRecord.resource) (hservice : type ≠ DiscoveryRecord.service)
      (hdependency : type ≠ DiscoveryRecord.dependency)
      (hinstrumentation : type ≠ DiscoveryRecord.instrumentation)

theorem recordKind (type : BitVec 16) : RecordKind type := by
  by_cases hresource : type = DiscoveryRecord.resource
  · exact .resource hresource
  by_cases hservice : type = DiscoveryRecord.service
  · exact .service hservice
  by_cases hdependency : type = DiscoveryRecord.dependency
  · exact .dependency hdependency
  by_cases hinstrumentation : type = DiscoveryRecord.instrumentation
  · exact .instrumentation hinstrumentation
  exact .other hresource hservice hdependency hinstrumentation

/-! ## Admission -/

namespace DiscoveryDatabase

/-- The array for a record has room; a record of another type needs none. -/
def RoomFor (image : Memory) (db : DiscoveryDatabase) (record : Nat) : Prop :=
  if recordType image record = DiscoveryRecord.resource then db.resources.HasRoom
  else if recordType image record = DiscoveryRecord.service then db.services.HasRoom
  else if recordType image record = DiscoveryRecord.dependency then db.dependencies.HasRoom
  else if recordType image record = DiscoveryRecord.instrumentation then
    db.instrumentation.HasRoom
  else True

instance (image : Memory) (db : DiscoveryDatabase) (record : Nat) :
    Decidable (RoomFor image db record) :=
  inferInstanceAs (Decidable
    (if recordType image record = DiscoveryRecord.resource then db.resources.HasRoom
    else if recordType image record = DiscoveryRecord.service then db.services.HasRoom
    else if recordType image record = DiscoveryRecord.dependency then db.dependencies.HasRoom
    else if recordType image record = DiscoveryRecord.instrumentation then
      db.instrumentation.HasRoom
    else True))

/-- A handle the record brings is new. -/
def NewHandle (image : Memory) (db : DiscoveryDatabase) (record : Nat) : Prop :=
  CarriesHandle (recordType image record) → recordHandle image record ∉ db.handles

instance (image : Memory) (db : DiscoveryDatabase) (record : Nat) :
    Decidable (NewHandle image db record) := inferInstanceAs (Decidable (_ → _))

/-- The database with the entry of a record behind those of its kind. -/
def insert (image : Memory) (db : DiscoveryDatabase) (record : Nat) : DiscoveryDatabase :=
  if recordType image record = DiscoveryRecord.resource then
    { db with resources := db.resources.append (loadResource image record).value }
  else if recordType image record = DiscoveryRecord.service then
    { db with services := db.services.append (loadService image record).value }
  else if recordType image record = DiscoveryRecord.dependency then
    { db with dependencies := db.dependencies.append (loadDependency image record).value }
  else if recordType image record = DiscoveryRecord.instrumentation then
    { db with
      instrumentation := db.instrumentation.append (loadInstrumentation image record).value }
  else db

end DiscoveryDatabase

/-- A discovery database as a store of the records of an image. -/
def recordAdmission (image : Memory) : Admission DiscoveryDatabase Nat where
  Admits db record := db.NewHandle image record ∧ db.RoomFor image record
  insert := DiscoveryDatabase.insert image

/-- Why a record is not admitted: its handle is looked at first. -/
def refusal (image : Memory) (db : DiscoveryDatabase) (record : Nat) : DiscoveryResult :=
  if db.NewHandle image record then .capacity else .duplicateHandle

theorem refusal_ne_ok (image : Memory) (db : DiscoveryDatabase) (record : Nat) :
    refusal image db record ≠ .ok := by
  unfold refusal
  split <;> exact fun hok => by cases hok

section Storing

variable {Entry : Type} {array : EntryArray Entry} {load : Parsing Entry}
  {store : EntryArray Entry → DiscoveryDatabase}

theorem storeEntry_value : (storeEntry db array load store).value =
    if array.HasRoom then (.ok, store (array.append load.value)) else (.capacity, db) := by
  unfold storeEntry
  split_ifs <;> rfl

theorem storeUnique_value : (storeUnique image record db array load store).value =
    if recordHandle image record ∈ db.handles then (.duplicateHandle, db)
    else if array.HasRoom then (.ok, store (array.append load.value)) else (.capacity, db) := by
  rw [← storeEntry_value]
  simp only [← db.containsHandle_iff]
  unfold storeUnique
  rw [Traced.value_bind, Traced.value_ite]
  rfl

end Storing

/-- With a new handle a record is stored if there is room. -/
theorem addRecord_of_newHandle (hnew : db.NewHandle image record) :
    (addRecord image record db).value =
      if db.RoomFor image record then (.ok, db.insert image record) else (.capacity, db) := by
  simp only [DiscoveryDatabase.NewHandle, CarriesHandle] at hnew
  simp only [DiscoveryDatabase.RoomFor, DiscoveryDatabase.insert, addRecord]
  cases recordKind (recordType image record) with
  | resource htype =>
      simp only [htype, if_true, addResource, storeUnique_value, if_neg (hnew (Or.inl htype))]
  | service htype =>
      simp only [htype, DiscoveryRecord.distinct, if_true, if_false, addService, storeUnique_value,
        if_neg (hnew (Or.inr (Or.inl htype)))]
  | dependency htype =>
      simp only [htype, DiscoveryRecord.distinct, if_true, if_false, addDependency,
        storeEntry_value]
  | instrumentation htype =>
      simp only [htype, DiscoveryRecord.distinct, if_true, if_false, addInstrumentation,
        storeUnique_value, if_neg (hnew (Or.inr (Or.inr htype)))]
  | other hresource hservice hdependency hinstrumentation =>
      simp only [hresource, hservice, hdependency, hinstrumentation, if_true, if_false]
      rfl

theorem addRecord_of_known (hcarries : CarriesHandle (recordType image record))
    (hknown : recordHandle image record ∈ db.handles) :
    (addRecord image record db).value = (.duplicateHandle, db) := by
  rcases hcarries with htype | htype | htype
  · simp only [addRecord, htype, if_true, addResource, storeUnique_value, if_pos hknown]
  · simp only [addRecord, htype, DiscoveryRecord.distinct, if_true, if_false, addService,
      storeUnique_value, if_pos hknown]
  · simp only [addRecord, htype, DiscoveryRecord.distinct, if_true, if_false, addInstrumentation,
      storeUnique_value, if_pos hknown]

theorem addRecord_of_admits (hadd : (recordAdmission image).Admits db record) :
    (addRecord image record db).value = (.ok, (recordAdmission image).insert db record) := by
  rw [addRecord_of_newHandle hadd.1, if_pos hadd.2]
  rfl

theorem addRecord_of_not_admits (hadd : ¬ (recordAdmission image).Admits db record) :
    (addRecord image record db).value = (refusal image db record, db) := by
  by_cases hnew : db.NewHandle image record
  · have hroom : ¬ db.RoomFor image record := fun hroom => hadd ⟨hnew, hroom⟩
    rw [addRecord_of_newHandle hnew, if_neg hroom, refusal, if_pos hnew]
  · obtain ⟨hcarries, hknown⟩ := Classical.not_imp.mp hnew
    rw [addRecord_of_known hcarries (not_not.mp hknown), refusal, if_neg hnew]

/-! ## The handles of the database -/

/-- A stored record adds its handle to those of the database. -/
theorem handles_insert_perm (hcarries : CarriesHandle (recordType image record))
    (hroom : db.RoomFor image record) :
    (db.insert image record).handles.Perm (recordHandle image record :: db.handles) := by
  rcases hcarries with htype | htype | htype
  all_goals
    simp only [DiscoveryDatabase.RoomFor, htype, DiscoveryRecord.distinct, if_true, if_false]
      at hroom
    simp only [DiscoveryDatabase.insert, DiscoveryDatabase.handles, htype, DiscoveryRecord.distinct,
      if_true, if_false, EntryArray.visible_append hroom, List.map_append, List.map_cons,
      List.map_nil, List.append_assoc, List.singleton_append]
  · exact List.perm_middle
  · rw [← List.append_assoc, ← List.append_assoc]
    exact List.perm_middle
  · simp only [← List.append_assoc]
    exact List.perm_append_singleton _ _

theorem handles_insert_of_not_carries (hcarries : ¬ CarriesHandle (recordType image record)) :
    (db.insert image record).handles = db.handles := by
  simp only [CarriesHandle, not_or] at hcarries
  simp only [DiscoveryDatabase.insert, hcarries, if_false]
  split_ifs <;> rfl

end Atarix
