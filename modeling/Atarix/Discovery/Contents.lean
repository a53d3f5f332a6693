import Atarix.Discovery.ParserBounds
import Atarix.Discovery.DatabaseInvariant

/-! # What the records of an image store

A parse offers the records of the image to the database in order, up to the first
that is not admitted.
-/

namespace Atarix

variable {image : Memory} {imageSize totalLength record : Nat} {db : DiscoveryDatabase}
  {records : List Nat}

/-! ## The walk -/

/-- Records that are all admitted are all stored. -/
theorem parseRecords_of_admitsAll (htotal : totalLength ≤ imageSize)
    (hchain : RecordChain image totalLength record records)
    (hadmits : (recordAdmission image).AdmitsAll db records) :
    (discoveryParseRecords image imageSize record db).value =
      (.ok, (recordAdmission image).insertAll db records) := by
  induction hchain generalizing db with
  | stop fits isEnd =>
      rw [parseRecords_end isEnd]
      rfl
  | next fits notEnd chain ih =>
      have hadd := addRecord_of_admits hadmits.1
      rw [parseRecords_next notEnd (congrArg Prod.fst hadd) (nextRecord_of_chain fits chain htotal),
        hadd]
      exact ih hadmits.2

/-- Otherwise the records before the first one refused are stored. -/
theorem parseRecords_of_not_admitsAll (htotal : totalLength ≤ imageSize)
    (hchain : RecordChain image totalLength record records)
    (hadmits : ¬ (recordAdmission image).AdmitsAll db records) :
    ∃ stored refused rest, records = stored ++ refused :: rest ∧
      (recordAdmission image).Refuses db stored refused ∧
      (discoveryParseRecords image imageSize record db).value =
        (refusal image ((recordAdmission image).insertAll db stored) refused,
          (recordAdmission image).insertAll db stored) := by
  induction hchain generalizing db with
  | stop => exact absurd trivial hadmits
  | @next record rest fits notEnd chain ih =>
      by_cases hadd : (recordAdmission image).Admits db record
      · have hvalue := addRecord_of_admits hadd
        obtain ⟨stored, refused, behind, rfl, hrefuses, houtcome⟩ :=
          ih fun hrest => hadmits ⟨hadd, hrest⟩
        refine ⟨record :: stored, refused, behind, rfl, hrefuses.cons hadd, ?_⟩
        rw [parseRecords_next notEnd (congrArg Prod.fst hvalue)
          (nextRecord_of_chain fits chain htotal), hvalue]
        exact houtcome
      · refine ⟨[], record, rest, rfl, .here hadd, ?_⟩
        have hvalue := addRecord_of_not_admits hadd
        have hrefused : (addRecord image record db).value.1 ≠ .ok := by
          rw [hvalue]
          exact refusal_ne_ok image db record
        rw [parseRecords_refused notEnd hrefused]
        exact hvalue

/-- The walk ends well exactly if every record is admitted. -/
theorem parseRecords_ok_iff (htotal : totalLength ≤ imageSize)
    (hchain : RecordChain image totalLength record records) :
    (discoveryParseRecords image imageSize record db).value.1 = .ok ↔
      (recordAdmission image).AdmitsAll db records := by
  constructor
  · intro hok
    by_contra hadmits
    obtain ⟨stored, refused, rest, -, -, houtcome⟩ :=
      parseRecords_of_not_admitsAll htotal hchain hadmits
    rw [houtcome] at hok
    exact refusal_ne_ok image _ refused hok
  · intro hadmits
    rw [parseRecords_of_admitsAll htotal hchain hadmits]

/-! ## What the database holds after it -/

/-- The entries of the records of one type, in the order of the image. -/
def entriesOf {Entry : Type} (image : Memory) (load : Memory → Nat → Parsing Entry)
    (type : BitVec 16) (records : List Nat) : List Entry :=
  (records.filter (recordType image · = type)).map fun record => (load image record).value

/-- The four lists of a database. -/
structure DatabaseContents where
  resources : List ResourceEntry
  services : List ServiceEntry
  dependencies : List DependencyEntry
  instrumentation : List InstrumentationEntry

/-- What the parser loads for records. -/
def loadedContents (image : Memory) (records : List Nat) : DatabaseContents where
  resources := entriesOf image loadResource DiscoveryRecord.resource records
  services := entriesOf image loadService DiscoveryRecord.service records
  dependencies := entriesOf image loadDependency DiscoveryRecord.dependency records
  instrumentation := entriesOf image loadInstrumentation DiscoveryRecord.instrumentation records

namespace DiscoveryDatabase

/-- The database with each list behind the entries of its kind. -/
def appendContents (db : DiscoveryDatabase) (contents : DatabaseContents) : DiscoveryDatabase where
  resources := db.resources.appendAll contents.resources
  services := db.services.appendAll contents.services
  dependencies := db.dependencies.appendAll contents.dependencies
  instrumentation := db.instrumentation.appendAll contents.instrumentation

/-- Each array takes the entries of its kind. -/
@[mk_iff] structure TakesContents (db : DiscoveryDatabase) (contents : DatabaseContents) :
    Prop where
  resources : db.resources.Takes contents.resources.length
  services : db.services.Takes contents.services.length
  dependencies : db.dependencies.Takes contents.dependencies.length
  instrumentation : db.instrumentation.Takes contents.instrumentation.length

end DiscoveryDatabase

theorem entriesOf_cons {Entry : Type} (load : Memory → Nat → Parsing Entry) (type : BitVec 16) :
    entriesOf image load type (record :: records) =
      if recordType image record = type then
        (load image record).value :: entriesOf image load type records
      else entriesOf image load type records := by
  unfold entriesOf
  split_ifs with htype <;> simp [htype]

theorem insertAll_eq (image : Memory) (db : DiscoveryDatabase) (records : List Nat) :
    (recordAdmission image).insertAll db records =
      db.appendContents (loadedContents image records) := by
  induction records generalizing db with
  | nil => simp [DiscoveryDatabase.appendContents, loadedContents, entriesOf]
  | cons record rest ih =>
      rw [Admission.insertAll_cons, ih]
      simp only [recordAdmission, DiscoveryDatabase.insert, DiscoveryDatabase.appendContents,
        loadedContents, entriesOf_cons]
      cases recordKind (recordType image record) with
      | resource htype => simp [htype, DiscoveryRecord.distinct]
      | service htype => simp [htype, DiscoveryRecord.distinct]
      | dependency htype => simp [htype, DiscoveryRecord.distinct]
      | instrumentation htype => simp [htype, DiscoveryRecord.distinct]
      | other hresource hservice hdependency hinstrumentation =>
          simp [hresource, hservice, hdependency, hinstrumentation]

/-! ## When every record is admitted -/

/-- The handles the records bring, in the order of the image. -/
def recordHandles (image : Memory) (records : List Nat) : List DiscoveryHandle :=
  (records.filter fun record => CarriesHandle (recordType image record)).map (recordHandle image)

/-- The handles with those of the records behind them, before and after a record is stored. -/
theorem handles_nodup_cons (hroom : db.RoomFor image record) :
    (db.handles ++ recordHandles image (record :: records)).Nodup ↔
      db.NewHandle image record ∧
        ((db.insert image record).handles ++ recordHandles image records).Nodup := by
  by_cases hcarries : CarriesHandle (recordType image record)
  · have hperm := (handles_insert_perm hcarries hroom).append_right (recordHandles image records)
    have hcons : recordHandles image (record :: records) =
        recordHandle image record :: recordHandles image records := by
      simp [recordHandles, hcarries]
    rw [hperm.nodup_iff, hcons, List.nodup_middle, List.cons_append]
    refine ⟨fun hall => ⟨fun _ hmem => ?_, hall⟩, And.right⟩
    exact (List.nodup_cons.mp hall).1 (List.mem_append_left _ hmem)
  · have hskip : recordHandles image (record :: records) = recordHandles image records := by
      simp [recordHandles, hcarries]
    rw [handles_insert_of_not_carries hcarries, hskip]
    exact ⟨fun hall => ⟨fun hown => absurd hown hcarries, hall⟩, And.right⟩

theorem takesContents_cons :
    db.TakesContents (loadedContents image (record :: records)) ↔
      db.RoomFor image record ∧
        (db.insert image record).TakesContents (loadedContents image records) := by
  simp only [DiscoveryDatabase.takesContents_iff, DiscoveryDatabase.RoomFor,
    DiscoveryDatabase.insert, loadedContents, entriesOf_cons]
  cases recordKind (recordType image record) with
  | resource htype =>
      simp only [htype, DiscoveryRecord.distinct, if_true, if_false, List.length_cons,
        db.resources.takes_succ (loadResource image record).value, and_assoc]
  | service htype =>
      simp only [htype, DiscoveryRecord.distinct, if_true, if_false, List.length_cons,
        db.services.takes_succ (loadService image record).value, and_assoc, and_left_comm]
  | dependency htype =>
      simp only [htype, DiscoveryRecord.distinct, if_true, if_false, List.length_cons,
        db.dependencies.takes_succ (loadDependency image record).value, and_assoc, and_left_comm]
  | instrumentation htype =>
      simp only [htype, DiscoveryRecord.distinct, if_true, if_false, List.length_cons,
        db.instrumentation.takes_succ (loadInstrumentation image record).value, and_left_comm]
  | other hresource hservice hdependency hinstrumentation =>
      simp only [hresource, hservice, hdependency, hinstrumentation, if_false, true_and]

/-- Records that are all admitted fit their arrays. -/
theorem takesContents_of_admitsAll (hadmits : (recordAdmission image).AdmitsAll db records) :
    db.TakesContents (loadedContents image records) := by
  induction records generalizing db with
  | nil =>
      exact ⟨EntryArray.takes_zero _, EntryArray.takes_zero _, EntryArray.takes_zero _,
        EntryArray.takes_zero _⟩
  | cons record rest ih => exact takesContents_cons.mpr ⟨hadmits.1.2, ih hadmits.2⟩

/-- Every record is admitted if no handle is repeated and each array has the room. -/
theorem admitsAll_iff (hnodup : db.handles.Nodup) :
    (recordAdmission image).AdmitsAll db records ↔
      (db.handles ++ recordHandles image records).Nodup ∧
        db.TakesContents (loadedContents image records) := by
  induction records generalizing db with
  | nil =>
      have htakes : db.TakesContents (loadedContents image []) := takesContents_of_admitsAll trivial
      have hhandles : db.handles ++ recordHandles image [] = db.handles := List.append_nil _
      rw [hhandles]
      exact ⟨fun _ => ⟨hnodup, htakes⟩, fun _ => trivial⟩
  | cons record rest ih =>
      rw [takesContents_cons]
      have hstored (hadd : (recordAdmission image).Admits db record) :
          (db.insert image record).handles.Nodup := (insert_extends hadd).nodup hnodup
      constructor
      · rintro ⟨⟨hnew, hroom⟩, hrest⟩
        obtain ⟨hhandles, htakes⟩ := (ih (hstored ⟨hnew, hroom⟩)).mp hrest
        exact ⟨(handles_nodup_cons hroom).mpr ⟨hnew, hhandles⟩, hroom, htakes⟩
      · rintro ⟨hhandles, hroom, htakes⟩
        obtain ⟨hnew, hhandles⟩ := (handles_nodup_cons hroom).mp hhandles
        exact ⟨⟨hnew, hroom⟩, (ih (hstored ⟨hnew, hroom⟩)).mpr ⟨hhandles, htakes⟩⟩

end Atarix
