import Atarix.Discovery.Enumeration
import Atarix.Discovery.Refused

/-! # Records the parser does not know

Records of a provider, of a vendor or of a type that a later version defines change
nothing: what a parse returns and leaves is determined by the bytes of the typed
records, in their order, wherever they stand and whatever stands between them.
-/

namespace Atarix

variable {image other : Memory} {imageSize otherSize totalLength record : Nat}
  {db : DiscoveryDatabase} {records : List Nat}

instance (type : BitVec 16) : Decidable (StoresEntry type) := inferInstanceAs (Decidable (_ ∨ _))

/-! ## A record taken out of its image -/

theorem recordType_alone (hheader : discoveryRecordHeaderSizeV1 ≤ recordLength image record) :
    recordType (recordAlone image record) 0 = recordType image record := by
  have hinside : 0 + 2 ≤ recordLength image record := by
    simp only [discoveryRecordHeaderSizeV1] at hheader
    omega
  exact (load16_record hinside).symm

theorem recordHandle_alone (hwide : 32 ≤ recordLength image record) :
    recordHandle (recordAlone image record) 0 = recordHandle image record :=
  (load64_record (by omega)).symm

section Alone

variable (hheader : discoveryRecordHeaderSizeV1 ≤ recordLength image record)
  (hwide : 32 ≤ recordLength image record)

include hheader in
theorem roomFor_alone : db.RoomFor (recordAlone image record) 0 ↔ db.RoomFor image record := by
  simp only [DiscoveryDatabase.RoomFor, recordType_alone hheader]

include hheader hwide

theorem newHandle_alone :
    db.NewHandle (recordAlone image record) 0 ↔ db.NewHandle image record := by
  simp only [DiscoveryDatabase.NewHandle, recordType_alone hheader, recordHandle_alone hwide]

theorem insert_alone : db.insert (recordAlone image record) 0 = db.insert image record := by
  simp only [DiscoveryDatabase.insert, recordType_alone hheader, loadResource_value hwide,
    loadService_value hwide, loadDependency_value hwide, loadInstrumentation_value hwide]
  rfl

/-- The parser treats the record as it would treat it in an image of its own. -/
theorem addRecord_alone :
    (addRecord (recordAlone image record) 0 db).value = (addRecord image record db).value := by
  have hadmits : (recordAdmission (recordAlone image record)).Admits db 0 ↔
      (recordAdmission image).Admits db record :=
    and_congr (newHandle_alone hheader hwide) (roomFor_alone hheader)
  by_cases hadd : (recordAdmission image).Admits db record
  · rw [addRecord_of_admits hadd, addRecord_of_admits (hadmits.mpr hadd)]
    exact congrArg (DiscoveryResult.ok, ·) (insert_alone hheader hwide)
  · rw [addRecord_of_not_admits hadd, addRecord_of_not_admits (mt hadmits.mp hadd)]
    simp only [refusal, newHandle_alone hheader hwide]

end Alone

/-- A record of another type is passed over. -/
theorem addRecord_of_not_stores (hforeign : ¬ StoresEntry (recordType image record)) :
    (addRecord image record db).value = (.ok, db) := by
  simp only [StoresEntry, CarriesHandle, not_or] at hforeign
  simp only [addRecord, hforeign, if_false]
  rfl

/-! ## The typed records of an image -/

/-- The bytes of the records that become entries, in the order of the image. -/
def typedRecords (image : Memory) (records : List Nat) : List (List (BitVec 8)) :=
  (records.filter fun record => StoresEntry (recordType image record)).map fun record =>
    image.slice record (recordLength image record)

/-- Records stored one after the other, each from its bytes alone, up to the first refused. -/
def storeTyped (db : DiscoveryDatabase) :
    List (List (BitVec 8)) → DiscoveryResult × DiscoveryDatabase
  | [] => (.ok, db)
  | bytes :: rest =>
      let outcome := (addRecord (Memory.ofList bytes) 0 db).value
      if outcome.1 = .ok then storeTyped outcome.2 rest else outcome

theorem typedRecords_cons :
    typedRecords image (record :: records) =
      if StoresEntry (recordType image record) then
        image.slice record (recordLength image record) :: typedRecords image records
      else typedRecords image records := by
  unfold typedRecords
  split_ifs with htype <;> simp [htype]

/-- By induction on the chain: a walk stores the typed records and passes over the others. -/
theorem parseRecords_eq_storeTyped (htotal : totalLength ≤ imageSize)
    (hchain : RecordChain image totalLength record records) (hwide : WideRecords image records) :
    (discoveryParseRecords image imageSize record db).value =
      storeTyped db (typedRecords image records) := by
  induction hchain generalizing db with
  | stop fits isEnd =>
      rw [parseRecords_end isEnd]
      rfl
  | @next record rest fits notEnd chain ih =>
      obtain ⟨hfirst, hrest⟩ := List.forall_mem_cons.mp hwide
      have hnext := nextRecord_of_chain fits chain htotal
      rw [typedRecords_cons]
      by_cases hstores : StoresEntry (recordType image record)
      · have halone : (addRecord (Memory.ofList (image.slice record (recordLength image record))) 0
            db).value = (addRecord image record db).value :=
          addRecord_alone fits.header_le (hfirst hstores)
        rw [if_pos hstores, storeTyped, halone]
        by_cases hok : (addRecord image record db).value.1 = .ok
        · rw [parseRecords_next notEnd hok hnext, if_pos hok]
          exact ih hrest
        · rw [parseRecords_refused notEnd hok, if_neg hok]
      · have hskip : (addRecord image record db).value = (.ok, db) :=
          addRecord_of_not_stores hstores
        rw [if_neg hstores, parseRecords_next notEnd (congrArg Prod.fst hskip) hnext, hskip]
        exact ih hrest

/-- A parse stores the typed records. -/
theorem discoveryParse_eq_storeTyped (hvalid : discoveryValidate (some image) imageSize = .ok)
    (hwide : WideRecords image (discoveryRecords image)) :
    (discoveryParse (some image) imageSize (some db)).value =
      ((storeTyped db (typedRecords image (discoveryRecords image))).1,
        some (storeTyped db (typedRecords image (discoveryRecords image))).2) := by
  obtain ⟨records, haccepted⟩ := acceptedImage_of_validate hvalid
  obtain rfl := discoveryRecords_eq haccepted.total_le haccepted.chain
  rw [discoveryParse_of_valid hvalid,
    ← parseRecords_eq_storeTyped haccepted.total_le haccepted.chain hwide]
  rfl

/-- Two accepted images with the same typed records parse alike into any database:
the same result code, and the same entries stored, also when the parse fails. -/
theorem foreign_records_invisible (hvalid : discoveryValidate (some image) imageSize = .ok)
    (hother : discoveryValidate (some other) otherSize = .ok)
    (hwide : WideRecords image (discoveryRecords image))
    (hwideOther : WideRecords other (discoveryRecords other))
    (hsame : typedRecords image (discoveryRecords image) =
      typedRecords other (discoveryRecords other)) (db : Option DiscoveryDatabase) :
    (discoveryParse (some image) imageSize db).value =
      (discoveryParse (some other) otherSize db).value := by
  cases db with
  | none => rfl
  | some db =>
      rw [discoveryParse_eq_storeTyped hvalid hwide, discoveryParse_eq_storeTyped hother hwideOther,
        hsame]

/-- The typed records of `mixedImage` without the PROVIDER record between them, and with
a vendor record behind them. -/
def vendorImage : Memory := Memory.ofList [
  0x41, 0x54, 0x44, 0x58, 0x01, 0x00, 0x02, 0x00, 0x78, 0x00, 0x00, 0x00, 0x04, 0x00, 0x00, 0x00,
  0x04, 0x00, 0x00, 0x00, 0x00, 0x00, 0x00, 0x00, 0xCC, 0xA7, 0xE4, 0x0B, 0x74, 0xA8, 0xCB, 0xCF,
  0x01, 0x00, 0x01, 0x00, 0x20, 0x00, 0x00, 0x00, 0x00, 0x20, 0x01, 0x00, 0x00, 0x00, 0x00, 0x00,
  0x01, 0x00, 0x00, 0x00, 0x00, 0x20, 0x03, 0x00, 0x03, 0x00, 0x00, 0x00, 0x01, 0x00, 0x00, 0x00,
  0x02, 0x00, 0x01, 0x00, 0x20, 0x00, 0x00, 0x00, 0x01, 0x20, 0x01, 0x00, 0x00, 0x00, 0x00, 0x00,
  0x01, 0x00, 0x00, 0x00, 0x01, 0x20, 0x03, 0x00, 0x03, 0x00, 0x00, 0x00, 0x01, 0x00, 0x00, 0x00,
  0x01, 0x80, 0x01, 0x00, 0x10, 0x00, 0x00, 0x00, 0xA5, 0xA5, 0xA5, 0xA5, 0x07, 0x00, 0x00, 0x00,
  0xFF, 0xFF, 0x01, 0x00, 0x08, 0x00, 0x00, 0x00]

theorem foreign_records_invisible_vendor :
    (discoveryParse (some mixedImage) 120 (some (DiscoveryDatabase.empty 1))).value =
      (discoveryParse (some vendorImage) 120 (some (DiscoveryDatabase.empty 1))).value :=
  foreign_records_invisible (by decide +kernel) (by decide +kernel)
    (by unfold WideRecords; decide +kernel) (by unfold WideRecords; decide +kernel)
    (by decide +kernel) _

end Atarix
