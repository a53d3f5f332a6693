import Atarix.Discovery.Contents

/-! # What a failed parse leaves

Validation refuses an image before anything is stored. A record that cannot be
stored ends the parse where it stands: there is no way back, and the entries of
the records before it remain.
-/

namespace Atarix

/-- The types whose records become an entry. -/
def StoresEntry (type : BitVec 16) : Prop := CarriesHandle type ∨ type = DiscoveryRecord.dependency

theorem entriesOf_eq_nil {Entry : Type} {image : Memory} {load : Memory → Nat → Parsing Entry}
    {type : BitVec 16} {records : List Nat} :
    entriesOf image load type records = [] ↔
      ∀ record ∈ records, recordType image record ≠ type := by
  simp [entriesOf]

/-- Appending to an array that takes the entries changes it unless there are none. -/
theorem EntryArray.appendAll_eq_self {Entry : Type} {array : EntryArray Entry} {added : List Entry}
    (htakes : array.Takes added.length) : array.appendAll added = array ↔ added = [] := by
  rcases htakes with hnone | ⟨entries, hentries, -⟩
  · rw [List.eq_nil_of_length_eq_zero hnone, appendAll_nil]
    simp
  · constructor
    · intro hsame
      simpa [appendAll, hentries] using congrArg EntryArray.entries hsame
    · rintro rfl
      exact appendAll_nil array

/-- Only records that become an entry change the database. -/
theorem appendContents_eq_self {image : Memory} {db : DiscoveryDatabase} {records : List Nat}
    (htakes : db.TakesContents (loadedContents image records)) :
    db.appendContents (loadedContents image records) = db ↔
      ∀ record ∈ records, ¬ StoresEntry (recordType image record) := by
  have hfields : db.appendContents (loadedContents image records) = db ↔
      db.resources.appendAll (loadedContents image records).resources = db.resources ∧
        db.services.appendAll (loadedContents image records).services = db.services ∧
        db.dependencies.appendAll (loadedContents image records).dependencies = db.dependencies ∧
        db.instrumentation.appendAll (loadedContents image records).instrumentation =
          db.instrumentation := DiscoveryDatabase.ext_iff
  rw [hfields, EntryArray.appendAll_eq_self htakes.resources,
    EntryArray.appendAll_eq_self htakes.services, EntryArray.appendAll_eq_self htakes.dependencies,
    EntryArray.appendAll_eq_self htakes.instrumentation]
  simp only [loadedContents, entriesOf_eq_nil, StoresEntry, CarriesHandle, not_or]
  constructor
  · rintro ⟨hresources, hservices, hdependencies, hinstrumentation⟩ record hrecord
    exact ⟨⟨hresources record hrecord, hservices record hrecord, hinstrumentation record hrecord⟩,
      hdependencies record hrecord⟩
  · intro hother
    exact ⟨fun record hrecord => (hother record hrecord).1.1,
      fun record hrecord => (hother record hrecord).1.2.1,
      fun record hrecord => (hother record hrecord).2,
      fun record hrecord => (hother record hrecord).1.2.2⟩

/-- The database has the entries of the stored records behind those it had, and
is as it was only if none of them became an entry. -/
structure LeavesStored (image : Memory) (stored : List Nat) (before after : DiscoveryDatabase) :
    Prop where
  appended : after = before.appendContents (loadedContents image stored)
  unchanged : after = before ↔ ∀ record ∈ stored, ¬ StoresEntry (recordType image record)

/-- How a parse fails, and what it leaves of the database. -/
inductive FailedParse (image : Option Memory) (imageSize : Nat) :
    Option DiscoveryDatabase → DiscoveryResult × Option DiscoveryDatabase → Prop where
  | noDatabase : FailedParse image imageSize none (.null, none)
  | invalid (db : DiscoveryDatabase) (hinvalid : discoveryValidate image imageSize ≠ .ok) :
      FailedParse image imageSize (some db) (discoveryValidate image imageSize, some db)
  | refused {bytes : Memory} {stored rest : List Nat} {refused : Nat} {db after : DiscoveryDatabase}
      (himage : image = some bytes) (hvalid : discoveryValidate image imageSize = .ok)
      (hchain : RecordChain bytes (DiscoveryHeader.totalLength bytes) discoveryHeaderSizeV1
        (stored ++ refused :: rest))
      (hrefuses : (recordAdmission bytes).Refuses db stored refused)
      (hleaves : LeavesStored bytes stored db after) :
      FailedParse image imageSize (some db) (refusal bytes after refused, some after)

/-- A parse that does not return OK keeps every entry the database had, and adds
those of the records before the one it was refused at. -/
theorem discoveryParse_failed (image : Option Memory) (imageSize : Nat)
    (db : Option DiscoveryDatabase) (hfailed : (discoveryParse image imageSize db).value.1 ≠ .ok) :
    FailedParse image imageSize db (discoveryParse image imageSize db).value := by
  cases db with
  | none => exact .noDatabase
  | some db =>
      by_cases hvalid : discoveryValidate image imageSize = .ok
      · cases image with
        | none => cases hvalid
        | some image =>
            obtain ⟨records, haccepted⟩ := acceptedImage_of_validate hvalid
            rw [discoveryParse_of_valid hvalid] at hfailed ⊢
            have hadmits := mt (parseRecords_ok_iff haccepted.total_le haccepted.chain).mpr hfailed
            obtain ⟨stored, refused, rest, rfl, hrefuses, houtcome⟩ :=
              parseRecords_of_not_admitsAll haccepted.total_le haccepted.chain hadmits
            have hleaves : LeavesStored image stored db
                ((recordAdmission image).insertAll db stored) := by
              rw [insertAll_eq]
              exact ⟨rfl, appendContents_eq_self (takesContents_of_admitsAll hrefuses.admitted)⟩
            have hfails := FailedParse.refused rfl hvalid haccepted.chain hrefuses hleaves
            rw [← congrArg (fun outcome => (outcome.1, some outcome.2)) houtcome] at hfails
            exact hfails
      · rw [discoveryParse_of_refused hvalid]
        exact .invalid db hvalid

/-- Two RESOURCE records with one handle. -/
def repeatedHandleImage : Memory := Memory.ofList [
  0x41, 0x54, 0x44, 0x58, 0x01, 0x00, 0x00, 0x00, 0x68, 0x00, 0x00, 0x00, 0x03, 0x00, 0x00, 0x00,
  0x03, 0x00, 0x00, 0x00, 0x00, 0x00, 0x00, 0x00, 0x78, 0xCD, 0x78, 0x7D, 0x4A, 0x1E, 0x06, 0xCE,
  0x01, 0x00, 0x01, 0x00, 0x20, 0x00, 0x00, 0x00, 0x00, 0x20, 0x01, 0x00, 0x00, 0x00, 0x00, 0x00,
  0x01, 0x00, 0x00, 0x00, 0x00, 0x20, 0x03, 0x00, 0x03, 0x00, 0x00, 0x00, 0x01, 0x00, 0x00, 0x00,
  0x01, 0x00, 0x01, 0x00, 0x20, 0x00, 0x00, 0x00, 0x00, 0x20, 0x01, 0x00, 0x00, 0x00, 0x00, 0x00,
  0x01, 0x00, 0x00, 0x00, 0x00, 0x20, 0x03, 0x00, 0x03, 0x00, 0x00, 0x00, 0x01, 0x00, 0x00, 0x00,
  0xFF, 0xFF, 0x01, 0x00, 0x08, 0x00, 0x00, 0x00]

/-- The second record is refused, and the first one stays. -/
theorem duplicate_leaves_entry :
    (discoveryParse (some repeatedHandleImage) 104 (some (DiscoveryDatabase.empty 2))).value =
      (.duplicateHandle, some { DiscoveryDatabase.empty 2 with
        resources := ⟨some [⟨0x0003200000000001, 0x2000, 1, 0, 3, 1⟩], 2⟩ }) ∧
      (discoveryParse (some repeatedHandleImage) 104 (some (DiscoveryDatabase.empty 2))).value.2 ≠
        some (DiscoveryDatabase.empty 2) := by
  constructor <;> decide +kernel

theorem discoveryParse_failed_duplicate :
    FailedParse (some repeatedHandleImage) 104 (some (DiscoveryDatabase.empty 2))
      (discoveryParse (some repeatedHandleImage) 104 (some (DiscoveryDatabase.empty 2))).value :=
  discoveryParse_failed _ _ _ (by decide +kernel)

end Atarix
