import Atarix.Discovery.Exact
import Atarix.Discovery.Walk

/-! # Enumerating several images

A caller presents the images it finds one after the other to one database. They
all parse if each is accepted, no handle is repeated across them and the kinds fit
their arrays together; the order in which they are found does not matter.
-/

namespace Atarix

variable {image : Memory} {imageSize : Nat} {db : DiscoveryDatabase} {records : List Nat}

/-! ## Contents one behind the other -/

theorem EntryArray.takes_add {Entry : Type} {array : EntryArray Entry} {added : List Entry}
    {count : Nat} :
    array.Takes (added.length + count) ↔
      array.Takes added.length ∧ (array.appendAll added).Takes count := by
  induction added generalizing array with
  | nil =>
      rw [List.length_nil, Nat.zero_add, appendAll_nil]
      exact (and_iff_right array.takes_zero).symm
  | cons entry rest ih =>
      have hlength : (entry :: rest).length + count = (rest.length + count) + 1 := by
        rw [List.length_cons]
        omega
      rw [hlength, List.length_cons, takes_succ array entry, takes_succ array entry, ih, and_assoc,
        appendAll_append]

/-- The entries of one after those of another. -/
def DatabaseContents.append (first second : DatabaseContents) : DatabaseContents where
  resources := first.resources ++ second.resources
  services := first.services ++ second.services
  dependencies := first.dependencies ++ second.dependencies
  instrumentation := first.instrumentation ++ second.instrumentation

def DatabaseContents.empty : DatabaseContents := ⟨[], [], [], []⟩

namespace DiscoveryDatabase

theorem appendContents_empty (db : DiscoveryDatabase) : db.appendContents .empty = db := by
  simp [appendContents, DatabaseContents.empty]

theorem appendContents_append (db : DiscoveryDatabase) (first second : DatabaseContents) :
    (db.appendContents first).appendContents second = db.appendContents (first.append second) := by
  simp [appendContents, DatabaseContents.append, EntryArray.appendAll, Function.comp_def]

theorem takesContents_append {first second : DatabaseContents} :
    db.TakesContents (first.append second) ↔
      db.TakesContents first ∧ (db.appendContents first).TakesContents second := by
  simp only [takesContents_iff, DatabaseContents.append, appendContents, List.length_append,
    EntryArray.takes_add]
  tauto

theorem contents_appendContents {contents : DatabaseContents} (htakes : db.TakesContents contents) :
    (db.appendContents contents).contents = db.contents.append contents := by
  simp only [DiscoveryDatabase.contents, appendContents, DatabaseContents.append,
    EntryArray.visible_appendAll htakes.resources, EntryArray.visible_appendAll htakes.services,
    EntryArray.visible_appendAll htakes.dependencies,
    EntryArray.visible_appendAll htakes.instrumentation]

end DiscoveryDatabase

/-! ## One image -/

/-- The records of an image before its END record. -/
def discoveryRecords (image : Memory) : List Nat := (discoveryVisits image).dropLast

theorem discoveryRecords_eq (htotal : DiscoveryHeader.totalLength image ≤ imageSize)
    (hchain : RecordChain image (DiscoveryHeader.totalLength image) discoveryHeaderSizeV1 records) :
    discoveryRecords image = records := by
  obtain ⟨last, hwalks⟩ := walksToEnd_of_chain htotal hchain
  rw [discoveryRecords, discoveryVisits, hwalks.visits 0, List.dropLast_concat]

/-- An image as it is presented: a pointer and a size. -/
abbrev PresentedImage := Option Memory × Nat

namespace PresentedImage

/-- What `atarix_discovery_validate` says of it. -/
def Accepted (presented : PresentedImage) : Prop :=
  discoveryValidate presented.1 presented.2 = .ok

/-- The handles its records bring. -/
def handles (presented : PresentedImage) : List DiscoveryHandle :=
  presented.1.elim [] fun image => recordHandles image (discoveryRecords image)

/-- The entries the parser loads from it. -/
def contents (presented : PresentedImage) : DatabaseContents :=
  presented.1.elim .empty fun image => loadedContents image (discoveryRecords image)

end PresentedImage

/-- A database as a store of whole images. -/
def imageAdmission : Admission DiscoveryDatabase PresentedImage where
  Admits db presented := (discoveryParse presented.1 presented.2 (some db)).value.1 = .ok
  insert db presented := parseInto db presented.1 presented.2

/-- The handles after records were stored. -/
theorem handles_insertAll_perm (hadmits : (recordAdmission image).AdmitsAll db records) :
    ((recordAdmission image).insertAll db records).handles.Perm
      (db.handles ++ recordHandles image records) := by
  induction records generalizing db with
  | nil => exact .of_eq (List.append_nil _).symm
  | cons record rest ih =>
      apply (ih hadmits.2).trans
      -- a record of a type without handle adds none
      by_cases hcarries : CarriesHandle (recordType image record)
      · have hcons : recordHandles image (record :: rest) =
            recordHandle image record :: recordHandles image rest := by
          simp [recordHandles, hcarries]
        rw [hcons]
        apply ((handles_insert_perm hcarries hadmits.1.2).append_right _).trans
        exact List.perm_middle.symm
      · have hskip : recordHandles image (record :: rest) = recordHandles image rest := by
          simp [recordHandles, hcarries]
        have hsame : ((recordAdmission image).insert db record).handles = db.handles :=
          handles_insert_of_not_carries hcarries
        rw [hskip, hsame]

/-- When one more image parses. -/
theorem imageAdmits_iff (hnodup : db.handles.Nodup) (presented : PresentedImage) :
    imageAdmission.Admits db presented ↔
      presented.Accepted ∧ (db.handles ++ presented.handles).Nodup ∧
        db.TakesContents presented.contents := by
  obtain ⟨image, imageSize⟩ := presented
  by_cases hvalid : discoveryValidate image imageSize = .ok
  · cases image with
    | none => cases hvalid
    | some image =>
        obtain ⟨records, haccepted⟩ := acceptedImage_of_validate hvalid
        have hparse : imageAdmission.Admits db (some image, imageSize) ↔
            (recordAdmission image).AdmitsAll db records := by
          simp only [imageAdmission, discoveryParse_of_valid hvalid]
          exact parseRecords_ok_iff haccepted.total_le haccepted.chain
        rw [hparse, admitsAll_iff hnodup,
          ← discoveryRecords_eq haccepted.total_le haccepted.chain]
        exact (and_iff_right hvalid).symm
  · have hrefused : ¬ imageAdmission.Admits db (image, imageSize) := by
      simp only [imageAdmission, discoveryParse_of_refused hvalid]
      exact hvalid
    exact iff_of_false hrefused fun haccepted => hvalid haccepted.1

/-- What an image that parses adds. -/
theorem parseInto_of_admits {presented : PresentedImage}
    (hadmits : imageAdmission.Admits db presented) :
    parseInto db presented.1 presented.2 = db.appendContents presented.contents ∧
      (parseInto db presented.1 presented.2).handles.Perm (db.handles ++ presented.handles) := by
  obtain ⟨image, imageSize⟩ := presented
  by_cases hvalid : discoveryValidate image imageSize = .ok
  · cases image with
    | none => cases hvalid
    | some image =>
        obtain ⟨records, haccepted⟩ := acceptedImage_of_validate hvalid
        simp only [imageAdmission, discoveryParse_of_valid hvalid] at hadmits
        have hall := (parseRecords_ok_iff haccepted.total_le haccepted.chain).mp hadmits
        have hstored : parseInto db (some image) imageSize =
            (recordAdmission image).insertAll db records := by
          rw [parseInto, discoveryParse_of_valid hvalid]
          exact congrArg Prod.snd
            (parseRecords_of_admitsAll haccepted.total_le haccepted.chain hall)
        have hrecords := discoveryRecords_eq haccepted.total_le haccepted.chain
        constructor
        · rw [hstored, insertAll_eq, ← hrecords]
          rfl
        · rw [hstored]
          subst hrecords
          exact handles_insertAll_perm hall
  · simp only [imageAdmission, discoveryParse_of_refused hvalid] at hadmits
    exact absurd hadmits hvalid

/-! ## All images -/

/-- The handles that the images bring. -/
def presentedHandles (images : List PresentedImage) : List DiscoveryHandle :=
  images.flatMap PresentedImage.handles

/-- The entries that the images hold, one image behind the other. -/
def presentedContents (images : List PresentedImage) : DatabaseContents where
  resources := images.flatMap fun presented => presented.contents.resources
  services := images.flatMap fun presented => presented.contents.services
  dependencies := images.flatMap fun presented => presented.contents.dependencies
  instrumentation := images.flatMap fun presented => presented.contents.instrumentation

theorem presentedContents_cons (presented : PresentedImage) (images : List PresentedImage) :
    presentedContents (presented :: images) =
      presented.contents.append (presentedContents images) := rfl

/-- By induction on the images: the next one meets what the earlier ones stored. -/
theorem imagesAdmitted_iff (hnodup : db.handles.Nodup) (images : List PresentedImage) :
    imageAdmission.AdmitsAll db images ↔
      (∀ presented ∈ images, presented.Accepted) ∧
        (db.handles ++ presentedHandles images).Nodup ∧
        db.TakesContents (presentedContents images) := by
  induction images generalizing db with
  | nil =>
      have htakes : db.TakesContents (presentedContents []) :=
        ⟨EntryArray.takes_zero _, EntryArray.takes_zero _, EntryArray.takes_zero _,
          EntryArray.takes_zero _⟩
      have hhandles : (db.handles ++ presentedHandles []).Nodup := by
        rwa [presentedHandles, List.flatMap_nil, List.append_nil]
      exact iff_of_true trivial ⟨List.forall_mem_nil _, hhandles, htakes⟩
  | cons presented rest ih =>
      -- the first image, once stored, moves its handles and entries to the database's side
      have hnext (hadmits : imageAdmission.Admits db presented) :
          imageAdmission.AdmitsAll (parseInto db presented.1 presented.2) rest ↔
            (∀ later ∈ rest, later.Accepted) ∧
              (db.handles ++ presentedHandles (presented :: rest)).Nodup ∧
              (db.appendContents presented.contents).TakesContents (presentedContents rest) := by
        obtain ⟨hstored, hperm⟩ := parseInto_of_admits hadmits
        have hafter : (parseInto db presented.1 presented.2).handles.Nodup :=
          hperm.nodup_iff.mpr ((imageAdmits_iff hnodup presented).mp hadmits).2.1
        rw [ih hafter, (hperm.append_right _).nodup_iff, hstored, List.append_assoc]
        rfl
      rw [presentedContents_cons, DiscoveryDatabase.takesContents_append, List.forall_mem_cons]
      constructor
      · rintro ⟨hadmits, hrest⟩
        obtain ⟨haccepted, -, htakes⟩ := (imageAdmits_iff hnodup presented).mp hadmits
        obtain ⟨hlater, hhandles, hroom⟩ := (hnext hadmits).mp hrest
        exact ⟨⟨haccepted, hlater⟩, hhandles, htakes, hroom⟩
      · rintro ⟨⟨haccepted, hlater⟩, hhandles, htakes, hroom⟩
        have hfirst : (db.handles ++ presented.handles).Nodup := by
          rw [presentedHandles, List.flatMap_cons, ← List.append_assoc] at hhandles
          exact hhandles.of_append_left
        have hadmits := (imageAdmits_iff hnodup presented).mpr ⟨haccepted, hfirst, htakes⟩
        exact ⟨hadmits, (hnext hadmits).mpr ⟨hlater, hhandles, hroom⟩⟩

/-- Images that all parse leave their entries behind those the database had. -/
theorem parseAll_of_admitsAll {images : List PresentedImage}
    (hadmits : imageAdmission.AdmitsAll db images) :
    parseAll db images = db.appendContents (presentedContents images) := by
  induction images generalizing db with
  | nil => exact db.appendContents_empty.symm
  | cons presented rest ih =>
      have hrest : parseAll (parseInto db presented.1 presented.2) rest =
          (parseInto db presented.1 presented.2).appendContents (presentedContents rest) :=
        ih hadmits.2
      rw [parseAll, hrest, (parseInto_of_admits hadmits.1).1,
        DiscoveryDatabase.appendContents_append, presentedContents_cons]

theorem parseAll_contents {images : List PresentedImage} (hnodup : db.handles.Nodup)
    (hadmits : imageAdmission.AdmitsAll db images) :
    (parseAll db images).contents = db.contents.append (presentedContents images) := by
  have htakes := ((imagesAdmitted_iff hnodup images).mp hadmits).2.2
  rw [parseAll_of_admitsAll hadmits]
  exact DiscoveryDatabase.contents_appendContents htakes

theorem handles_nodup_parseAll (supply : DatabaseSupply) (earlier : List PresentedImage) :
    (parseAll supply.database earlier).handles.Nodup := by
  apply (parseAll_extends supply.database earlier).nodup
  rw [supply.handles_eq_nil]
  exact List.nodup_nil

/-- Whatever was parsed before, further images all parse exactly if each is accepted,
no handle is repeated among them and those the database has, and each array has room
for all the entries of its kind; they then add exactly those entries, in order. -/
theorem enumeration_exact (supply : DatabaseSupply) (earlier images : List PresentedImage) :
    let db := parseAll supply.database earlier
    (imageAdmission.AdmitsAll db images ↔
        (∀ presented ∈ images, presented.Accepted) ∧
          (db.handles ++ presentedHandles images).Nodup ∧
          db.TakesContents (presentedContents images)) ∧
      (imageAdmission.AdmitsAll db images →
        (parseAll db images).contents = db.contents.append (presentedContents images)) := by
  have hnodup := handles_nodup_parseAll supply earlier
  exact ⟨imagesAdmitted_iff hnodup images, parseAll_contents hnodup⟩

/-! ## The order of the images -/

/-- The same entries of each kind, in any order. -/
structure DatabaseContents.Perm (first second : DatabaseContents) : Prop where
  resources : first.resources.Perm second.resources
  services : first.services.Perm second.services
  dependencies : first.dependencies.Perm second.dependencies
  instrumentation : first.instrumentation.Perm second.instrumentation

theorem DatabaseContents.Perm.append_left {first second : DatabaseContents}
    (hperm : first.Perm second) (stored : DatabaseContents) :
    (stored.append first).Perm (stored.append second) where
  resources := hperm.resources.append_left _
  services := hperm.services.append_left _
  dependencies := hperm.dependencies.append_left _
  instrumentation := hperm.instrumentation.append_left _

/-- Two databases that answer every question of a caller alike. -/
structure DiscoveryDatabase.Indistinguishable (first second : DiscoveryDatabase) : Prop where
  findResource : ∀ handle,
    discoveryFindResource (some first) handle = discoveryFindResource (some second) handle
  findService : ∀ handle,
    discoveryFindService (some first) handle = discoveryFindService (some second) handle
  containsHandle : ∀ handle,
    discoveryDatabaseContainsHandle first handle = discoveryDatabaseContainsHandle second handle
  contents : first.contents.Perm second.contents

theorem presentedContents_perm {images reordered : List PresentedImage}
    (hperm : images.Perm reordered) :
    (presentedContents images).Perm (presentedContents reordered) where
  resources := hperm.flatMap_right _
  services := hperm.flatMap_right _
  dependencies := hperm.flatMap_right _
  instrumentation := hperm.flatMap_right _

theorem DiscoveryDatabase.TakesContents.perm {first second : DatabaseContents}
    (htakes : db.TakesContents first) (hperm : first.Perm second) : db.TakesContents second where
  resources := hperm.resources.length_eq ▸ htakes.resources
  services := hperm.services.length_eq ▸ htakes.services
  dependencies := hperm.dependencies.length_eq ▸ htakes.dependencies
  instrumentation := hperm.instrumentation.length_eq ▸ htakes.instrumentation

/-- Databases with the same entries up to order, whose handles differ, are alike. -/
theorem indistinguishable_of_perm {first second : DiscoveryDatabase}
    (hcontents : first.contents.Perm second.contents) (hnodup : first.handles.Nodup) :
    first.Indistinguishable second where
  findResource handle := by
    rw [discoveryFindResource_eq, discoveryFindResource_eq]
    exact List.find?_key_perm (hnodup.of_append_left.of_append_left) hcontents.resources handle
  findService handle := by
    rw [discoveryFindService_eq, discoveryFindService_eq]
    exact List.find?_key_perm (hnodup.of_append_left.of_append_right) hcontents.services handle
  containsHandle handle := by
    have hhandles : first.handles.Perm second.handles :=
      ((hcontents.resources.map _).append (hcontents.services.map _)).append
        (hcontents.instrumentation.map _)
    rw [Bool.eq_iff_iff, first.containsHandle_iff, second.containsHandle_iff, hhandles.mem_iff]
  contents := hcontents

/-- Images found in another order all parse if they did in the first one, and leave a
database that answers alike. -/
theorem enumeration_order_free (supply : DatabaseSupply)
    (earlier images reordered : List PresentedImage) (hperm : images.Perm reordered) :
    let db := parseAll supply.database earlier
    (imageAdmission.AdmitsAll db images ↔ imageAdmission.AdmitsAll db reordered) ∧
      (imageAdmission.AdmitsAll db images →
        (parseAll db images).Indistinguishable (parseAll db reordered)) := by
  intro db
  have hnodup : db.handles.Nodup := handles_nodup_parseAll supply earlier
  have hcontents := presentedContents_perm hperm
  have hiff : imageAdmission.AdmitsAll db images ↔ imageAdmission.AdmitsAll db reordered := by
    have haccepted : (∀ presented ∈ images, presented.Accepted) ↔
        ∀ presented ∈ reordered, presented.Accepted :=
      forall_congr' fun presented => by rw [hperm.mem_iff]
    have hhandles : (db.handles ++ presentedHandles images).Perm
        (db.handles ++ presentedHandles reordered) := (hperm.flatMap_right _).append_left _
    rw [imagesAdmitted_iff hnodup, imagesAdmitted_iff hnodup, haccepted, hhandles.nodup_iff]
    have htakes : db.TakesContents (presentedContents images) ↔
        db.TakesContents (presentedContents reordered) :=
      ⟨fun htakes => htakes.perm hcontents,
        fun htakes => htakes.perm (presentedContents_perm hperm.symm)⟩
    rw [htakes]
  refine ⟨hiff, fun hadmits => ?_⟩
  have hfirst := parseAll_contents hnodup hadmits
  have hsecond := parseAll_contents hnodup (hiff.mp hadmits)
  refine indistinguishable_of_perm ?_ ((parseAll_extends db images).nodup hnodup)
  rw [hfirst, hsecond]
  exact hcontents.append_left db.contents

/-- One RESOURCE record of another provider than those of `mixedImage`. -/
def otherProviderImage : Memory := Memory.ofList [
  0x41, 0x54, 0x44, 0x58, 0x01, 0x00, 0x00, 0x00, 0x48, 0x00, 0x00, 0x00, 0x02, 0x00, 0x00, 0x00,
  0x04, 0x00, 0x00, 0x00, 0x00, 0x00, 0x00, 0x00, 0x31, 0xF0, 0x30, 0x1B, 0xFE, 0xB6, 0xD5, 0x28,
  0x01, 0x00, 0x01, 0x00, 0x20, 0x00, 0x00, 0x00, 0x00, 0x20, 0x01, 0x00, 0x00, 0x00, 0x00, 0x00,
  0x01, 0x00, 0x00, 0x00, 0x00, 0x20, 0x04, 0x00, 0x04, 0x00, 0x00, 0x00, 0x01, 0x00, 0x00, 0x00,
  0xFF, 0xFF, 0x01, 0x00, 0x08, 0x00, 0x00, 0x00]

/-- The image of three records and the image of one, presented either way round. -/
theorem enumeration_order_free_two :
    (parseAll (DatabaseSupply.database ⟨⟨true, 2⟩, ⟨true, 1⟩, ⟨false, 0⟩, ⟨false, 0⟩⟩)
        [(some otherProviderImage, 72), (some mixedImage, 120)]).Indistinguishable
      (parseAll (DatabaseSupply.database ⟨⟨true, 2⟩, ⟨true, 1⟩, ⟨false, 0⟩, ⟨false, 0⟩⟩)
        [(some mixedImage, 120), (some otherProviderImage, 72)]) := by
  have hfree := enumeration_order_free ⟨⟨true, 2⟩, ⟨true, 1⟩, ⟨false, 0⟩, ⟨false, 0⟩⟩ []
    [(some otherProviderImage, 72), (some mixedImage, 120)]
    [(some mixedImage, 120), (some otherProviderImage, 72)] (List.Perm.swap _ _ _)
  apply hfree.2
  refine ⟨?_, ?_, trivial⟩
  · change (discoveryParse _ _ _).value.1 = DiscoveryResult.ok
    decide +kernel
  · change (discoveryParse _ _ _).value.1 = DiscoveryResult.ok
    decide +kernel

end Atarix
