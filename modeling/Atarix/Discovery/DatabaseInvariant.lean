import Atarix.Discovery.Storing

/-! # What parsing keeps of the database

A parse either leaves the database or appends one entry at a time to one of its
arrays, each with room for it and, where it has a handle of its own, a new one.
So the arrays only grow, whatever images are parsed and however they end.
-/

namespace Atarix

/-- A later state of an array: the same storage, with entries appended. -/
structure EntryArray.Extends {Entry : Type} (array next : EntryArray Entry) : Prop where
  capacity : next.capacity = array.capacity
  present : next.entries.isSome = array.entries.isSome
  appended : array.visible <+: next.visible
  bounded : array.visible.length ≤ array.capacity → next.visible.length ≤ next.capacity

namespace EntryArray.Extends

variable {Entry : Type} {array next last : EntryArray Entry}

theorem refl (array : EntryArray Entry) : array.Extends array :=
  ⟨rfl, rfl, List.prefix_refl _, id⟩

theorem trans (hfirst : array.Extends next) (hsecond : next.Extends last) : array.Extends last where
  capacity := hsecond.capacity.trans hfirst.capacity
  present := hsecond.present.trans hfirst.present
  appended := hfirst.appended.trans hsecond.appended
  bounded hbounded := hsecond.bounded (hfirst.bounded hbounded)

theorem append (hroom : array.HasRoom) (entry : Entry) : array.Extends (array.append entry) where
  capacity := rfl
  present := by simp [EntryArray.append]
  appended := by
    rw [visible_append hroom]
    exact List.prefix_append _ _
  bounded _ := by
    rw [visible_append hroom]
    obtain ⟨entries, hentries, hlt⟩ := hroom
    simp only [visible, hentries, Option.getD_some, List.length_append, List.length_singleton]
    exact hlt

end EntryArray.Extends

namespace DiscoveryDatabase

/-- A later state of the database. -/
structure Extends (db next : DiscoveryDatabase) : Prop where
  resources : db.resources.Extends next.resources
  services : db.services.Extends next.services
  dependencies : db.dependencies.Extends next.dependencies
  instrumentation : db.instrumentation.Extends next.instrumentation
  nodup : db.handles.Nodup → next.handles.Nodup

theorem Extends.refl (db : DiscoveryDatabase) : db.Extends db :=
  ⟨.refl _, .refl _, .refl _, .refl _, id⟩

theorem Extends.trans {db next last : DiscoveryDatabase} (hfirst : db.Extends next)
    (hsecond : next.Extends last) : db.Extends last where
  resources := hfirst.resources.trans hsecond.resources
  services := hfirst.services.trans hsecond.services
  dependencies := hfirst.dependencies.trans hsecond.dependencies
  instrumentation := hfirst.instrumentation.trans hsecond.instrumentation
  nodup hnodup := hsecond.nodup (hfirst.nodup hnodup)

end DiscoveryDatabase

variable {image : Memory} {imageSize record : Nat}

/-! ## One record -/

/-- An admitted record extends its array, by an entry whose handle is new. -/
theorem insert_extends {db : DiscoveryDatabase} (hadd : (recordAdmission image).Admits db record) :
    db.Extends (db.insert image record) := by
  obtain ⟨hnew, hroom⟩ := hadd
  have hnodup (hbefore : db.handles.Nodup) : (db.insert image record).handles.Nodup := by
    by_cases hcarries : CarriesHandle (recordType image record)
    · rw [(handles_insert_perm hcarries hroom).nodup_iff]
      exact List.nodup_cons.mpr ⟨hnew hcarries, hbefore⟩
    · rwa [handles_insert_of_not_carries hcarries]
  simp only [DiscoveryDatabase.RoomFor] at hroom
  simp only [DiscoveryDatabase.insert] at hnodup ⊢
  split_ifs at hroom hnodup ⊢
  · exact ⟨.append hroom _, .refl _, .refl _, .refl _, hnodup⟩
  · exact ⟨.refl _, .append hroom _, .refl _, .refl _, hnodup⟩
  · exact ⟨.refl _, .refl _, .append hroom _, .refl _, hnodup⟩
  · exact ⟨.refl _, .refl _, .refl _, .append hroom _, hnodup⟩
  · exact .refl db

theorem addRecord_extends (image : Memory) (record : Nat) (db : DiscoveryDatabase) :
    db.Extends (addRecord image record db).value.2 := by
  by_cases hadd : (recordAdmission image).Admits db record
  · rw [addRecord_of_admits hadd]
    exact insert_extends hadd
  · rw [addRecord_of_not_admits hadd]
    exact .refl db

/-! ## One parse -/

theorem discoveryParseStep_extends (image : Memory) (imageSize record : Nat)
    (db : DiscoveryDatabase) :
    db.Extends (discoveryParseStep image imageSize record db).value.1 := by
  simp only [discoveryParseStep, Traced.value_bind, Traced.value_ite, Traced.value_pure]
  split_ifs
  · exact .refl db
  · exact addRecord_extends image record db
  · cases discoveryNextRecord image imageSize record with
    | none => exact addRecord_extends image record db
    | some next => exact addRecord_extends image record db

theorem discoveryParseRecords_extends (image : Memory) (imageSize record : Nat)
    (db : DiscoveryDatabase) :
    db.Extends (discoveryParseRecords image imageSize record db).value.2 := by
  fun_induction discoveryParseRecords image imageSize record db
  case case1 record db step stored result hstep =>
      have hextends := discoveryParseStep_extends image imageSize record db
      rwa [hstep] at hextends
  case case2 record db step stored next hstep rest ih =>
      have hextends := discoveryParseStep_extends image imageSize record db
      rw [hstep] at hextends
      exact hextends.trans ih

/-- The database after a call, which is never given a NULL database here. -/
def parseInto (db : DiscoveryDatabase) (image : Option Memory) (imageSize : Nat) :
    DiscoveryDatabase :=
  (discoveryParse image imageSize (some db)).value.2.getD db

theorem parseInto_extends (db : DiscoveryDatabase) (image : Option Memory) (imageSize : Nat) :
    db.Extends (parseInto db image imageSize) := by
  by_cases hvalid : discoveryValidate image imageSize = .ok
  · cases image with
    | none => exact .refl db
    | some image =>
        rw [parseInto, discoveryParse_of_valid hvalid]
        exact discoveryParseRecords_extends image imageSize discoveryHeaderSizeV1 db
  · rw [parseInto, discoveryParse_of_refused hvalid]
    exact .refl db

/-! ## Any number of parses -/

/-- The database after calls on images with their sizes, in order. -/
def parseAll (db : DiscoveryDatabase) : List (Option Memory × Nat) → DiscoveryDatabase
  | [] => db
  | (image, imageSize) :: rest => parseAll (parseInto db image imageSize) rest

theorem parseAll_append (db : DiscoveryDatabase) (earlier later : List (Option Memory × Nat)) :
    parseAll db (earlier ++ later) = parseAll (parseAll db earlier) later := by
  induction earlier generalizing db with
  | nil => rfl
  | cons call rest ih => exact ih (parseInto db call.1 call.2)

theorem parseAll_extends (db : DiscoveryDatabase) (calls : List (Option Memory × Nat)) :
    db.Extends (parseAll db calls) := by
  induction calls generalizing db with
  | nil => exact .refl db
  | cons call rest ih => exact (parseInto_extends db call.1 call.2).trans (ih _)

/-- What a caller hands over for one array: NULL or an array, and a capacity. -/
structure ArraySupply where
  present : Bool
  capacity : Nat

def ArraySupply.entryArray {Entry : Type} (supply : ArraySupply) : EntryArray Entry :=
  ⟨if supply.present then some [] else none, supply.capacity⟩

structure DatabaseSupply where
  resources : ArraySupply
  services : ArraySupply
  dependencies : ArraySupply
  instrumentation : ArraySupply

/-- The initialised database with the arrays and capacities a caller sets. -/
def DatabaseSupply.database (supply : DatabaseSupply) : DiscoveryDatabase :=
  { discoveryDatabaseInit with
    resources := supply.resources.entryArray
    services := supply.services.entryArray
    dependencies := supply.dependencies.entryArray
    instrumentation := supply.instrumentation.entryArray }

/-- Each count is at most its capacity. -/
structure DiscoveryDatabase.Bounded (db : DiscoveryDatabase) : Prop where
  resources : db.resources.visible.length ≤ db.resources.capacity
  services : db.services.visible.length ≤ db.services.capacity
  dependencies : db.dependencies.visible.length ≤ db.dependencies.capacity
  instrumentation : db.instrumentation.visible.length ≤ db.instrumentation.capacity

theorem DiscoveryDatabase.Extends.bounded {db next : DiscoveryDatabase} (hextends : db.Extends next)
    (hbounded : db.Bounded) : next.Bounded where
  resources := hextends.resources.bounded hbounded.resources
  services := hextends.services.bounded hbounded.services
  dependencies := hextends.dependencies.bounded hbounded.dependencies
  instrumentation := hextends.instrumentation.bounded hbounded.instrumentation

theorem ArraySupply.visible_eq_nil {Entry : Type} (supply : ArraySupply) :
    (supply.entryArray : EntryArray Entry).visible = [] := by
  unfold entryArray EntryArray.visible
  cases supply.present <;> rfl

/-- What holds of a database between two calls: its handles are distinct, its
counts bounded, and what earlier calls stored is where they stored it. -/
structure DatabaseInvariant (before now : DiscoveryDatabase) : Prop where
  distinct : now.handles.Nodup
  bounded : now.Bounded
  resources : before.resources.visible <+: now.resources.visible
  services : before.services.visible <+: now.services.visible
  dependencies : before.dependencies.visible <+: now.dependencies.visible
  instrumentation : before.instrumentation.visible <+: now.instrumentation.visible

/-- The invariant holds after any calls, with respect to any earlier point. -/
theorem parseAll_invariant (supply : DatabaseSupply) (earlier later : List (Option Memory × Nat)) :
    DatabaseInvariant (parseAll supply.database earlier)
      (parseAll supply.database (earlier ++ later)) := by
  have hstart := parseAll_extends supply.database (earlier ++ later)
  have hlater := parseAll_extends (parseAll supply.database earlier) later
  rw [← parseAll_append] at hlater
  refine ⟨hstart.nodup ?_, hstart.bounded ?_, hlater.resources.appended, hlater.services.appended,
    hlater.dependencies.appended, hlater.instrumentation.appended⟩
  · simp [DiscoveryDatabase.handles, DatabaseSupply.database, ArraySupply.visible_eq_nil]
  · constructor <;> simp [DatabaseSupply.database, ArraySupply.visible_eq_nil]

end Atarix
