import Atarix.Discovery.Format

/-! # The discovery database

Caller-owned arrays with a capacity and a count. An array that is present carries
the entries below its count; a NULL array carries none.
-/

namespace Atarix

structure ResourceEntry where
  handle : DiscoveryHandle
  resourceType : BitVec 16
  resourceVersion : BitVec 16
  resourceFlags : BitVec 32
  providerId : BitVec 32
  instanceId : BitVec 32
deriving DecidableEq, Repr

structure ServiceEntry where
  handle : DiscoveryHandle
  serviceId : BitVec 16
  serviceVersion : BitVec 16
  serviceFlags : BitVec 32
  providerId : BitVec 32
  instanceId : BitVec 32
deriving DecidableEq, Repr

structure DependencyEntry where
  consumerHandle : DiscoveryHandle
  providerHandle : DiscoveryHandle
  dependencyType : BitVec 16
  dependencyVersion : BitVec 16
  dependencyFlags : BitVec 32
deriving DecidableEq, Repr

structure InstrumentationEntry where
  handle : DiscoveryHandle
  observedHandle : DiscoveryHandle
  instrumentationType : BitVec 16
  instrumentationVersion : BitVec 16
  instrumentationFlags : BitVec 32
deriving DecidableEq, Repr

/-- One array of the database: `none` is the NULL pointer, a list the entries
below the count. -/
structure EntryArray (Entry : Type) where
  entries : Option (List Entry)
  capacity : Nat
deriving DecidableEq, Repr

namespace EntryArray

variable {Entry : Type}

/-- `count >= capacity || !array`, negated. -/
def HasRoom (array : EntryArray Entry) : Prop :=
  ∃ entries, array.entries = some entries ∧ entries.length < array.capacity

instance (array : EntryArray Entry) : Decidable array.HasRoom :=
  match hentries : array.entries with
  | none => isFalse fun ⟨_, hsome, _⟩ => by simp [hentries] at hsome
  | some entries =>
      if hlt : entries.length < array.capacity then isTrue ⟨entries, hentries, hlt⟩
      else isFalse fun ⟨_, hsome, hroom⟩ => by
        rw [hentries, Option.some.injEq] at hsome
        exact hlt (hsome ▸ hroom)

/-- The array with an entry stored at its count. -/
def append (array : EntryArray Entry) (entry : Entry) : EntryArray Entry :=
  { array with entries := array.entries.map (· ++ [entry]) }

/-- The entries a search visits. -/
def visible (array : EntryArray Entry) : List Entry := array.entries.getD []

theorem visible_append {array : EntryArray Entry} (hroom : array.HasRoom) (entry : Entry) :
    (array.append entry).visible = array.visible ++ [entry] := by
  obtain ⟨entries, hentries, -⟩ := hroom
  simp [visible, append, hentries]

/-- An entry adds what a search sees in it. -/
theorem mem_map_append {array : EntryArray Entry} (hroom : array.HasRoom) {Key : Type}
    (key : Entry → Key) (entry : Entry) (sought : Key) :
    sought ∈ (array.append entry).visible.map key ↔
      sought ∈ array.visible.map key ∨ sought = key entry := by
  rw [visible_append hroom, List.map_append, List.mem_append, List.map_singleton,
    List.mem_singleton]

/-- The array takes `count` more entries. -/
def Holds (array : EntryArray Entry) (count : Nat) : Prop :=
  ∃ entries, array.entries = some entries ∧ entries.length + count ≤ array.capacity

theorem Holds.hasRoom {array : EntryArray Entry} {count : Nat} (hholds : array.Holds (count + 1)) :
    array.HasRoom := by
  obtain ⟨entries, hentries, hle⟩ := hholds
  exact ⟨entries, hentries, by omega⟩

theorem Holds.append {array : EntryArray Entry} {count : Nat} (hholds : array.Holds (count + 1))
    (entry : Entry) : (array.append entry).Holds count := by
  obtain ⟨entries, hentries, hle⟩ := hholds
  refine ⟨entries ++ [entry], by simp [EntryArray.append, hentries], ?_⟩
  simp only [List.length_append, List.length_singleton, EntryArray.append]
  omega

theorem Holds.of_succ {array : EntryArray Entry} {count : Nat} (hholds : array.Holds (count + 1)) :
    array.Holds count := by
  obtain ⟨entries, hentries, hle⟩ := hholds
  exact ⟨entries, hentries, by omega⟩

/-- The array with entries stored one behind the other at its count. -/
def appendAll (array : EntryArray Entry) (added : List Entry) : EntryArray Entry :=
  { array with entries := array.entries.map (· ++ added) }

@[simp] theorem appendAll_nil (array : EntryArray Entry) : array.appendAll [] = array := by
  simp [appendAll]

@[simp] theorem appendAll_append (array : EntryArray Entry) (entry : Entry) (added : List Entry) :
    (array.append entry).appendAll added = array.appendAll (entry :: added) := by
  simp [appendAll, append, Function.comp_def]

/-- The array takes `count` entries one after the other; none need no array. -/
def Takes (array : EntryArray Entry) (count : Nat) : Prop := count = 0 ∨ array.Holds count

theorem takes_zero (array : EntryArray Entry) : array.Takes 0 := Or.inl rfl

theorem takes_succ (array : EntryArray Entry) (entry : Entry) (count : Nat) :
    array.Takes (count + 1) ↔ array.HasRoom ∧ (array.append entry).Takes count := by
  constructor
  · intro htakes
    have hholds := htakes.resolve_left (Nat.succ_ne_zero count)
    exact ⟨hholds.hasRoom, Or.inr (hholds.append entry)⟩
  · rintro ⟨⟨entries, hentries, hlt⟩, htakes⟩
    refine Or.inr ⟨entries, hentries, ?_⟩
    rcases htakes with rfl | ⟨appended, happended, hle⟩
    · exact hlt
    · obtain rfl : entries ++ [entry] = appended := by simpa [append, hentries] using happended
      simp only [List.length_append, List.length_singleton, append] at hle
      omega

end EntryArray

/-- `atarix_discovery_database_t`. -/
@[ext] structure DiscoveryDatabase where
  resources : EntryArray ResourceEntry
  services : EntryArray ServiceEntry
  dependencies : EntryArray DependencyEntry
  instrumentation : EntryArray InstrumentationEntry
deriving DecidableEq, Repr

def discoveryDatabaseInit : DiscoveryDatabase where
  resources := ⟨none, 0⟩
  services := ⟨none, 0⟩
  dependencies := ⟨none, 0⟩
  instrumentation := ⟨none, 0⟩

def discoveryDatabaseContainsHandle (db : DiscoveryDatabase) (handle : DiscoveryHandle) : Bool :=
  db.resources.visible.any (·.handle = handle) ||
    db.services.visible.any (·.handle = handle) ||
    db.instrumentation.visible.any (·.handle = handle)

/-- `none` is the NULL database, or the NULL entry. -/
def discoveryFindResource (db : Option DiscoveryDatabase) (handle : DiscoveryHandle) :
    Option ResourceEntry := do
  let db ← db
  let entries ← db.resources.entries
  entries.find? (·.handle = handle)

def discoveryFindService (db : Option DiscoveryDatabase) (handle : DiscoveryHandle) :
    Option ServiceEntry := do
  let db ← db
  let entries ← db.services.entries
  entries.find? (·.handle = handle)

namespace DiscoveryDatabase

/-- The handles a new record must not repeat. -/
def handles (db : DiscoveryDatabase) : List DiscoveryHandle :=
  db.resources.visible.map (·.handle) ++ db.services.visible.map (·.handle) ++
    db.instrumentation.visible.map (·.handle)

theorem containsHandle_iff (db : DiscoveryDatabase) (handle : DiscoveryHandle) :
    discoveryDatabaseContainsHandle db handle ↔ handle ∈ db.handles := by
  simp [discoveryDatabaseContainsHandle, handles, or_assoc]

/-- An empty database whose arrays each hold `capacity` entries. -/
def empty (capacity : Nat) : DiscoveryDatabase where
  resources := ⟨some [], capacity⟩
  services := ⟨some [], capacity⟩
  dependencies := ⟨some [], capacity⟩
  instrumentation := ⟨some [], capacity⟩

/-- Each array takes `count` more entries. -/
structure Holds (db : DiscoveryDatabase) (count : Nat) : Prop where
  resources : db.resources.Holds count
  services : db.services.Holds count
  dependencies : db.dependencies.Holds count
  instrumentation : db.instrumentation.Holds count

theorem empty_holds (capacity : Nat) : (empty capacity).Holds capacity := by
  constructor <;> exact ⟨[], rfl, by simp [empty]⟩

end DiscoveryDatabase

end Atarix
