import Mathlib.Data.List.Nodup
import Mathlib.Tactic.Common

/-! # Registries

A list of entries whose keys differ, with room for so many of them: an entry is
taken if its key is new and there is room, and is then found by its key for good.
-/

/-- Among entries with different keys, searching for a key finds its entry. -/
theorem List.find?_key_iff {Entry Key : Type*} [DecidableEq Key] {key : Entry → Key}
    {entries : List Entry} (hdistinct : (entries.map key).Nodup) (wanted : Key) (entry : Entry) :
    entries.find? (key · = wanted) = some entry ↔ entry ∈ entries ∧ key entry = wanted := by
  constructor
  · intro hfind
    exact ⟨List.mem_of_find?_eq_some hfind, by simpa using List.find?_some hfind⟩
  · rintro ⟨hentry, rfl⟩
    obtain ⟨found, hfind⟩ := Option.isSome_iff_exists.mp
      ((List.find?_isSome (p := (key · = key entry))).mpr ⟨entry, hentry, by simp⟩)
    have hmem := List.mem_of_find?_eq_some hfind
    have hkey : key found = key entry := by simpa using List.find?_some hfind
    rw [hfind, List.inj_on_of_nodup_map hdistinct hmem hentry hkey]

/-- Reordering entries with different keys does not change what a search finds. -/
theorem List.find?_key_perm {Entry Key : Type*} [DecidableEq Key] {key : Entry → Key}
    {entries reordered : List Entry} (hdistinct : (entries.map key).Nodup)
    (hperm : entries.Perm reordered) (wanted : Key) :
    entries.find? (key · = wanted) = reordered.find? (key · = wanted) := by
  have hreordered : (reordered.map key).Nodup := (hperm.map key).nodup_iff.mp hdistinct
  apply Option.ext
  intro entry
  rw [List.find?_key_iff hdistinct, List.find?_key_iff hreordered, hperm.mem_iff]

/-- Reordering entries does not change what a search for one of them finds. -/
theorem List.find?_perm {Entry : Type*} {wanted : Entry → Bool} {entries reordered : List Entry}
    (hperm : entries.Perm reordered) (honce : entries.countP wanted ≤ 1) :
    entries.find? wanted = reordered.find? wanted := by
  have hfilter := hperm.filter wanted
  rw [List.countP_eq_length_filter] at honce
  rw [← List.head?_filter, ← List.head?_filter]
  rcases hentries : entries.filter wanted with _ | ⟨entry, _ | ⟨second, rest⟩⟩
  · rw [hentries] at hfilter
    rw [hfilter.nil_eq]
  · rw [hentries] at hfilter
    rw [List.singleton_perm.mp hfilter]
  · rw [hentries] at honce
    simp at honce

/-- Values under different keys, at most `capacity` of them. -/
structure Registry (Key Value : Type*) (capacity : Nat) where
  entries : List (Key × Value)
  distinct : (entries.map Prod.fst).Nodup
  bounded : entries.length ≤ capacity

namespace Registry

variable {Key Value : Type*} {capacity : Nat}

def empty : Registry Key Value capacity := ⟨[], List.nodup_nil, Nat.zero_le _⟩

/-- The key is new and there is room for it. -/
def Admits (registry : Registry Key Value capacity) (key : Key) : Prop :=
  key ∉ registry.entries.map Prod.fst ∧ registry.entries.length < capacity

/-- The registry with one more entry. -/
def add (registry : Registry Key Value capacity) {key : Key} (value : Value)
    (hadmits : registry.Admits key) : Registry Key Value capacity where
  entries := registry.entries ++ [(key, value)]
  distinct := by
    rw [List.map_append, List.map_singleton, List.nodup_append_comm]
    exact List.nodup_cons.mpr ⟨hadmits.1, registry.distinct⟩
  bounded := by
    rw [List.length_append, List.length_singleton]
    exact hadmits.2

variable [DecidableEq Key]

def lookup (registry : Registry Key Value capacity) (key : Key) : Option Value :=
  (registry.entries.find? (Prod.fst · = key)).map Prod.snd

/-- A key is looked up to the value it was entered with. -/
theorem lookup_eq_some_iff (registry : Registry Key Value capacity) (key : Key) (value : Value) :
    registry.lookup key = some value ↔ (key, value) ∈ registry.entries := by
  rw [lookup, Option.map_eq_some_iff]
  constructor
  · rintro ⟨entry, hfind, rfl⟩
    obtain ⟨hmem, rfl⟩ := (List.find?_key_iff registry.distinct key entry).mp hfind
    exact hmem
  · intro hmem
    exact ⟨(key, value), (List.find?_key_iff registry.distinct key _).mpr ⟨hmem, rfl⟩, rfl⟩

theorem lookup_eq_none_iff (registry : Registry Key Value capacity) (key : Key) :
    registry.lookup key = none ↔ ∀ value, (key, value) ∉ registry.entries := by
  rw [Option.eq_none_iff_forall_ne_some]
  exact forall_congr' fun value => not_congr (registry.lookup_eq_some_iff key value)

end Registry
