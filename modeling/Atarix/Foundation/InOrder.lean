import Mathlib.Data.List.Range
import Mathlib.Tactic.Common

/-! # Taking numbered items in order

A receiver takes an item exactly if its number is the next one. Of items that are
lost, repeated and reordered on the way it takes a first part of the stream, and all
of it if the stream itself is somewhere among them.
-/

namespace InOrder

variable {Item : Type*} {number : Item → Nat} {next : Nat} {items stream : List Item}

/-- The items taken, `next` being the number of the first one to take. -/
def taken (number : Item → Nat) : Nat → List Item → List Item
  | _, [] => []
  | next, item :: rest =>
      if number item = next then item :: taken number (next + 1) rest else taken number next rest

/-- Items numbered one after the other. -/
def Numbered (number : Item → Nat) (next : Nat) (stream : List Item) : Prop :=
  stream.map number = List.range' next stream.length

/-- Items numbered from `next` on come from the stream. -/
def From (number : Item → Nat) (next : Nat) (stream items : List Item) : Prop :=
  ∀ item ∈ items, next ≤ number item → item ∈ stream

theorem numbered_cons {first : Item} :
    Numbered number next (first :: stream) ↔
      number first = next ∧ Numbered number (next + 1) stream := by
  rw [Numbered, List.map_cons, List.length_cons, List.range'_succ, List.cons_eq_cons, Numbered]

theorem Numbered.bounds (hnumbered : Numbered number next stream) :
    ∀ item ∈ stream, next ≤ number item ∧ number item < next + stream.length := by
  intro item hitem
  have hmem : number item ∈ stream.map number := List.mem_map_of_mem hitem
  rwa [hnumbered, List.mem_range'_1] at hmem

/-- A stream from any of its items on is numbered too. -/
theorem numbered_append {skipped : List Item} :
    Numbered number next (skipped ++ stream) ↔
      Numbered number next skipped ∧ Numbered number (next + skipped.length) stream := by
  induction skipped generalizing next with
  | nil => simp [Numbered]
  | cons first rest ih =>
      rw [List.cons_append, numbered_cons, numbered_cons, ih, List.length_cons, and_assoc]
      have hnext : next + 1 + rest.length = next + (rest.length + 1) := by omega
      rw [hnext]

theorem From.cons {first : Item} (hfrom : From number next (first :: stream) items)
    (hfirst : number first = next) : From number (next + 1) stream items := by
  intro item hitem hle
  rcases List.mem_cons.mp (hfrom item hitem (by omega)) with rfl | hrest
  · omega
  · exact hrest

theorem From.tail {item : Item} (hfrom : From number next stream (item :: items)) :
    From number next stream items :=
  fun other hother => hfrom other (List.mem_cons_of_mem item hother)

/-- The next item is the first of the stream. -/
theorem From.head {item : Item} (hfrom : From number next stream (item :: items))
    (hnumbered : Numbered number next stream) (hnext : number item = next) :
    ∃ rest, stream = item :: rest := by
  have hitem := hfrom item List.mem_cons_self hnext.ge
  cases stream with
  | nil => cases hitem
  | cons first rest =>
      rcases List.mem_cons.mp hitem with rfl | hrest
      · exact ⟨rest, rfl⟩
      · have hlater := ((numbered_cons.mp hnumbered).2.bounds item hrest).1
        omega

/-- Items of a stream that are numbered behind one of its items come from behind it. -/
theorem Numbered.from_behind {skipped : List Item} {item : Item}
    (hnumbered : Numbered number next (skipped ++ item :: stream))
    (hfrom : ∀ other ∈ items, other ∈ skipped ++ item :: stream) :
    number item = next + skipped.length ∧ Numbered number (number item + 1) stream ∧
      From number (number item + 1) stream items := by
  obtain ⟨hskipped, hbehind⟩ := numbered_append.mp hnumbered
  obtain ⟨hitem, hstream⟩ := numbered_cons.mp hbehind
  rw [← hitem] at hstream
  refine ⟨hitem, hstream, fun other hother hle => ?_⟩
  rcases List.mem_append.mp (hfrom other hother) with hbefore | hafter
  · have hbound := (hskipped.bounds other hbefore).2
    omega
  · rcases List.mem_cons.mp hafter with rfl | hlater
    · omega
    · exact hlater

/-- By induction on the items: what is taken is a first part of the stream. -/
theorem taken_prefix (hnumbered : Numbered number next stream)
    (hfrom : From number next stream items) : taken number next items <+: stream := by
  induction items generalizing next stream with
  | nil => exact List.nil_prefix
  | cons item rest ih =>
      rw [taken]
      split_ifs with hnext
      · obtain ⟨later, rfl⟩ := hfrom.head hnumbered hnext
        rw [List.prefix_cons_inj]
        exact ih (numbered_cons.mp hnumbered).2 (hfrom.tail.cons hnext)
      · exact ih hnumbered hfrom.tail

/-- The whole stream is taken once it is among the items, in its order. -/
theorem taken_of_sublist (hnumbered : Numbered number next stream)
    (hfrom : From number next stream items) (hsublist : stream.Sublist items) :
    taken number next items = stream := by
  induction items generalizing next stream with
  | nil => exact (List.eq_nil_of_sublist_nil hsublist).symm
  | cons item rest ih =>
      rw [taken]
      split_ifs with hnext
      · obtain ⟨later, rfl⟩ := hfrom.head hnumbered hnext
        rw [ih (numbered_cons.mp hnumbered).2 (hfrom.tail.cons hnext)
          (List.cons_sublist_cons.mp hsublist)]
      · apply ih hnumbered hfrom.tail
        cases hsublist with
        | cons _ hrest => exact hrest
        | cons_cons _ hrest => exact absurd (numbered_cons.mp hnumbered).1 hnext

end InOrder
