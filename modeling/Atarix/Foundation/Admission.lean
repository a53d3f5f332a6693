import Mathlib.Tactic.Common

/-! # Offering items to a store

A store takes items one after the other until it refuses one. What it holds then
is what the items before the refused one make of it.
-/

/-- When a store takes an item, and the store that has taken it. -/
structure Admission (Store Item : Type*) where
  Admits : Store → Item → Prop
  insert : Store → Item → Store

namespace Admission

variable {Store Item : Type*} (admission : Admission Store Item)

/-- The store with all the items. -/
def insertAll (store : Store) (items : List Item) : Store := items.foldl admission.insert store

@[simp] theorem insertAll_nil (store : Store) : admission.insertAll store [] = store := rfl

@[simp] theorem insertAll_cons (store : Store) (item : Item) (items : List Item) :
    admission.insertAll store (item :: items) =
      admission.insertAll (admission.insert store item) items := rfl

/-- Every item is taken when its turn comes. -/
def AdmitsAll : Store → List Item → Prop
  | _, [] => True
  | store, item :: rest =>
    admission.Admits store item ∧ AdmitsAll (admission.insert store item) rest

/-- The items before `refused` are taken, and it is not. -/
structure Refuses (store : Store) (stored : List Item) (refused : Item) : Prop where
  admitted : admission.AdmitsAll store stored
  refused : ¬ admission.Admits (admission.insertAll store stored) refused

variable {admission} {store : Store} {item refused : Item} {stored : List Item}

theorem Refuses.here (hrefused : ¬ admission.Admits store refused) :
    admission.Refuses store [] refused :=
  ⟨trivial, hrefused⟩

theorem Refuses.cons (hadmits : admission.Admits store item)
    (hrefuses : admission.Refuses (admission.insert store item) stored refused) :
    admission.Refuses store (item :: stored) refused :=
  ⟨⟨hadmits, hrefuses.admitted⟩, hrefuses.refused⟩

end Admission
