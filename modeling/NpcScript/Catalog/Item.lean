import Std.Data.TreeMap

/-!
# Item catalogs

Scripts name items by number; a catalog says which numbers exist and what the items are called. It
holds one item per number and lists them by rising number, whatever order they came in.
-/

namespace NpcScript

structure Item where
  id : Nat
  name : String
  deriving DecidableEq

structure ItemCatalog where
  byId : Std.TreeMap Nat Item
  id_eq : ∀ {id : Nat} {item : Item}, byId[id]? = some item → item.id = id

namespace ItemCatalog

theorem id_eq_of_getElem?_empty {id : Nat} {item : Item}
    (h : ({} : Std.TreeMap Nat Item)[id]? = some item) : item.id = id := by
  simp at h

instance : EmptyCollection ItemCatalog where
  emptyCollection := ⟨{}, id_eq_of_getElem?_empty⟩

/-- The catalog with an item in it; an item of the same number gives way. -/
def insert (catalog : ItemCatalog) (item : Item) : ItemCatalog where
  byId := catalog.byId.insert item.id item
  id_eq := by
    intro id found h
    rw [Std.TreeMap.getElem?_insert] at h
    split at h
    · simp_all
    · exact catalog.id_eq h

/-- The catalog of a list of items. The last item of each number stays. -/
def ofList (items : List Item) : ItemCatalog :=
  items.foldl insert {}

def find? (catalog : ItemCatalog) (id : Nat) : Option Item :=
  catalog.byId[id]?

@[simp]
theorem find?_empty (id : Nat) : ({} : ItemCatalog).find? id = none :=
  Std.TreeMap.getElem?_emptyc

/-- An insertion changes what is found under one number only. -/
theorem find?_insert (catalog : ItemCatalog) (item : Item) (id : Nat) :
    (catalog.insert item).find? id = if item.id = id then some item else catalog.find? id := by
  simp [find?, insert, Std.TreeMap.getElem?_insert]

theorem id_eq_of_find? {catalog : ItemCatalog} {id : Nat} {item : Item}
    (h : catalog.find? id = some item) : item.id = id :=
  catalog.id_eq h

def size (catalog : ItemCatalog) : Nat :=
  catalog.byId.size

def toList (catalog : ItemCatalog) : List Item :=
  catalog.byId.values

/-- The first number of a list that already stood in it further ahead. -/
def firstRepeated? (seen : List Nat) : List Item → Option Nat
  | [] => none
  | item :: others =>
    if item.id ∈ seen then some item.id else firstRepeated? (item.id :: seen) others

/-- The catalog of a list in which no number may stand twice; a repeated number is the error. -/
def ofDistinct (items : List Item) : Except Nat ItemCatalog :=
  match firstRepeated? [] items with
  | some id => .error id
  | none => .ok (ofList items)

end ItemCatalog

end NpcScript
