import NpcScript.Catalog.Item
import NpcScript.Catalog.Skill
import NpcScript.Toml.Document

/-!
# Catalog files

Items and skills come in TOML files, as two arrays of tables that may stand in one file:

```
[[items]]
id = 2763
name = "pick-axe"

[[skills]]
name = "mining"
group = "crafting"
```

Both arrays may be left out, and what else a file holds is ignored. Instead of a table an array with
the values in this order may stand for an item or a skill.
-/

namespace NpcScript

open Toml (Value)

inductive CatalogError where
  /-- The file is no TOML, or an item or skill in it is not of the right form. -/
  | malformed
  | duplicateItem (id : Nat)
  deriving DecidableEq

/-- The error about an item number in words; what is wrong with a malformed file is not told. -/
def CatalogError.message? : CatalogError → Option String
  | malformed => none
  | duplicateItem id => some s!"duplicate item id {id} in catalog"

structure CatalogFile where
  items : List Item
  skills : List Skill
  deriving DecidableEq

namespace CatalogFile

def text? : Value → Option String
  | .text s => some s
  | _ => none

/-- A value as the number of an item, which has 16 bits. -/
def itemId? : Value → Option Nat
  | .integer n => if 0 ≤ n ∧ n ≤ 65535 then some n.toNat else none
  | _ => none

def item? : Value → Option Item
  | .table entries => do
    return ⟨← itemId? (← entries.lookup "id"), ← text? (← entries.lookup "name")⟩
  | .array (id :: name :: _) => do return ⟨← itemId? id, ← text? name⟩
  | _ => none

def skill? : Value → Option Skill
  | .table entries => do
    return ⟨← text? (← entries.lookup "name"), ← (entries.lookup "group").mapM text?⟩
  | .array (name :: others) => do return ⟨← text? name, ← others.head?.mapM text?⟩
  | _ => none

/-- The array under a key, each element taken by itself; empty if the key is missing. -/
def elements? {α : Type} (entries : List (String × Value)) (key : String)
    (element? : Value → Option α) : Option (List α) :=
  match entries.lookup key with
  | none => some []
  | some (.array elements) => elements.mapM element?
  | some _ => none

def parse (text : String) : Except CatalogError CatalogFile :=
  let file? : Option CatalogFile := do
    let entries ← Toml.parse text
    return ⟨← elements? entries "items" item?, ← elements? entries "skills" skill?⟩
  match file? with
  | some file => .ok file
  | none => .error .malformed

end CatalogFile

/-- The item catalog of a file. No number may be given twice. -/
def ItemCatalog.parse (text : String) : Except CatalogError ItemCatalog := do
  let file ← CatalogFile.parse text
  match ItemCatalog.ofDistinct file.items with
  | .ok catalog => return catalog
  | .error id => throw (.duplicateItem id)

def SkillCatalog.parse (text : String) : Except CatalogError SkillCatalog := do
  return .ofList (← CatalogFile.parse text).skills

end NpcScript
