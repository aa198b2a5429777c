import NpcScript.Catalog.Item
import NpcScript.Catalog.Skill
import NpcScript.Number
import NpcScript.Vocabulary

/-!
# The context of a script

What a script is read against: the items and skills that exist, and the words for what is wrong. The
functions of this module look up what a script names and give the issue where it names nothing.
-/

namespace NpcScript

/-- The items and skills that a script may name, and how causes are put into words. -/
structure Context where
  items : ItemCatalog
  skills : SkillCatalog
  describe : Cause → String := Cause.message

namespace Context

/-- Looks up the item whose number is written at a column. The message about a number that no item
has quotes `source`. -/
def item (context : Context) (source : List Char) (column : Nat) (text : List Char) :
    Except Issue Item := do
  let id := (← NumericPlace.itemId.read column text).toNat
  match context.items.find? id with
  | some item => return item
  | none => throw (.atColumn column (.unknownItem id (String.ofList (Text.trim source))))

/-- Looks up the skill that is named at a column, and answers the spelling of the catalog. -/
def skill (context : Context) (column : Nat) (name : List Char) : Except Issue String :=
  match context.skills.find? name with
  | some skill => .ok skill.name
  | none => .error (.atColumn column (.unknownSkill (String.ofList name)))

end Context

def Vocabulary.resolve (α : Type) [Vocabulary α] (field : String) (column : Nat)
    (token : List Char) : Except Issue α :=
  match ofToken? α token with
  | some a => .ok a
  | none =>
    .error (.atColumn column (.unknownToken field (String.ofList (Text.trim token)) (listing α)))

end NpcScript
