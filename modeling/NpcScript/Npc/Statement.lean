import NpcScript.Npc.Identity

/-!
# Statements

What a script can state about its NPC. Each line of a script makes one statement; comments and empty
lines are kept so that the script can be written out again.
-/

namespace NpcScript

/-- A colour, with components from 0 to 255. -/
structure Color where
  red : Nat
  green : Nat
  blue : Nat
  deriving DecidableEq

structure LocalizedText where
  german : String
  english : String
  deriving DecidableEq

def LocalizedText.get (text : LocalizedText) : Locale → String
  | .german => text.german
  | .english => text.english

inductive Appearance where
  | hairId (id : Nat)
  | beardId (id : Nat)
  | skinColor (color : Color)
  | hairColor (color : Color)
  deriving DecidableEq

/-- An item that a trader deals in on terms of its own. What is not given is left to the game. -/
structure TradedItem where
  mode : TradeMode
  item : Item
  germanName : Option String := none
  englishName : Option String := none
  price : Option Nat := none
  stackSize : Option Nat := none
  quality : Option Nat := none
  /-- Data kept with the item, in the order in which it was written. -/
  data : List (String × String) := []
  deriving DecidableEq

inductive Trade where
  | simple (mode : TradeMode) (items : List Item)
  | complex (item : TradedItem)
  | message (kind : TradeMessageKind) (text : LocalizedText)
  deriving DecidableEq

inductive Guard where
  /-- How far the guard watches to each side, in tiles. -/
  | range (north south west east : Nat)
  | warpTarget (target : Position)
  | text (kind : GuardTextKind) (text : LocalizedText)
  deriving DecidableEq

inductive Statement where
  | identity (fact : Identity)
  | appearance (fact : Appearance)
  /-- An item in a place of the body; no item means that the place is to stay empty. -/
  | equipment (slot : EquipmentSlot) (item : Option Item)
  | trade (fact : Trade)
  | guard (fact : Guard)
  /-- A text that the NPC says by itself from time to time. -/
  | cycleText (text : LocalizedText)
  | dialogue (line : DialogueLine)
  | comment (text : String)
  | emptyLine
  deriving DecidableEq

def Statement.slot : Statement → Option Slot
  | identity fact => fact.slot
  | _ => none

end NpcScript
