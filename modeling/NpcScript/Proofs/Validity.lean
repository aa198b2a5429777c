import NpcScript.Context
import NpcScript.Npc.Statement
import NpcScript.Proofs.Text.Nesting

/-!
Valid statements. A script can only state what the game can make use of: items and skills that the
context knows, numbers in the ranges of their places, and expressions that can be put into
parentheses again. What is valid is said here of everything a document can hold, from the single
number up to the statement; how statements are read plays no part in it.
-/

namespace NpcScript

open Text

/-- The item that the context knows by its number, which has at most four digits. -/
structure Item.IsValid (context : Context) (item : Item) : Prop where
  id_le : item.id ≤ 9999
  find? : context.items.find? item.id = some item

/-- The name of a skill in the spelling of the context, which finds it under this name. -/
def Skill.IsValidName (context : Context) (name : String) : Prop :=
  ∃ skill, context.skills.find? name.toList = some skill ∧ skill.name = name

def IsCoordinate (value : Int) : Prop :=
  -32768 ≤ value ∧ value ≤ 32767

structure Position.IsValid (position : Position) : Prop where
  x : IsCoordinate position.x
  y : IsCoordinate position.y
  z : IsCoordinate position.z

/-- An expression is a balanced text of at least one character and no blanks around it. -/
structure IsExpression (text : List Char) : Prop where
  ne_nil : text ≠ []
  isTrimmed : IsTrimmed text
  isBalanced : IsBalanced text

def Quantity.IsValid : Quantity → Prop
  | .literal value => -9223372036854775808 ≤ value ∧ value ≤ 9223372036854775807
  | .saidNumber => True
  | .expression text => IsExpression text.toList

variable (context : Context)

def Condition.IsValid : Condition → Prop
  | .chance percent => percent ≤ 100
  | .item found _ _ value => found.IsValid context ∧ value.IsValid
  | .questStatus quest _ value => quest ≤ 65535 ∧ value.IsValid
  | .skill name _ value => Skill.IsValidName context name ∧ value.IsValid
  | .attrib _ _ value | .money _ value | .number _ value | .rank _ value | .state _ value =>
    value.IsValid
  | .isAdmin | .magicType _ | .race _ _ | .sex _ _ | .talkMode _ | .talkState _ | .town _ _
  | .locale _ | .language _ => True

def Consequence.IsValid : Consequence → Prop
  | .deleteItem found amount => found.IsValid context ∧ amount.IsValid
  | .item found amount quality =>
    found.IsValid context ∧ amount.IsValid ∧ ∀ value, quality = some value → value ≤ 999
  | .questStatus quest _ value => quest ≤ 65535 ∧ value.IsValid
  | .rune runeClass number => runeClass ≤ 255 ∧ number ≤ 255
  | .skill name _ value => Skill.IsValidName context name ∧ value.IsValid
  | .treasure level => 1 ≤ level ∧ level ≤ 9
  | .warp target => target.IsValid
  | .attrib _ _ value | .money _ value | .rankPoints _ value | .state _ value => value.IsValid
  | .arena _ | .gemCraft | .inform _ | .introduce | .repair | .town _ | .trade | .talkState _
  | .answer _ => True

structure DialogueLine.IsValid (line : DialogueLine) : Prop where
  conditions : ∀ condition ∈ line.conditions, condition.IsValid context
  consequences : ∀ consequence ∈ line.consequences, consequence.IsValid context

def Identity.IsValid : Identity → Prop
  | .position place => place.IsValid
  | _ => True

structure Color.IsValid (color : Color) : Prop where
  red : color.red ≤ 255
  green : color.green ≤ 255
  blue : color.blue ≤ 255

def Appearance.IsValid : Appearance → Prop
  | .hairId id | .beardId id => id ≤ 255
  | .skinColor color | .hairColor color => color.IsValid

structure TradedItem.IsValid (traded : TradedItem) : Prop where
  item : traded.item.IsValid context
  price : ∀ amount, traded.price = some amount → amount ≤ 999999999
  stackSize : ∀ count, traded.stackSize = some count → 1 ≤ count ∧ count ≤ 1000
  quality : ∀ value, traded.quality = some value → value ≤ 999

/-- A list of items that are traded names at least one. -/
def Trade.IsValid : Trade → Prop
  | .simple _ items => items ≠ [] ∧ ∀ item ∈ items, item.IsValid context
  | .complex traded => traded.IsValid context
  | .message _ _ => True

def Guard.IsValid : Guard → Prop
  | .range north south west east => north ≤ 255 ∧ south ≤ 255 ∧ west ≤ 255 ∧ east ≤ 255
  | .warpTarget target => target.IsValid
  | .text _ _ => True

/-- The number 0 stands for an empty place of the body, so no equipped item has it. -/
def Statement.IsValid : Statement → Prop
  | .identity fact => fact.IsValid
  | .appearance fact => fact.IsValid
  | .equipment _ item => ∀ worn, item = some worn → worn.IsValid context ∧ worn.id ≠ 0
  | .trade fact => fact.IsValid context
  | .guard fact => fact.IsValid
  | .dialogue line => line.IsValid context
  | .comment text => IsTrimmed text.toList
  | .cycleText _ | .emptyLine => True

end NpcScript
