import NpcScript.Catalog.Item
import NpcScript.Npc.Operator
import NpcScript.Npc.World

/-!
# Dialogue lines

An NPC answers when a player says a trigger phrase. A dialogue line names the phrase, the conditions
that must hold and the consequences that then follow, in order.
-/

namespace NpcScript

structure Position where
  x : Int
  y : Int
  z : Int
  deriving DecidableEq

/-- The number on the right of an operator: a literal, the number the player said, or an expression
that is kept as written for the game to evaluate. -/
inductive Quantity where
  | literal (value : Int)
  | saidNumber
  | expression (text : String)
  deriving DecidableEq

namespace Quantity

def literal? : Quantity → Option Int
  | literal value => some value
  | _ => none

def render : Quantity → String
  | literal value => toString value
  | saidNumber => "%NUMBER"
  | expression text => "expr(" ++ text ++ ")"

end Quantity

inductive Condition where
  | isAdmin
  | attrib (stat : CharacterAttribute) (op : CompareOperator) (value : Quantity)
  /-- Holds in so many cases of a hundred. -/
  | chance (percent : Nat)
  | item (item : Item) (location : ItemLocation) (op : CompareOperator) (value : Quantity)
  | magicType (magic : MagicType)
  | money (op : CompareOperator) (value : Quantity)
  /-- Compares the number the player said. -/
  | number (op : CompareOperator) (value : Quantity)
  | questStatus (quest : Nat) (op : CompareOperator) (value : Quantity)
  | race (race : Race) (negated : Bool)
  | rank (op : CompareOperator) (value : Quantity)
  | sex (sex : Sex) (negated : Bool)
  | skill (skill : String) (op : CompareOperator) (value : Quantity)
  | state (op : CompareOperator) (value : Quantity)
  | talkMode (mode : TalkMode)
  | talkState (state : TalkState)
  | town (town : Town) (negated : Bool)
  /-- The language the player reads. -/
  | locale (locale : Locale)
  /-- The language the player speaks in the game. -/
  | language (language : Language)
  deriving DecidableEq

inductive Consequence where
  | arena (task : ArenaTask)
  | attrib (stat : CharacterAttribute) (op : CalculationOperator) (value : Quantity)
  | deleteItem (item : Item) (amount : Quantity)
  | gemCraft
  | inform (text : String)
  | introduce
  | item (item : Item) (amount : Quantity) (quality : Option Nat)
  | money (op : CalculationOperator) (value : Quantity)
  | questStatus (quest : Nat) (op : CalculationOperator) (value : Quantity)
  | rankPoints (op : CalculationOperator) (value : Quantity)
  | repair
  | rune (runeClass : Nat) (number : Nat)
  | skill (skill : String) (op : CalculationOperator) (value : Quantity)
  | state (op : CalculationOperator) (value : Quantity)
  | town (town : Town)
  | trade
  /-- Hands out a treasure map of a level. -/
  | treasure (level : Nat)
  | warp (target : Position)
  | talkState (state : TalkState)
  | answer (text : String)
  deriving DecidableEq

/-- A trigger phrase, what must hold for it to work, and what it brings about. -/
structure DialogueLine where
  trigger : String
  conditions : List Condition
  consequences : List Consequence
  deriving DecidableEq

def DialogueLine.answers (line : DialogueLine) : List String :=
  line.consequences.filterMap fun
    | .answer text => some text
    | _ => none

end NpcScript
