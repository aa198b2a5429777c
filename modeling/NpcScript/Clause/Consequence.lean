import NpcScript.Clause.Form
import NpcScript.Keyword

/-!
# Clauses as consequences

What each consequence keyword makes of the rest of its clause.
-/

namespace NpcScript

open Grammar (KeywordClause Argument)

namespace Consequence

def scalar (make : CalculationOperator → Quantity → Consequence) (clause : KeywordClause) :
    Except Issue Consequence := do
  let (op, value) ← (← clause.bareOperation).calculate clause.keyword.text
  return make op value

def equation (α : Type) [Vocabulary α] (field : String) (make : α → Consequence)
    (clause : KeywordClause) : Except Issue Consequence := do
  return make (← (← clause.bareOperation).equation clause.keyword.text α field)

def ofClause (context : Context) (keyword : ConsequenceKeyword) (clause : KeywordClause) :
    Except Issue Consequence :=
  match keyword with
  | .gemCraft => (fun _ => gemCraft) <$> clause.alone
  | .introduce => (fun _ => introduce) <$> clause.alone
  | .repair => (fun _ => repair) <$> clause.alone
  | .trade => (fun _ => trade) <$> clause.alone
  | .arena => do
    let reason := "expects a task: `arena(getStats)`"
    clause.noComparison reason
    return arena (← (← clause.oneArgument reason).member ArenaTask "arena task")
  | .inform => do
    let reason := "expects a quoted text: `inform(\"...\")`"
    clause.noComparison reason
    match ← clause.oneArgument reason with
    | .quoted source => return inform (String.ofList (Text.unquote source.text))
    | _ => throw (clause.invalid reason)
  | .treasure => do
    let reason := "expects a level: `treasure(3)`"
    clause.noComparison reason
    return treasure (← clause.natural .treasureLevel (← clause.oneArgument reason))
  | .rune => do
    let reason := "expects a class and a number: `rune(1, 5)`"
    clause.noComparison reason
    match clause.argumentList with
    | [first, second] =>
      let runeClass ← clause.natural .runeClass first
      let number ← clause.natural .runeNumber second
      return rune runeClass number
    | _ => throw (clause.invalid reason)
  | .warp => do
    let reason := "expects coordinates: `warp(x, y, z)`"
    clause.noComparison reason
    match clause.argumentList with
    | [first, second, third] =>
      let x ← clause.integer .coordinateX first
      let y ← clause.integer .coordinateY second
      let z ← clause.integer .coordinateZ third
      return warp ⟨x, y, z⟩
    | _ => throw (clause.invalid reason)
  | .deleteItem => do
    let reason := "expects an item id and an amount: `deleteItem(23, 1)`"
    clause.noComparison reason
    match clause.argumentList with
    | [first, second] =>
      let found ← clause.item context first
      let amount ← clause.amount second
      return deleteItem found amount
    | _ => throw (clause.invalid reason)
  | .item => do
    let reason :=
      "expects an item id, an amount and an optional quality: `item(23, 1, 333)`"
    clause.noComparison reason
    let (first, second, third) : Argument × Argument × Option Argument ←
      match clause.argumentList with
      | [first, second] => pure (first, second, none)
      | [first, second, third] => pure (first, second, some third)
      | _ => throw (clause.invalid reason)
    let found ← clause.item context first
    let amount ← clause.amount second
    let quality ← third.mapM (clause.natural .itemQuality)
    return item found amount quality
  | .attrib => do
    let argument ← clause.oneArgument "expects an attribute: `attrib(hitpoints) += 1000`"
    let stat ← argument.member CharacterAttribute "attribute"
    let (op, value) ← (← clause.operation).calculate clause.keyword.text
    return attrib stat op value
  | .skill => do
    let argument ← clause.oneArgument "expects a skill name: `skill(mining) += 1`"
    let found ← argument.skill context
    let (op, value) ← (← clause.operation).calculate clause.keyword.text
    return skill found op value
  | .questStatus => do
    let argument ← clause.oneArgument "expects a quest id: `queststatus(101) = 3`"
    let quest ← clause.natural .questId argument
    let (op, value) ← (← clause.operation).calculate clause.keyword.text
    return questStatus quest op value
  | .money => scalar money clause
  | .rankPoints => scalar rankPoints clause
  | .state => scalar state clause
  | .town => equation Town "town" town clause
  | .talkState => equation TalkState "talk state" talkState clause

end Consequence

end NpcScript
