import NpcScript.Clause.Form
import NpcScript.Keyword

/-!
# Clauses as conditions

What each condition keyword makes of the rest of its clause.
-/

namespace NpcScript

open Grammar (KeywordClause Argument)

namespace Condition

/-- The condition of a clause whose keyword is followed by an operator and a number only. -/
def scalar (make : CompareOperator → Quantity → Condition) (clause : KeywordClause) :
    Except Issue Condition := do
  let (op, value) ← (← clause.bareOperation).compare
  return make op value

/-- The condition of a clause whose keyword is followed by an equals sign and a word only. -/
def equation (α : Type) [Vocabulary α] (field : String) (make : α → Condition)
    (clause : KeywordClause) : Except Issue Condition := do
  return make (← (← clause.bareOperation).equation clause.keyword.text α field)

/-- The condition of a clause whose keyword is set equal to a word or said to differ from it. -/
def equationOrDenial (α : Type) [Vocabulary α] (field : String)
    (make : α → Bool → Condition) (clause : KeywordClause) : Except Issue Condition := do
  let (a, negated) ←
    (← clause.bareOperation).equationOrDenial clause.keyword.text α field
  return make a negated

def ofClause (context : Context) (keyword : ConditionKeyword) (clause : KeywordClause) :
    Except Issue Condition :=
  match keyword with
  | .isAdmin => (fun _ => isAdmin) <$> clause.alone
  | .english => (fun _ => locale .english) <$> clause.alone
  | .german => (fun _ => locale .german) <$> clause.alone
  | .chance => do
    let argument ← clause.oneArgument "expects a percentage: `chance(25)`"
    clause.noComparison "takes no operator"
    return chance (← clause.natural .chance argument)
  | .attrib => do
    let argument ← clause.oneArgument "expects an attribute: `attrib(strength) > 10`"
    let stat ← argument.member CharacterAttribute "attribute"
    let (op, value) ← (← clause.operation).compare
    return attrib stat op value
  | .item => do
    let (first, second) : Argument × Option Argument ←
      match clause.argumentList with
      | [first] => pure (first, none)
      | [first, second] => pure (first, some second)
      | _ =>
        throw (clause.invalid "expects an item id and a location: `item(23, all) > 2`")
    let found ← clause.item context first
    let location ←
      match second with
      | none => pure ItemLocation.all
      | some argument => argument.member ItemLocation "item location"
    let (op, value) ← (← clause.operation).compare
    return item found location op value
  | .magicType => equation MagicType "magic type" magicType clause
  | .money => scalar money clause
  | .number => scalar number clause
  | .questStatus => do
    let argument ← clause.oneArgument "expects a quest id: `queststatus(101) = 2`"
    let quest ← clause.natural .questId argument
    let (op, value) ← (← clause.operation).compare
    return questStatus quest op value
  | .race => equationOrDenial Race "race" race clause
  | .rank => scalar rank clause
  | .sex => equationOrDenial Sex "sex" sex clause
  | .skill => do
    let argument ← clause.oneArgument "expects a skill name: `skill(mining) > 20`"
    let found ← argument.skill context
    let (op, value) ← (← clause.operation).compare
    return skill found op value
  | .state => scalar state clause
  | .talkMode => equation TalkMode "talk mode" talkMode clause
  | .talkState => equation TalkState "talk state" talkState clause
  | .town => equationOrDenial Town "town" town clause
  | .language => equation Language "language" language clause

end Condition

end NpcScript
