import NpcScript.Context
import NpcScript.Grammar.Dialogue
import NpcScript.Npc.Dialogue
import NpcScript.Text.Lines

/-!
# Operands and operators of clauses

The operand behind an operator is a literal that fits 64 bits, `%NUMBER`, `expr(…)`, or a sum of
numbers and `%` variables. Which operators may stand before it depends on the clause.
-/

namespace NpcScript

namespace Quantity

/-- The literals that can be kept: signed numbers of 64 bits. -/
def isLiteral (value : Int) : Bool :=
  -9223372036854775808 ≤ value && value ≤ 9223372036854775807

def literalOfText? (text : List Char) : Option Int :=
  let digits := dropMinus text
  let value := integerOfDigits text
  if !digits.isEmpty && digits.all Char.isDigit && isLiteral value then some value else none

/-- The text inside `expr(…)`. -/
def expressionBody? (text : List Char) : Option (List Char) :=
  if Text.sameLetters (text.take 5) "expr(".toList && text.getLast? = some ')' then
    some (text.drop 5).dropLast
  else none

/-- The characters that a sum is cut at to find its terms. -/
def separatesTerms (c : Char) : Bool :=
  Grammar.isArithmetic c || c == '(' || c == ')'

/-- Whether a text is a number or a `%` variable, or nothing at all. -/
def isTerm (text : List Char) : Bool :=
  text.all Char.isDigit ||
    match text with
    | '%' :: name => !name.isEmpty && name.all Grammar.continuesWord
    | _ => false

/-- Whether a text is a sum: it has an operator behind its sign, and all terms are numbers or `%`
variables. -/
def isSum (text : List Char) : Bool :=
  let body := dropMinus text
  let (first, others) := Text.cut separatesTerms body
  body.any Grammar.isArithmetic && (first :: others).all (isTerm ∘ Text.trim)

def ofOperand? (operand : List Char) : Option Quantity :=
  let text := Text.trim operand
  match literalOfText? text with
  | some value => some (.literal value)
  | none =>
    if Text.sameLetters text "%number".toList then some .saidNumber
    else
      match expressionBody? text with
      | some body =>
        let body := Text.trim body
        if body.isEmpty then none else some (.expression (String.ofList body))
      | none => if isSum text then some (.expression (String.ofList text)) else none

def read (field : String) (column : Nat) (operand : List Char) : Except Issue Quantity :=
  match ofOperand? operand with
  | some quantity => .ok quantity
  | none =>
    .error (.atColumn column (.malformedNumber field (String.ofList (Text.trim operand))))

end Quantity

def invalidClause (keyword : List Char) (reason : String) (column : Nat) : Issue :=
  .atColumn column (.invalidClause (String.ofList keyword) reason)

namespace Grammar.Comparison

def compare (comparison : Comparison) : Except Issue (CompareOperator × Quantity) := do
  let operator := comparison.operator
  let op ← Vocabulary.resolve CompareOperator "compare operator" operator.column operator.text
  return (op, ← Quantity.read "compared value" comparison.operand.column comparison.operand.text)

def calculate (comparison : Comparison) (keyword : List Char) :
    Except Issue (CalculationOperator × Quantity) := do
  let operator := comparison.operator
  match Vocabulary.ofToken? CalculationOperator operator.text with
  | none => throw (invalidClause keyword "expects `=`, `+=` or `-=`" operator.column)
  | some op =>
    return (op, ← Quantity.read "value" comparison.operand.column comparison.operand.text)

def member (comparison : Comparison) (α : Type) [Vocabulary α] (field : String) :
    Except Issue α :=
  Vocabulary.resolve α field comparison.operand.column comparison.operand.text

/-- What the operator says of equality: holds, denied, or another matter. -/
def equality? (comparison : Comparison) : Option Bool :=
  let isOneOf (spellings : List String) : Bool :=
    spellings.any fun spelling => comparison.operator.text == spelling.toList
  if isOneOf ["=", "=="] then some true
  else if isOneOf ["!=", "~="] then some false
  else none

def equation (comparison : Comparison) (keyword : List Char) (α : Type) [Vocabulary α]
    (field : String) : Except Issue α :=
  match comparison.equality? with
  | some true => comparison.member α field
  | _ => .error (invalidClause keyword "expects `=`" comparison.operator.column)

def equationOrDenial (comparison : Comparison) (keyword : List Char) (α : Type) [Vocabulary α]
    (field : String) : Except Issue (α × Bool) :=
  match comparison.equality? with
  | some holds => (·, !holds) <$> comparison.member α field
  | none =>
    .error (invalidClause keyword "can only be compared with `=` or `!=`"
      comparison.operator.column)

end Grammar.Comparison

end NpcScript
