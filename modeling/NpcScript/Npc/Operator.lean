import NpcScript.Vocabulary

/-!
# Operators

A condition compares two numbers, a consequence sets or changes one. The two kinds share the plain
equals sign, so after the arrow of a dialogue line only the other comparing operators show that a
clause is a condition.
-/

namespace NpcScript

inductive CompareOperator where
  | equal | less | greater | lesserOrEqual | greaterOrEqual | notEqual
  deriving DecidableEq

instance : Vocabulary CompareOperator where
  all := [.equal, .less, .greater, .lesserOrEqual, .greaterOrEqual, .notEqual]
  word
    | .equal => { name := "Equal", token := "=", aliases := ["=="] }
    | .less => { name := "Less", token := "<" }
    | .greater => { name := "Greater", token := ">" }
    | .lesserOrEqual => { name := "LesserOrEqual", token := "<=" }
    | .greaterOrEqual => { name := "GreaterOrEqual", token := ">=" }
    | .notEqual => { name := "NotEqual", token := "!=", aliases := ["~="] }
  mem_all a := by cases a <;> decide

inductive CalculationOperator where
  | assign | add | subtract
  deriving DecidableEq

instance : Vocabulary CalculationOperator where
  all := [.assign, .add, .subtract]
  word
    | .assign => { name := "Set", token := "=" }
    | .add => { name := "Add", token := "+=" }
    | .subtract => { name := "Subtract", token := "-=" }
  mem_all a := by cases a <;> decide

/-- The operators that can only compare. A single equals sign is not one of them, since it also sets
a number. -/
def isCompareOnly (operator : List Char) : Bool :=
  ["==", "!=", "~=", "<", ">", "<=", ">="].any fun spelling =>
    Text.trim operator == spelling.toList

end NpcScript
