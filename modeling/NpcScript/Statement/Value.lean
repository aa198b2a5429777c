import NpcScript.Context
import NpcScript.Grammar.Assignment
import NpcScript.Npc.Statement
import NpcScript.Text.Quoted

/-!
# Values of statements

How a value of an assignment is taken as a number, a text or a token, and how the number of values
is checked. What a malformed statement should have looked like is said by `expected`.
-/

namespace NpcScript

open Grammar (Value Assignment)

def malformed (keyword : List Char) (expected : String) (column : Nat) : Issue :=
  .atColumn column (.malformedStatement (String.ofList keyword) expected)

namespace Grammar.Value

def integer (place : NumericPlace) : Value → Except Issue Int
  | .number source => place.read source.column source.text
  | other =>
    .error (.atColumn other.column (.malformedNumber place.field (String.ofList other.text)))

def natural (place : NumericPlace) (value : Value) : Except Issue Nat :=
  Int.toNat <$> value.integer place

/-- The value as a text, which has to be a string literal. -/
def quotedText (keyword : List Char) (expected : String) : Value → Except Issue String
  | .quoted source => .ok (String.ofList (Text.unquote source.text))
  | other => .error (malformed keyword expected other.column)

/-- The value as a token, which may be a word or a string literal. -/
def token (keyword : List Char) (expected : String) : Value → Except Issue (List Char)
  | .word source => .ok source.text
  | .quoted source => .ok (Text.unquote source.text)
  | other => .error (malformed keyword expected other.column)

def quoteWarning? (value : Value) : Option Issue :=
  if Text.hasEscapedQuote value.text then
    some (.atColumn value.column (.suspiciousQuote "localized text" (String.ofList value.text)))
  else none

def position (x y z : Value) : Except Issue Position := do
  let x ← x.integer .coordinateX
  let y ← y.integer .coordinateY
  let z ← z.integer .coordinateZ
  return ⟨x, y, z⟩

end Grammar.Value

namespace Grammar.Assignment

/-- The issue of an assignment with too many or too few values. It is placed at the first value that
is too many, or else at the last one. -/
def wrongCount (assignment : Assignment) (count : Nat) (expected : String) : Issue :=
  let column := ((assignment.values[count]?).or assignment.values.getLast?).elim 1 Value.column
  malformed assignment.key expected column

def single (assignment : Assignment) (expected : String) : Except Issue Value :=
  match assignment.values with
  | [value] => .ok value
  | _ => .error (assignment.wrongCount 1 expected)

def triple (assignment : Assignment) (expected : String) :
    Except Issue (Value × Value × Value) :=
  match assignment.values with
  | [first, second, third] => .ok (first, second, third)
  | _ => .error (assignment.wrongCount 3 expected)

def quadruple (assignment : Assignment) (expected : String) :
    Except Issue (Value × Value × Value × Value) :=
  match assignment.values with
  | [first, second, third, fourth] => .ok (first, second, third, fourth)
  | _ => .error (assignment.wrongCount 4 expected)

/-- The two values as a text in German and the same in English. -/
def localizedText (assignment : Assignment) (expected : String) : Except Issue LocalizedText :=
  match assignment.values with
  | [german, english] => do
    let german ← german.quotedText assignment.key expected
    let english ← english.quotedText assignment.key expected
    return ⟨german, english⟩
  | _ => .error (assignment.wrongCount 2 expected)

end Grammar.Assignment

end NpcScript
