import NpcScript.Clause.Quantity
import NpcScript.Text.Quoted

/-!
# What keywords demand of a clause

Some keywords stand alone, some take arguments, some a comparison, and some both. The functions of
this module take a clause apart as its keyword demands, or give the reason why it does not fit.
-/

namespace NpcScript.Grammar

namespace Argument

def column : Argument → Nat
  | quoted source | operand source | comparison source _ => source.column

/-- The argument as a name: what a string literal stands for, an operand as written, or what stands
before a comparison. -/
def token : Argument → List Char
  | quoted source => Text.unquote source.text
  | operand source | comparison source _ => source.text

def operand? : Argument → Option (List Char)
  | operand source => some source.text
  | _ => none

def comparison? : Argument → Option Comparison
  | comparison _ found => some found
  | _ => none

end Argument

namespace KeywordClause

def invalid (clause : KeywordClause) (reason : String) : Issue :=
  invalidClause clause.keyword.text reason clause.keyword.column

def argumentList (clause : KeywordClause) : List Argument :=
  clause.arguments.getD []

def innerComparison? (clause : KeywordClause) : Option Comparison :=
  clause.argumentList.findSome? Argument.comparison?

/-- Whether the clause can only be a condition, judged by its operator: the one behind it, or else
the first one inside its parentheses. -/
def compares (clause : KeywordClause) : Bool :=
  match clause.comparison.or clause.innerComparison? with
  | some comparison => isCompareOnly comparison.operator.text
  | none => false

def operation (clause : KeywordClause) : Except Issue Comparison :=
  match clause.comparison, clause.innerComparison? with
  | some comparison, none | none, some comparison => .ok comparison
  | some _, some _ => .error (clause.invalid "has more than one operator")
  | none, none => .error (clause.invalid "needs an operator and a value")

def alone (clause : KeywordClause) : Except Issue Unit :=
  if clause.arguments.isSome || clause.comparison.isSome then
    .error (clause.invalid "takes no arguments")
  else .ok ()

def bareOperation (clause : KeywordClause) : Except Issue Comparison :=
  if clause.arguments.isSome then
    .error (clause.invalid "takes no parenthesised arguments")
  else clause.operation

def oneArgument (clause : KeywordClause) (reason : String) : Except Issue Argument :=
  match clause.argumentList with
  | [argument] => .ok argument
  | _ => .error (clause.invalid reason)

def noComparison (clause : KeywordClause) (reason : String) : Except Issue Unit :=
  if clause.comparison.isSome then .error (clause.invalid reason) else .ok ()

def integer (clause : KeywordClause) (place : NumericPlace) (argument : Argument) :
    Except Issue Int :=
  match argument.operand? with
  | some text => place.read argument.column text
  | none => .error (clause.invalid "expects a number argument")

def natural (clause : KeywordClause) (place : NumericPlace) (argument : Argument) :
    Except Issue Nat :=
  Int.toNat <$> clause.integer place argument

def item (clause : KeywordClause) (context : Context) (argument : Argument) :
    Except Issue Item :=
  match argument.operand? with
  | some text => context.item text argument.column text
  | none => .error (clause.invalid "expects an item id")

def amount (clause : KeywordClause) (argument : Argument) : Except Issue Quantity :=
  match argument.operand? with
  | some text => Quantity.read "amount" argument.column text
  | none => .error (clause.invalid "expects an amount")

end KeywordClause

def Argument.member (argument : Argument) (α : Type) [Vocabulary α] (field : String) :
    Except Issue α :=
  Vocabulary.resolve α field argument.column argument.token

def Argument.skill (argument : Argument) (context : Context) : Except Issue String :=
  context.skill argument.column argument.token

end NpcScript.Grammar
