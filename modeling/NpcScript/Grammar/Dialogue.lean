import NpcScript.Grammar.Reader

/-!
# The form of dialogue lines

A dialogue line has the form `"trigger", clause, … -> clause, …`. A clause is a string literal or a
keyword, which may have arguments in parentheses and a comparison behind it. A comparison may also
stand inside the parentheses. Commas are needed before the arrow; behind it they may be left out.
-/

namespace NpcScript.Grammar

structure Comparison where
  operator : Lexeme
  operand : Lexeme
  deriving DecidableEq

inductive Argument where
  /-- A string literal, with its quotes. -/
  | quoted (source : Lexeme)
  | operand (source : Lexeme)
  /-- A word with a comparison behind it, as in `attrib(strength > 10)`. -/
  | comparison (subject : Lexeme) (comparison : Comparison)
  deriving DecidableEq

/-- A clause that begins with a keyword. No parentheses differ from empty ones. -/
structure KeywordClause where
  keyword : Lexeme
  arguments : Option (List Argument)
  comparison : Option Comparison
  deriving DecidableEq

inductive Clause where
  /-- A string literal, with its quotes. -/
  | answer (source : Lexeme)
  | keyword (clause : KeywordClause)
  deriving DecidableEq

/-- A dialogue line, as written: the trigger with its quotes and the clauses on either side of the
arrow. -/
structure DialogueForm where
  trigger : Lexeme
  before : List Clause
  after : List Clause
  deriving DecidableEq

open Reader

def comparison : Reader Comparison := do
  let operator ← lexeme operatorLexer
  blanks
  let operand ← lexeme operandLexer
  return ⟨operator, operand⟩

/-- Reads an argument. A comparison is tried first, since its subject would also be an operand. -/
def argument : Reader Argument :=
  (do
    let subject ← lexeme wordLexer
    blanks
    let comparison ← comparison
    return .comparison subject comparison) <|>
  (do return .quoted (← lexeme literalLexer)) <|>
  (do return .operand (← lexeme operandLexer))

def keywordClause : Reader KeywordClause := do
  let keyword ← lexeme keywordLexer
  blanks
  let arguments ← maybe (marked (parenthesised argument))
  blanks
  let comparison ← maybe comparison
  return ⟨keyword, arguments, comparison⟩

def clause : Reader Clause :=
  (do return .answer (← lexeme literalLexer)) <|>
  (do return .keyword (← keywordClause))

def clausesBefore : Reader (List Clause) :=
  many do
    blanks
    mark ','
    blanks
    clause

/-- Reads the clauses behind the arrow, with or without commas between them. -/
def clausesAfter : Reader (List Clause) := do
  let first ← clause
  let others ← many do
    blanks
    let _ ← maybe (mark ',')
    blanks
    clause
  return first :: others

def dialogueForm : Reader DialogueForm := do
  blanks
  let trigger ← lexeme literalLexer
  let before ← clausesBefore
  blanks
  let _ ← lexeme arrowLexer
  blanks
  let after ← maybe clausesAfter
  blanks
  trailingComment
  blanks
  atEnd
  return ⟨trigger, before, after.getD []⟩

def DialogueForm.ofLine (line : List Char) : Except Nat DialogueForm :=
  dialogueForm.run line

end NpcScript.Grammar
