import NpcScript.Grammar.Reader

/-!
# Assignments

All statements except dialogue lines have the form `key = value, value, …`. The equals sign may be
left out. A value is a string literal, a number, a word, or a call `name(value, …)`.
-/

namespace NpcScript.Grammar

inductive Value where
  /-- A string literal, with its quotes. -/
  | quoted (source : Lexeme)
  | number (source : Lexeme)
  | word (source : Lexeme)
  | call (source : Lexeme) (name : List Char) (arguments : List Value)

namespace Value

def source : Value → Lexeme
  | quoted source | number source | word source | call source _ _ => source

def column (value : Value) : Nat :=
  value.source.column

def text (value : Value) : List Char :=
  value.source.text

end Value

structure Assignment where
  key : List Char
  values : List Value

open Reader

/-- Reads `name(value, …)`. -/
def call (value : Reader Value) : Reader Value := do
  let (source, name, arguments) ← withText do
    let name ← lexeme wordLexer
    blanks
    let arguments ← parenthesised value
    return (name.text, arguments)
  return .call source name arguments

/-- Reads a value. The arguments of a call lie behind its name, so what is left is shorter there. -/
def value (cursor : Cursor) : Outcome Value :=
  let inner : Reader Value := fun behind =>
    if behind.rest.length < cursor.rest.length then value behind else ⟨none, 0⟩
  let reader : Reader Value :=
    (do return .quoted (← lexeme literalLexer)) <|>
    (do return .number (← lexeme numberLexer)) <|>
    call inner <|>
    (do return .word (← lexeme wordLexer))
  reader cursor
termination_by cursor.rest.length

def assignment : Reader Assignment := do
  blanks
  let key ← lexeme wordLexer
  blanks
  let _ ← maybe (mark '=')
  blanks
  let values ← commaSeparated value
  blanks
  trailingComment
  blanks
  atEnd
  return ⟨key.text, values⟩

def Assignment.ofLine (line : List Char) : Except Nat Assignment :=
  assignment.run line

end NpcScript.Grammar
