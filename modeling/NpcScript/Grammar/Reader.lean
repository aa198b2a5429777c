import NpcScript.Grammar.Lexer
import NpcScript.Text.Lines

/-!
# Readers

A reader takes a piece of syntax off the front of a line and moves on behind it. Besides what it
read it answers the furthest place at which some lexeme was looked for and not found, whether or
not the reading went on after that. This place is where a malformed line is said to be wrong.

Alternatives are ordered: the second is tried only where the first fails. A repetition stops at the
first failure and does not give back what it has read.
-/

namespace NpcScript.Grammar

/-- A place in a line: how many characters lie before it, and those behind it. -/
structure Cursor where
  offset : Nat
  rest : List Char

def Cursor.advance (cursor : Cursor) (count : Nat) : Cursor :=
  ⟨cursor.offset + count, cursor.rest.drop count⟩

structure Lexeme where
  column : Nat
  text : List Char
  deriving DecidableEq

/-- What comes of reading at a place: a result with the place behind it, or none; and the offset of
the furthest lexeme that was missed, 0 if none was. -/
structure Outcome (α : Type) where
  result : Option (α × Cursor)
  furthest : Nat

def Reader (α : Type) : Type :=
  Cursor → Outcome α

namespace Reader

variable {α β : Type}

def succeed (a : α) : Reader α := fun cursor =>
  ⟨some (a, cursor), 0⟩

def andThen (first : Reader α) (second : α → Reader β) : Reader β := fun cursor =>
  match first cursor with
  | ⟨none, furthest⟩ => ⟨none, furthest⟩
  | ⟨some (a, behind), furthest⟩ =>
    let outcome := second a behind
    ⟨outcome.result, max furthest outcome.furthest⟩

instance : Monad Reader where
  pure := succeed
  bind := andThen

/-- Reading one piece after another comes to a result exactly if both do, each where the one before
it ended. -/
theorem result_bind_eq_some_iff {first : Reader α} {second : α → Reader β} {cursor last : Cursor}
    {b : β} :
    ((first >>= second) cursor).result = some (b, last) ↔
      ∃ a behind, (first cursor).result = some (a, behind) ∧
        (second a behind).result = some (b, last) := by
  show (andThen first second cursor).result = _ ↔ _
  unfold andThen
  split <;> simp_all [and_assoc]

def orElse (first second : Reader α) : Reader α := fun cursor =>
  match first cursor with
  | ⟨some result, furthest⟩ => ⟨some result, furthest⟩
  | ⟨none, furthest⟩ =>
    let outcome := second cursor
    ⟨outcome.result, max furthest outcome.furthest⟩

instance : OrElse (Reader α) where
  orElse first second := first.orElse (second ())

def maybe (piece : Reader α) : Reader (Option α) :=
  (do return some (← piece)) <|> succeed none

/-- Reads a piece; where it is not there, its beginning counts as a place that was missed. -/
def marked (piece : Reader α) : Reader α := fun cursor =>
  match piece cursor with
  | ⟨some result, furthest⟩ => ⟨some result, furthest⟩
  | ⟨none, furthest⟩ => ⟨none, max furthest cursor.offset⟩

/-- Reads a piece as often as it is there. Answers the pieces, the place behind the last of them and
the furthest place that was missed. -/
def collect (piece : Reader α) (cursor : Cursor) : List α × Cursor × Nat :=
  match piece cursor with
  | ⟨none, furthest⟩ => ([], cursor, furthest)
  | ⟨some (a, behind), furthest⟩ =>
    if behind.rest.length < cursor.rest.length then
      let (others, last, missed) := collect piece behind
      (a :: others, last, max furthest missed)
    else ([], cursor, furthest)
termination_by cursor.rest.length

def many (piece : Reader α) : Reader (List α) := fun cursor =>
  let (pieces, last, furthest) := collect piece cursor
  ⟨some (pieces, last), furthest⟩

def withText (piece : Reader α) : Reader (Lexeme × α) := fun cursor =>
  match piece cursor with
  | ⟨some (a, behind), furthest⟩ =>
    let text := cursor.rest.take (cursor.rest.length - behind.rest.length)
    ⟨some ((⟨cursor.offset + 1, text⟩, a), behind), furthest⟩
  | ⟨none, furthest⟩ => ⟨none, furthest⟩

/-! ### Lexemes -/

/-- Reads a lexeme. Where it is missing, the place is remembered. -/
def lexeme (lexer : Lexer) : Reader Lexeme := fun cursor =>
  match lexer cursor.rest with
  | some rest =>
    let count := cursor.rest.length - rest.length
    ⟨some (⟨cursor.offset + 1, cursor.rest.take count⟩, cursor.advance count), 0⟩
  | none => ⟨none, cursor.offset⟩

/-- Reads a punctuation mark. Marks only join lexemes: a missing one is not remembered. -/
def mark (c : Char) : Reader Unit := fun cursor =>
  if cursor.rest.head? = some c then ⟨some ((), cursor.advance 1), 0⟩ else ⟨none, 0⟩

def isGap (c : Char) : Bool :=
  c == ' ' || c == '\t' || c == '\r'

def blanks : Reader Unit := fun cursor =>
  ⟨some ((), cursor.advance (cursor.rest.takeWhile isGap).length), 0⟩

/-- Moves on behind the comment that begins here, if one does. A comment takes up all that follows.
-/
def trailingComment : Reader Unit := fun cursor =>
  if ['-', '-'].isPrefixOf cursor.rest then ⟨some ((), cursor.advance cursor.rest.length), 0⟩
  else ⟨some ((), cursor), 0⟩

def atEnd : Reader Unit := fun cursor =>
  if cursor.rest.isEmpty then ⟨some ((), cursor), 0⟩ else ⟨none, cursor.offset⟩

def commaSeparated (piece : Reader α) : Reader (List α) := do
  let first ← piece
  let others ← many do
    blanks
    mark ','
    blanks
    piece
  return first :: others

def parenthesised (piece : Reader α) : Reader (List α) := do
  mark '('
  blanks
  let pieces ← maybe (commaSeparated piece)
  blanks
  mark ')'
  return pieces.getD []

/-- What a reader makes of a text, or the column at which the text is malformed. -/
def run (reader : Reader α) (text : List Char) : Except Nat α :=
  match reader ⟨0, text⟩ with
  | ⟨some (a, _), _⟩ => .ok a
  | ⟨none, furthest⟩ => .error (Text.columnInLastLine text furthest)

end Reader

end NpcScript.Grammar
