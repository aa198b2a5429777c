import NpcScript.Grammar.Lexer
import NpcScript.Keyword
import NpcScript.Npc.World

/-!
# Kinds of statements

What kind of statement a line makes shows at its beginning: the key of an assignment, the two minus
signs of a comment, or the quote of a dialogue line. The kind is found without reading the line; a
line of a kind may still turn out to be malformed.
-/

namespace NpcScript

inductive AssignmentKey where
  | identity (key : IdentityKey)
  | appearance (key : AppearanceKey)
  | equipment (slot : EquipmentSlot)
  | trade (key : TradeKey)
  | guard (key : GuardKey)
  | cycleText
  deriving DecidableEq

inductive StatementKind where
  | empty
  | comment
  | assignment (key : AssignmentKey)
  | dialogue
  deriving DecidableEq

/-- The letters, digits and underscores that a line begins with, blanks aside. -/
def leadingWord (line : List Char) : List Char :=
  (Text.trimStart line).takeWhile Grammar.continuesWord

def holdsArrow : List Char → Bool
  | [] => false
  | '-' :: '>' :: _ => true
  | _ :: rest => holdsArrow rest

/-- The slot that the key of an equipment statement names: `itemHead` names the head. -/
def EquipmentSlot.ofKey? (key : List Char) : Option EquipmentSlot :=
  if Text.sameLetters (key.take 4) "item".toList then
    Vocabulary.ofToken? EquipmentSlot (key.drop 4)
  else none

namespace AssignmentKey

def ofWord? (word : List Char) : Option AssignmentKey :=
  (identity <$> Vocabulary.ofWord? IdentityKey word) <|>
  (appearance <$> Vocabulary.ofWord? AppearanceKey word) <|>
  (equipment <$> EquipmentSlot.ofKey? word) <|>
  (trade <$> Vocabulary.ofWord? TradeKey word) <|>
  (guard <$> Vocabulary.ofWord? GuardKey word) <|>
  (if Text.sameLetters word "cycletext".toList then some cycleText else none)

def label : AssignmentKey → String
  | identity key => "identity:" ++ Vocabulary.token key
  | appearance key => "appearance:" ++ Vocabulary.token key
  | equipment slot => "equipment:" ++ Vocabulary.token slot
  | trade key => "trade:" ++ Vocabulary.token key
  | guard key => "guard:" ++ Vocabulary.token key
  | cycleText => "cycleText"

end AssignmentKey

namespace StatementKind

/-- The kind of statement that a line makes. Only a line that begins with a quote and holds an arrow
is taken for a dialogue line. -/
def ofLine? (line : List Char) : Option StatementKind :=
  match Text.trim line with
  | [] => some empty
  | '-' :: '-' :: _ => some comment
  | '"' :: rest => if holdsArrow rest then some dialogue else none
  | text => assignment <$> AssignmentKey.ofWord? (leadingWord text)

def label : StatementKind → String
  | empty => "empty"
  | comment => "comment"
  | assignment key => key.label
  | dialogue => "dialogue"

end StatementKind

end NpcScript
