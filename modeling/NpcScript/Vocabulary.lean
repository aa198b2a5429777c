import NpcScript.Text.Character

/-!
# Vocabularies

Many places of a script take one of a fixed set of words. Each such set is a finite type; an
instance of `Vocabulary` lists its members and gives for each the word it is written with. Reading
ignores letter case and accepts aliases; printing always gives the canonical word, and the list of
canonical words is what a message offers when a word is unknown.
-/

namespace NpcScript

/-- How one member of a vocabulary is written: its name in dumps, its canonical token in scripts,
and further tokens that are read as the same member. -/
structure Word where
  name : String
  token : String
  aliases : List String := []
  deriving DecidableEq

/-- A finite set of words. `all` lists its members in the order in which messages offer them. -/
class Vocabulary (α : Type) where
  all : List α
  word : α → Word
  mem_all : ∀ a : α, a ∈ all

namespace Vocabulary

variable {α : Type} [Vocabulary α]

def name (a : α) : String :=
  (word a).name

def token (a : α) : String :=
  (word a).token

def isWrittenAs (a : α) (s : List Char) : Bool :=
  Text.sameLetters s (token a).toList ||
    (word a).aliases.any fun other => Text.sameLetters s other.toList

/-- The member that a text without blanks around it names. -/
def ofWord? (α : Type) [Vocabulary α] (s : List Char) : Option α :=
  (all : List α).find? (isWrittenAs · s)

/-- The member that a text names when the blanks around it are dropped. -/
def ofToken? (α : Type) [Vocabulary α] (s : List Char) : Option α :=
  ofWord? α (Text.trim s)

def listing (α : Type) [Vocabulary α] : String :=
  ", ".intercalate ((all : List α).map token)

end Vocabulary

end NpcScript
