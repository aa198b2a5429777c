/-!
# Reading TOML text

A reader takes something off the front of a text or fails. The alternative `p <|> q` reads with `q`
from the same place where `p` fails.
-/

namespace NpcScript.Toml

abbrev Reader := StateT (List Char) Option

def one (p : Char → Bool) : Reader Char := fun s =>
  match s with
  | c :: rest => if p c then some (c, rest) else none
  | [] => none

def char (c : Char) : Reader Unit := do
  let _ ← one (· == c)

def exactly (word : String) : Reader Unit := fun s =>
  if word.toList.isPrefixOf s then some ((), s.drop word.length) else none

def all (p : Char → Bool) : Reader (List Char) := fun s =>
  some (s.takeWhile p, s.dropWhile p)

def times (count : Nat) (p : Char → Bool) : Reader (List Char) := fun s =>
  let taken := s.take count
  if taken.length = count && taken.all p then some (taken, s.drop count) else none

def maybe {α : Type} (p : Reader α) : Reader (Option α) :=
  (some <$> p) <|> pure none

/-- Reads as often as something is there, but at most once for each character of `limit`. -/
def manyWithin {α : Type} (p : Reader α) : List Char → Reader (List α)
  | [], s => some ([], s)
  | _ :: limit, s =>
    match p s with
    | none => some ([], s)
    | some (a, rest) => (manyWithin p limit rest).map fun (others, last) => (a :: others, last)

/-- Reads as often as something is there. Every piece takes up a character, so there are at most as
many pieces as characters. -/
def many {α : Type} (p : Reader α) : Reader (List α) := fun s =>
  manyWithin p s s

def separated {α : Type} (separator : Char) (p : Reader α) : Reader (List α) :=
  (do
    let first ← p
    let others ← many (do char separator; p)
    return first :: others) <|> pure []

def atEnd : Reader Unit := fun s =>
  if s.isEmpty then some ((), s) else none

/-! ### Blanks, line ends and comments -/

def isBlank (c : Char) : Bool :=
  c == ' ' || c == '\t'

def blanks : Reader Unit := do
  let _ ← all isBlank

def newline : Reader Unit :=
  char '\n' <|> exactly "\r\n"

/-- The characters that may stand in a comment and in literal strings: all but controls. -/
def isShown (c : Char) : Bool :=
  c == '\t' || (' ' ≤ c && c != '\x7f')

def comment : Reader Unit := do
  char '#'
  let _ ← all isShown

/-- Reads what may stand behind an entry: blanks, a comment, and the end of the line or text. -/
def lineRest : Reader Unit := do
  blanks
  let _ ← maybe comment
  newline <|> atEnd

def gaps : Reader Unit := do
  let _ ← many ((do let _ ← one isBlank) <|> newline <|> comment)

end NpcScript.Toml
