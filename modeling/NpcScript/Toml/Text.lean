import NpcScript.Toml.Reader

/-!
# TOML strings

A string stands between quotes or apostrophes; between three of either it may go over several
lines. A backslash escapes a character in quoted strings only. Up to two quotes may stand inside a
string of several lines, and up to two directly before the three that close it.
-/

namespace NpcScript.Toml

def hexValue? (c : Char) : Option Nat :=
  if c.isDigit then some (c.toNat - '0'.toNat)
  else if 'a' ≤ c && c ≤ 'f' then some (c.toNat - 'a'.toNat + 10)
  else if 'A' ≤ c && c ≤ 'F' then some (c.toNat - 'A'.toNat + 10)
  else none

def codePoint? (digits : List Char) : Option Char := do
  let code ← digits.foldlM (fun n digit => return 16 * n + (← hexValue? digit)) 0
  if code.isValidChar then some (Char.ofNat code) else none

def escaped? (c : Char) : Option Char :=
  match c with
  | 'b' => some '\x08'
  | 't' => some '\t'
  | 'n' => some '\n'
  | 'f' => some '\x0c'
  | 'r' => some '\r'
  | '"' => some '"'
  | '\\' => some '\\'
  | _ => none

def escape : Reader Char := fun s =>
  match s with
  | 'u' :: rest => do
    let (digits, rest) ← times 4 (hexValue? · |>.isSome) rest
    return (← codePoint? digits, rest)
  | 'U' :: rest => do
    let (digits, rest) ← times 8 (hexValue? · |>.isSome) rest
    return (← codePoint? digits, rest)
  | c :: rest => (escaped? c).map (·, rest)
  | [] => none

def quotedChar : Reader Char :=
  (do char '\\'; escape) <|> one fun c => isShown c && c != '"' && c != '\\'

def literalChar : Reader Char :=
  one fun c => isShown c && c != '\''

def singleLine (quote : Char) (content : Reader Char) : Reader String := do
  char quote
  let body ← many content
  char quote
  return String.ofList body

/-- Reads the line end that a backslash at the end of a line takes away, with all blanks and line
ends behind it. -/
def foldedLine : Reader Unit := do
  char '\\'
  blanks
  newline
  let _ ← many ((do let _ ← one isBlank) <|> newline)

/-- Reads a piece of a string of several lines. A line end counts as a newline however it is
written. -/
def lineContent (folds : Bool) (content : Reader Char) : Reader (List Char) :=
  (if folds then (do foldedLine; return []) else failure) <|>
  (do newline; return ['\n']) <|>
  (do return [← content])

def innerQuotes (quote : Char) (content : Reader (List Char)) : Reader (List Char) := do
  let quotes ← all (· == quote)
  if quotes.length = 1 || quotes.length = 2 then return quotes ++ (← content) else failure

def multiLine (quote : Char) (content : Reader (List Char)) : Reader String := do
  let _ ← times 3 (· == quote)
  let _ ← maybe newline
  let body ← many (content <|> innerQuotes quote content)
  let quotes ← all (· == quote)
  if 3 ≤ quotes.length && quotes.length ≤ 5 then
    return String.ofList (body.flatten ++ quotes.drop 3)
  else failure

def simpleString : Reader String :=
  singleLine '"' quotedChar <|> singleLine '\'' literalChar

def string : Reader String :=
  multiLine '"' (lineContent true quotedChar) <|>
  multiLine '\'' (lineContent false literalChar) <|>
  simpleString

def isBareKeyChar (c : Char) : Bool :=
  c.isAlphanum || c == '_' || c == '-'

def keyPart : Reader String := do
  blanks
  let part ← simpleString <|> do
    let part ← all isBareKeyChar
    if part.isEmpty then failure else return String.ofList part
  blanks
  return part

def depthLimit : Nat :=
  79

def key : Reader (List String) := do
  let first ← keyPart
  let others ← many (do char '.'; keyPart)
  if others.length < depthLimit then return first :: others else failure

end NpcScript.Toml
