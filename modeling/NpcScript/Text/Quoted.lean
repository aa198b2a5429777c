import NpcScript.Text.Lines

/-!
# String literals

A text is written between quotes. Inside, a backslash and the character behind it form a pair: five
pairs stand for one character each, every other pair stands for itself.
-/

namespace NpcScript.Text

def unescape (c : Char) : List Char :=
  match c with
  | 'n' => ['\n']
  | 'r' => ['\r']
  | 't' => ['\t']
  | '"' => ['"']
  | '\\' => ['\\']
  | c => ['\\', c]

/-- Reads what follows an opening quote. It is `length` bytes long, and the next character begins
at byte `offset`; a quote is the closing one if it is the last byte. `escape` holds behind a
backslash that takes the next character along. -/
def decodeBody (length offset : Nat) (escape : Bool) : List Char → Except String (List Char)
  | [] => .error "missing closing quote"
  | c :: rest =>
      let next := offset + c.utf8Size
      if escape then (decodeBody length next false rest).map (unescape c ++ ·)
      else if c = '\\' then decodeBody length next true rest
      else if c = '"' then
        if offset + 1 = length then .ok [] else .error "text after closing quote"
      else (decodeBody length next false rest).map (c :: ·)

def decode : List Char → Except String (List Char)
  | '"' :: body => decodeBody (byteLength body) 0 false body
  | _ => .error "missing opening quote"

/-- The text that a literal stands for; what is not a literal stands for itself. -/
def unquote (s : List Char) : List Char :=
  match decode s with
  | .ok text => text
  | .error _ => s

def hasEscapedQuote : List Char → Bool
  | '\\' :: '"' :: _ => true
  | _ :: rest => hasEscapedQuote rest
  | [] => false

end NpcScript.Text
