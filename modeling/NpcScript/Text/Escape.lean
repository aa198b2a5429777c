import NpcScript.Text.GraphemeExtend
import NpcScript.Text.Printable

/-!
# Escaped text

How a text is shown inside quotes so that every character of it can be told: characters that would
not show, or not by themselves, are written as their code points.
-/

namespace NpcScript.Text

def hexDigit (n : Nat) : Char :=
  if n < 10 then Char.ofNat ('0'.toNat + n) else Char.ofNat ('a'.toNat + (n - 10))

/-- A number in hexadecimal digits, without leading zeros. -/
def hexDigits (n : Nat) : List Char :=
  if n < 16 then [hexDigit n] else hexDigits (n / 16) ++ [hexDigit (n % 16)]

def escapeCode (c : Char) : List Char :=
  "\\u\x7b".toList ++ hexDigits c.toNat ++ ['\x7d']

/-- Whether a character, shown by itself, would join the one before it. The two halfwidth voicing
marks extend a grapheme too, but each takes up a place of its own. -/
def isJoining (c : Char) : Bool :=
  isGraphemeExtend c && c != '\uFF9E' && c != '\uFF9F'

def escapeChar (c : Char) : List Char :=
  match c with
  | '\x00' => ['\\', '0']
  | '\t' => ['\\', 't']
  | '\r' => ['\\', 'r']
  | '\n' => ['\\', 'n']
  | '\\' => ['\\', '\\']
  | '"' => ['\\', '"']
  | '\'' => ['\\', '\'']
  | c => if isPrintable c && !isJoining c then [c] else escapeCode c

def escape (s : List Char) : List Char :=
  '"' :: (s.flatMap escapeChar ++ ['"'])

end NpcScript.Text
