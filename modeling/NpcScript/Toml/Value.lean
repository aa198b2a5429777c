import NpcScript.Toml.Text

/-!
# TOML values

TOML is a notation for configuration files. This module holds the values that such a file can name
and reads those that are numbers, dates or times. Floats and dates are kept as they were written,
since nothing computes with them.

Underscores may stand between the digits of a number. A decimal number has no leading zeros, and an
integer has to fit 64 bits. Dates and times are checked against the calendar and the clock.
-/

namespace NpcScript.Toml

inductive Value where
  | text (s : String)
  | integer (n : Int)
  | boolean (b : Bool)
  | float (source : String)
  | moment (source : String)
  | array (elements : List Value)
  | table (entries : List (String × Value))

/-! ### Numbers -/

/-- Reads digits of a class with single underscores between them, and answers the digits. -/
def digitsOf (p : Char → Bool) : Reader (List Char) := do
  let first ← one p
  let others ← many (one p <|> do char '_'; one p)
  return first :: others

def naturalOf (base : Nat) (digits : List Char) : Nat :=
  digits.foldl (fun n digit => base * n + (hexValue? digit).getD 0) 0

def sign : Reader Bool :=
  (do char '-'; return true) <|> (do char '+'; return false) <|> pure false

def decimalDigits : Reader (List Char) := do
  let digits ← (do char '0'; return ['0']) <|> digitsOf Char.isDigit
  return digits

def radixInteger (mark : String) (base : Nat) : Reader Int := do
  exactly mark
  let digits ← digitsOf fun c => (hexValue? c).any (· < base)
  return naturalOf base digits

def integer : Reader Value := do
  let value ←
    radixInteger "0x" 16 <|> radixInteger "0o" 8 <|> radixInteger "0b" 2 <|> do
      let negative ← sign
      let value := (naturalOf 10 (← decimalDigits) : Int)
      return if negative then -value else value
  if -9223372036854775808 ≤ value ∧ value ≤ 9223372036854775807 then return .integer value
  else failure

/-- Whether `digits` times ten to the power `exponent` is too large for a float of 64 bits, when it
is rounded to the nearest one. -/
def overflows (digits : List Char) (exponent : Int) : Bool :=
  let value := naturalOf 10 digits
  let limit := Nat.pow 2 1024 - Nat.pow 2 970
  let size : Int := (digits.dropWhile (· == '0')).length
  if value = 0 || size + exponent < 300 then false
  else if 310 < size + exponent then true
  else if 0 ≤ exponent then limit ≤ value * Nat.pow 10 exponent.toNat
  else limit * Nat.pow 10 (-exponent).toNat ≤ value

def exponent : Reader Int := do
  let _ ← one fun c => c == 'e' || c == 'E'
  let negative ← sign
  let value := (naturalOf 10 (← digitsOf Char.isDigit) : Int)
  return if negative then -value else value

/-- Reads a float. A positive one that is too large is refused. -/
def float : Reader Value := fun s => do
  let reader : Reader Bool := do
    let negative ← sign
    (do exactly "inf" <|> exactly "nan"; return true) <|> do
      let whole ← decimalDigits
      let (fraction, power) ←
        (do return ([], ← exponent)) <|> do
          char '.'
          let fraction ← digitsOf Char.isDigit
          return (fraction, (← maybe exponent).getD 0)
      return negative || !overflows (whole ++ fraction) (power - fraction.length)
  let (fits, rest) ← reader s
  if fits then some (.float (String.ofList (s.take (s.length - rest.length))), rest) else none

/-! ### Dates and times -/

def fixedNumber (count low high : Nat) : Reader Nat := do
  let value := naturalOf 10 (← times count Char.isDigit)
  if low ≤ value ∧ value ≤ high then return value else failure

def daysOfMonth (year month : Nat) : Nat :=
  if month = 2 then
    if year % 4 = 0 ∧ (year % 100 ≠ 0 ∨ year % 400 = 0) then 29 else 28
  else if month = 4 ∨ month = 6 ∨ month = 9 ∨ month = 11 then 30
  else 31

def date : Reader Unit := do
  let year ← fixedNumber 4 0 9999
  char '-'
  let month ← fixedNumber 2 1 12
  char '-'
  let _ ← fixedNumber 2 1 (daysOfMonth year month)

/-- Reads a time of day. A minute may have a leap second. -/
def time : Reader Unit := do
  let _ ← fixedNumber 2 0 23
  char ':'
  let _ ← fixedNumber 2 0 59
  char ':'
  let _ ← fixedNumber 2 0 60
  let _ ← maybe do
    char '.'
    let _ ← one Char.isDigit
    all Char.isDigit

def offset : Reader Unit :=
  (do let _ ← one fun c => c == 'Z' || c == 'z') <|> do
    let _ ← one fun c => c == '+' || c == '-'
    let _ ← fixedNumber 2 0 23
    char ':'
    let _ ← fixedNumber 2 0 59

def moment : Reader Value := fun s => do
  let dateAndTime : Reader Unit := do
    date
    let _ ← maybe do
      let _ ← one fun c => c == 'T' || c == 't' || c == ' '
      time
      maybe offset
  let (_, rest) ← (dateAndTime <|> time) s
  some (.moment (String.ofList (s.take (s.length - rest.length))), rest)

def scalar : Reader Value :=
  (.text <$> string) <|> moment <|> float <|> integer <|>
  (do exactly "true"; return .boolean true) <|> (do exactly "false"; return .boolean false)

end NpcScript.Toml
