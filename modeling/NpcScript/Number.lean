import NpcScript.Diagnostic
import NpcScript.Text.Character

/-!
# Numbers in scripts

Each place of a script that takes a number allows so many digits and a range of values. `read` is
the one way in which such a number is read; the places are values of `NumericPlace`.
-/

namespace NpcScript

def naturalOfDigits (digits : List Char) : Nat :=
  digits.foldl (fun value digit => 10 * value + (digit.toNat - '0'.toNat)) 0

def dropMinus : List Char → List Char
  | '-' :: rest => rest
  | s => s

def integerOfDigits : List Char → Int
  | '-' :: digits => -(naturalOfDigits digits : Int)
  | digits => naturalOfDigits digits

/-! ### Widths -/

/-- The numbers of so many bits, either the natural ones or as many below zero as above. -/
inductive Width where
  | unsigned (bits : Nat)
  | signed (bits : Nat)

namespace Width

/-- How many numbers there are of so many bits. -/
def count : Width → Nat
  | unsigned bits | signed bits => Nat.pow 2 bits

def cast (width : Width) (value : Int) : Int :=
  match width with
  | unsigned _ => value % width.count
  | signed _ => value.bmod width.count

def Holds (width : Width) (value : Int) : Prop :=
  match width with
  | unsigned _ => 0 ≤ value ∧ value < width.count
  | signed _ => -(width.count : Int) ≤ 2 * value ∧ 2 * value < width.count

instance (width : Width) : DecidablePred width.Holds := fun _ =>
  match width with
  | unsigned _ => inferInstanceAs (Decidable (_ ∧ _))
  | signed _ => inferInstanceAs (Decidable (_ ∧ _))

theorem cast_of_holds {width : Width} {value : Int} (h : width.Holds value) :
    width.cast value = value := by
  cases width with
  | unsigned bits => exact Int.emod_eq_of_lt h.1 h.2
  | signed bits =>
      obtain ⟨hlow, hhigh⟩ := h
      exact Int.bmod_eq_of_le_mul_two (by omega) (by omega)

theorem Holds.between {width : Width} {least greatest value : Int} (hleast : width.Holds least)
    (hgreatest : width.Holds greatest) (h : least ≤ value ∧ value ≤ greatest) :
    width.Holds value := by
  cases width with
  | unsigned bits => exact ⟨Int.le_trans hleast.1 h.1, Int.lt_of_le_of_lt h.2 hgreatest.2⟩
  | signed bits =>
      obtain ⟨hlow, -⟩ := hleast
      obtain ⟨-, hhigh⟩ := hgreatest
      exact ⟨by omega, by omega⟩

end Width

/-! ### Places -/

/-- A place of a script that takes a number: what it is called, how many digits it allows, between
which bounds the number has to lie, and in which bits it is kept. A number with so many digits fits
64 bits, and one between the bounds fits the bits that it is kept in. -/
structure NumericPlace where
  field : String
  digits : Nat
  min : Int
  max : Int
  width : Width
  digits_le : digits ≤ 18 := by decide
  holds_min : width.Holds min := by decide
  holds_max : width.Holds max := by decide

namespace NumericPlace

/-- Reads a number from a text and cuts it to the bits that it is kept in. Blanks around it are
dropped; digits count without the minus sign. -/
def read (place : NumericPlace) (column : Nat) (text : List Char) : Except Issue Int :=
  let number := Text.trim text
  let digits := dropMinus number
  let written := String.ofList number
  if digits.isEmpty || place.digits < digits.length || !digits.all Char.isDigit then
    .error (.atColumn column (.malformedNumber place.field written))
  else
    let value := integerOfDigits number
    if place.min ≤ value ∧ value ≤ place.max then .ok (place.width.cast value)
    else .error (.atColumn column (.valueOutOfRange place.field written place.min place.max))

def byte (field : String) : NumericPlace :=
  { field, digits := 3, min := 0, max := 255, width := .unsigned 8 }

/-- Coordinates have 16 bits but are kept in 32. -/
def coordinate (field : String) : NumericPlace :=
  { field, digits := 5, min := -32768, max := 32767, width := .signed 32 }

/-! ### Places in statements -/

def itemId : NumericPlace :=
  { field := "item id", digits := 4, min := 0, max := 9999, width := .unsigned 16 }

def hairId : NumericPlace :=
  byte "hair id"

def beardId : NumericPlace :=
  byte "beard id"

def hairRed : NumericPlace :=
  byte "hair color red component"

def hairGreen : NumericPlace :=
  byte "hair color green component"

def hairBlue : NumericPlace :=
  byte "hair color blue component"

def skinRed : NumericPlace :=
  byte "skin color red component"

def skinGreen : NumericPlace :=
  byte "skin color green component"

def skinBlue : NumericPlace :=
  byte "skin color blue component"

def guardNorth : NumericPlace :=
  byte "guard range north"

def guardSouth : NumericPlace :=
  byte "guard range south"

def guardWest : NumericPlace :=
  byte "guard range west"

def guardEast : NumericPlace :=
  byte "guard range east"

def coordinateX : NumericPlace :=
  coordinate "x coordinate"

def coordinateY : NumericPlace :=
  coordinate "y coordinate"

def coordinateZ : NumericPlace :=
  coordinate "z coordinate"

def price : NumericPlace :=
  { field := "price", digits := 9, min := 0, max := 999999999, width := .unsigned 32 }

def stackSize : NumericPlace :=
  { field := "stack size", digits := 4, min := 1, max := 1000, width := .unsigned 16 }

def quality : NumericPlace :=
  { field := "quality", digits := 3, min := 0, max := 999, width := .unsigned 16 }

/-! ### Places in clauses -/

def chance : NumericPlace :=
  { field := "chance", digits := 3, min := 0, max := 100, width := .unsigned 8 }

def questId : NumericPlace :=
  { field := "quest id", digits := 5, min := 0, max := 65535, width := .unsigned 16 }

def treasureLevel : NumericPlace :=
  { field := "treasure level", digits := 1, min := 1, max := 9, width := .unsigned 8 }

def runeClass : NumericPlace :=
  byte "rune class"

def runeNumber : NumericPlace :=
  byte "rune number"

def itemQuality : NumericPlace :=
  { field := "item quality", digits := 3, min := 0, max := 999, width := .unsigned 16 }

end NumericPlace

end NpcScript
