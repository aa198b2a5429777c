import NpcScript.Checked
import NpcScript.Keyword
import NpcScript.Statement.Value

/-!
# Appearance and equipment statements

`hairID = 3`, `colorSkin = 245, 180, 137` and `itemMainHand = 2763`.
-/

namespace NpcScript

open Grammar (Assignment Value)

def AppearanceKey.expected : AppearanceKey → String
  | hairId | beardId => "a single id from 0 to 255"
  | colorHair | colorSkin => "`red, green, blue`"

namespace Color

/-- Reads the three components of a colour, each in a place of its own. -/
def ofValues (redPlace greenPlace bluePlace : NumericPlace) (red green blue : Value) :
    Checked Color :=
  let components :=
    Checked.both (.ofPart (red.natural redPlace))
      (Checked.both (.ofPart (green.natural greenPlace)) (.ofPart (blue.natural bluePlace)))
  components.map fun (red, green, blue) => ⟨red, green, blue⟩

end Color

def Appearance.ofAssignment (key : AppearanceKey) (assignment : Assignment) :
    Checked Appearance :=
  match key with
  | .hairId => .ofPart do
    return .hairId (← (← assignment.single key.expected).natural .hairId)
  | .beardId => .ofPart do
    return .beardId (← (← assignment.single key.expected).natural .beardId)
  | .colorHair => do
    let (red, green, blue) ← Checked.ofPart (assignment.triple key.expected)
    return .hairColor (← Color.ofValues .hairRed .hairGreen .hairBlue red green blue)
  | .colorSkin => do
    let (red, green, blue) ← Checked.ofPart (assignment.triple key.expected)
    return .skinColor (← Color.ofValues .skinRed .skinGreen .skinBlue red green blue)

def EquipmentSlot.expected : String :=
  "a single item id, 0 for an empty slot"

/-- The item that an equipment statement puts into its slot. The number 0 leaves the slot empty and
is not looked up. -/
def EquipmentSlot.itemOfAssignment (context : Context) (line : List Char)
    (assignment : Assignment) : Except Issue (Option Item) := do
  let value ← assignment.single EquipmentSlot.expected
  let id ← value.integer .itemId
  if id = 0 then return none
  return some (← context.item line value.column value.text)

end NpcScript
