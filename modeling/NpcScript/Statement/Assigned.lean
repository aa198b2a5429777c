import NpcScript.Statement.Appearance
import NpcScript.Statement.Guard
import NpcScript.Statement.Identity
import NpcScript.Statement.Kind
import NpcScript.Statement.Trade

/-!
# Statements of assignments

What an assignment states, for every key that it can have.
-/

namespace NpcScript

open Grammar (Assignment)

namespace AssignmentKey

/-- Whether the values are texts that players read in their language. -/
def isLocalized : AssignmentKey → Bool
  | identity key => key.isLocalized
  | trade key => (key.form matches .message _)
  | guard key => (key matches .warpedMonsterMsg | .warpedPlayerMsg | .hitPlayerMsg)
  | cycleText => true
  | appearance _ | equipment _ => false

def expected : AssignmentKey → String
  | identity key => key.expected
  | appearance key => key.expected
  | equipment _ => EquipmentSlot.expected
  | trade key => key.form.expected
  | guard key => key.expected
  | cycleText => cycleTextExpected

def statement (context : Context) (line : List Char) (assignment : Assignment) :
    AssignmentKey → Checked Statement
  | identity key => (Checked.ofPart (Identity.ofAssignment key assignment)).map .identity
  | appearance key => (Appearance.ofAssignment key assignment).map .appearance
  | equipment slot =>
    (Checked.ofPart (EquipmentSlot.itemOfAssignment context line assignment)).map
      (.equipment slot)
  | trade key => (Trade.ofAssignment context line key.form assignment).map .trade
  | guard key => (Guard.ofAssignment key assignment).map .guard
  | cycleText =>
    (Checked.ofPart (assignment.localizedText cycleTextExpected)).map .cycleText

def warnings (key : AssignmentKey) (assignment : Assignment) : List Issue :=
  if key.isLocalized then assignment.values.filterMap Grammar.Value.quoteWarning? else []

end AssignmentKey

end NpcScript
