import NpcScript.Checked
import NpcScript.Keyword
import NpcScript.Statement.Value

/-!
# Guard statements and cycle texts

`guardRange = 5, 5, 5, 5`, `guardWarpTarget = 100, -20, 0` and the texts that an NPC speaks without
being asked.
-/

namespace NpcScript

open Grammar (Assignment)

def GuardKey.expected : GuardKey → String
  | guardRange => "`north, south, west, east`"
  | guardWarpTarget => "`x, y, z`"
  | warpedMonsterMsg | warpedPlayerMsg | hitPlayerMsg => "a German and an English text"

def Guard.ofAssignment (key : GuardKey) (assignment : Assignment) : Checked Guard :=
  let text (kind : GuardTextKind) : Checked Guard :=
    (Checked.ofPart (assignment.localizedText key.expected)).map (.text kind)
  match key with
  | .guardRange => do
    let (north, south, west, east) ← Checked.ofPart (assignment.quadruple key.expected)
    let sides :=
      Checked.both (.ofPart (north.natural .guardNorth))
        (Checked.both (.ofPart (south.natural .guardSouth))
          (Checked.both (.ofPart (west.natural .guardWest)) (.ofPart (east.natural .guardEast))))
    return (fun (north, south, west, east) => .range north south west east) (← sides)
  | .guardWarpTarget => .ofPart do
    let (x, y, z) ← assignment.triple key.expected
    return .warpTarget (← Grammar.Value.position x y z)
  | .warpedMonsterMsg => text .warpedMonster
  | .warpedPlayerMsg => text .warpedPlayer
  | .hitPlayerMsg => text .hitPlayer

def cycleTextExpected : String :=
  "a German and an English text"

end NpcScript
