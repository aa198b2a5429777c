import NpcScript.Checked
import NpcScript.Keyword
import NpcScript.Statement.Value

/-!
# Identity statements

`name = "Guard Bob"`, `race = human`, `position = 100, -20, 0` and their like.
-/

namespace NpcScript

open Grammar (Assignment)

namespace IdentityKey

def expected : IdentityKey → String
  | position => "`x, y, z`"
  | race | sex | direction | affiliation | defaultLanguage | language | autoIntroduce =>
    "a single token"
  | name | author | job | lookAtDe | lookAtUs | useMsgDe | useMsgUs | wrongLangDe | wrongLangUs =>
    "a single quoted text"

def isLocalized : IdentityKey → Bool
  | lookAtDe | lookAtUs | useMsgDe | useMsgUs | wrongLangDe | wrongLangUs => true
  | _ => false

end IdentityKey

/-- Reads a switch, which knows three words for on and three for off. -/
def readSwitch (field : String) (column : Nat) (token : List Char) : Except Issue Bool :=
  if ["on", "true", "yes"].any (Text.sameLetters token ·.toList) then .ok true
  else if ["off", "false", "no"].any (Text.sameLetters token ·.toList) then .ok false
  else
    .error (.atColumn column
      (.unknownToken field (String.ofList token) "on, off, true, false, yes, no"))

def Identity.ofAssignment (key : IdentityKey) (assignment : Assignment) :
    Except Issue Identity :=
  let text : Except Issue String := do
    (← assignment.single key.expected).quotedText assignment.key key.expected
  let member (α : Type) [Vocabulary α] (field : String) : Except Issue α := do
    let value ← assignment.single key.expected
    Vocabulary.resolve α field value.column (← value.token assignment.key key.expected)
  match key with
  | .name => .name <$> text
  | .author => .author <$> text
  | .job => .job <$> text
  | .race => .race <$> member Race "race"
  | .sex => .sex <$> member Sex "sex"
  | .direction => .direction <$> member Direction "direction"
  | .affiliation => .affiliation <$> member Town "town"
  | .defaultLanguage => .defaultLanguage <$> member Language "language"
  | .language => .language <$> member Language "language"
  | .position => do
    let (x, y, z) ← assignment.triple key.expected
    return .position (← Grammar.Value.position x y z)
  | .autoIntroduce => do
    let value ← assignment.single key.expected
    let token ← value.token assignment.key key.expected
    return .autoIntroduce (← readSwitch "autointroduce" value.column token)
  | .lookAtDe => .lookAt .german <$> text
  | .lookAtUs => .lookAt .english <$> text
  | .useMsgDe => .useMessage .german <$> text
  | .useMsgUs => .useMessage .english <$> text
  | .wrongLangDe => .wrongLanguage .german <$> text
  | .wrongLangUs => .wrongLanguage .english <$> text

end NpcScript
