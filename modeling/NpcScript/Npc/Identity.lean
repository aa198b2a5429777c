import NpcScript.Npc.Dialogue

/-!
# Identity

Who an NPC is. Most of these facts hold once for an NPC, so stating one again replaces what was said
before; an NPC may have several authors and speak several languages.
-/

namespace NpcScript

inductive Identity where
  | name (text : String)
  | sex (sex : Sex)
  | race (race : Race)
  | direction (direction : Direction)
  | position (position : Position)
  | author (text : String)
  | job (text : String)
  | affiliation (town : Town)
  | defaultLanguage (language : Language)
  | language (language : Language)
  | lookAt (locale : Locale) (text : String)
  | useMessage (locale : Locale) (text : String)
  /-- The reply to a player who talks in a language the NPC does not know. -/
  | wrongLanguage (locale : Locale) (text : String)
  | autoIntroduce (on : Bool)
  deriving DecidableEq

inductive IdentityKind where
  | name | sex | race | direction | position | author | job | affiliation | defaultLanguage
  | language | lookAt | useMessage | wrongLanguage | autoIntroduce
  deriving DecidableEq

def IdentityKind.label : IdentityKind → String
  | name => "Name"
  | sex => "Sex"
  | race => "Race"
  | direction => "Direction"
  | position => "Position"
  | author => "Author"
  | job => "Job"
  | affiliation => "Affiliation"
  | defaultLanguage => "DefaultLanguage"
  | language => "Language"
  | lookAt => "LookAt"
  | useMessage => "UseMessage"
  | wrongLanguage => "WrongLanguage"
  | autoIntroduce => "AutoIntroduce"

/-- The place that a single-valued fact takes in a document. Texts written once per language of the
reader have a place for each. -/
structure Slot where
  kind : IdentityKind
  locale : Option Locale
  deriving DecidableEq

namespace Identity

def kind : Identity → IdentityKind
  | name _ => .name
  | sex _ => .sex
  | race _ => .race
  | direction _ => .direction
  | position _ => .position
  | author _ => .author
  | job _ => .job
  | affiliation _ => .affiliation
  | defaultLanguage _ => .defaultLanguage
  | language _ => .language
  | lookAt _ _ => .lookAt
  | useMessage _ _ => .useMessage
  | wrongLanguage _ _ => .wrongLanguage
  | autoIntroduce _ => .autoIntroduce

/-- The place in which a later fact replaces this one. Authors and languages add up and have none.
-/
def slot : Identity → Option Slot
  | author _ | language _ => none
  | field@(lookAt locale _) | field@(useMessage locale _) | field@(wrongLanguage locale _) =>
    some ⟨field.kind, some locale⟩
  | field => some ⟨field.kind, none⟩

end Identity

end NpcScript
