import NpcScript.Text.Character
import Std.Data.HashMap

/-!
# Skill catalogs

Scripts name skills by their words. A catalog finds a skill whatever the letter case it is asked in,
and answers with the spelling it was given.
-/

namespace NpcScript

structure Skill where
  name : String
  group : Option String
  deriving DecidableEq

def Skill.key (name : List Char) : String :=
  String.ofList (Text.lower name)

structure SkillCatalog where
  byName : Std.HashMap String Skill
  key_eq : ∀ {key : String} {skill : Skill},
    byName[key]? = some skill → Skill.key skill.name.toList = key

namespace SkillCatalog

open Skill (key)

theorem key_eq_of_getElem?_empty {k : String} {skill : Skill}
    (h : ({} : Std.HashMap String Skill)[k]? = some skill) : key skill.name.toList = k := by
  simp at h

instance : EmptyCollection SkillCatalog where
  emptyCollection := ⟨{}, key_eq_of_getElem?_empty⟩

/-- The catalog with a skill in it; a skill of the same name up to letter case gives way. -/
def insert (catalog : SkillCatalog) (skill : Skill) : SkillCatalog where
  byName := catalog.byName.insert (key skill.name.toList) skill
  key_eq := by
    intro k found h
    rw [Std.HashMap.getElem?_insert] at h
    split at h
    · simp_all
    · exact catalog.key_eq h

def ofList (skills : List Skill) : SkillCatalog :=
  skills.foldl insert {}

/-- The skill that a text names when the blanks around it and its letter case are ignored. -/
def find? (catalog : SkillCatalog) (name : List Char) : Option Skill :=
  catalog.byName[key (Text.trim name)]?

@[simp]
theorem find?_empty (name : List Char) : ({} : SkillCatalog).find? name = none :=
  Std.HashMap.getElem?_empty

/-- An insertion changes what is found under one key only. -/
theorem find?_insert (catalog : SkillCatalog) (skill : Skill) (name : List Char) :
    (catalog.insert skill).find? name =
      if key skill.name.toList = key (Text.trim name) then some skill
      else catalog.find? name := by
  simp [find?, insert, Std.HashMap.getElem?_insert]

theorem key_eq_of_find? {catalog : SkillCatalog} {name : List Char} {skill : Skill}
    (h : catalog.find? name = some skill) :
    key skill.name.toList = key (Text.trim name) :=
  catalog.key_eq h

def size (catalog : SkillCatalog) : Nat :=
  catalog.byName.size

end SkillCatalog

end NpcScript
