import NpcScript.Proofs.Ending
import NpcScript.Proofs.Validity

/-!
How numbers, items, skills and words are read. A number that is read lies in the range of its place,
an item or a skill that is found is a valid one, and where nothing comes of it there is a fault.
-/

namespace NpcScript

open Text

def NumericPlace.Admits (place : NumericPlace) (value : Int) : Prop :=
  place.min ≤ value ∧ value ≤ place.max

/-- A number between the bounds of a place is kept as it is. -/
theorem NumericPlace.cast_of_admits {place : NumericPlace} {value : Int}
    (h : place.Admits value) : place.width.cast value = value :=
  Width.cast_of_holds (place.holds_min.between place.holds_max h)

theorem NumericPlace.read_ends (place : NumericPlace) (column : Nat) (text : List Char) :
    Ends (place.read column text) place.Admits Issue.IsFault := by
  simp only [read]
  split
  · exact True.intro
  · split
    · rename_i hrange
      rw [place.cast_of_admits hrange]
      exact hrange
    · exact True.intro

/-- A place for natural numbers whose bounds are known. -/
theorem Ends.toNat {result : Except Issue Int} {place : NumericPlace} {min max : Nat}
    (h : Ends result place.Admits Issue.IsFault) (hmin : place.min = min) (hmax : place.max = max) :
    Ends (Int.toNat <$> result) (fun n => min ≤ n ∧ n ≤ max) Issue.IsFault := by
  refine h.map fun value hvalue => ?_
  obtain ⟨hlow, hhigh⟩ := hvalue
  omega

theorem Vocabulary.resolve_ends (α : Type) [Vocabulary α] (field : String) (column : Nat)
    (token : List Char) :
    Ends (Vocabulary.resolve α field column token) (fun _ => True) Issue.IsFault := by
  unfold resolve
  split <;> exact True.intro

namespace Context

variable (context : Context)

/-- The item that a text names has the number that the text stands for. -/
theorem item_ends_read (source : List Char) (column : Nat) (text : List Char) :
    Ends (context.item source column text)
      (fun found => found.IsValid context ∧
        NumericPlace.itemId.read column text = .ok (found.id : Int)) Issue.IsFault := by
  refine (NumericPlace.itemId.read_ends column text).remember.bind fun value hvalue => ?_
  obtain ⟨hread, hlow, hhigh⟩ := hvalue
  have hlow : 0 ≤ value := hlow
  have hhigh : value ≤ 9999 := hhigh
  dsimp only
  split
  · rename_i found hfound
    have hid := ItemCatalog.id_eq_of_find? hfound
    refine ⟨⟨by omega, ?_⟩, ?_⟩
    · rw [hid]
      exact hfound
    · rw [hread, hid, Int.toNat_of_nonneg hlow]
  · exact True.intro

theorem item_ends (source : List Char) (column : Nat) (text : List Char) :
    Ends (context.item source column text) (Item.IsValid context) Issue.IsFault :=
  (context.item_ends_read source column text).mono fun _ hfound => hfound.1

/-- A skill that is found is found again under its own name: the name has no blanks around it, since
the text it was found by has none when it is compared. -/
theorem isValidName_of_find? {name : List Char} {skill : Skill}
    (h : context.skills.find? name = some skill) : Skill.IsValidName context skill.name := by
  have hlower : lower skill.name.toList = lower (trim name) := by
    simpa [Skill.key] using congrArg String.toList (SkillCatalog.key_eq_of_find? h)
  have htrimmed : IsTrimmed skill.name.toList := by
    rw [← isTrimmed_lower_iff, hlower, isTrimmed_lower_iff]
    exact isTrimmed_trim name
  refine ⟨skill, ?_, rfl⟩
  rw [← h]
  simp only [SkillCatalog.find?, Skill.key, trim_eq_self htrimmed, hlower]

theorem skill_ends (column : Nat) (name : List Char) :
    Ends (context.skill column name) (Skill.IsValidName context) Issue.IsFault := by
  unfold skill
  split
  · rename_i found hfound
    exact context.isValidName_of_find? hfound
  · exact True.intro

end Context

end NpcScript
