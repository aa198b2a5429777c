import NpcScript.Proofs.Validity
import NpcScript.Proofs.Writing.Assignment
import NpcScript.Statement.Assigned

/-!
Writing the statements that are assignments. Each fact has a draft, and whatever has been read of a
line that was written from the draft states the fact again. The drafts follow the order in which the
values of a key are read.
-/

namespace NpcScript

open Grammar (Assignment AssignmentDraft Value ValueDraft)

namespace Grammar

namespace ValueDraft

def number (value : Int) : ValueDraft :=
  .atom (.number value)

def text (content : String) : ValueDraft :=
  .atom (.text content)

def word (spelling : List Char) : ValueDraft :=
  .atom (.word spelling)

def member {α : Type} [Vocabulary α] (a : α) : ValueDraft :=
  word (Vocabulary.token a).toList

@[simp] theorem isWritable_number (value : Int) : (number value).IsWritable := True.intro

@[simp] theorem isWritable_text (content : String) : (text content).IsWritable := True.intro

@[simp] theorem isWritable_word_iff {spelling : List Char} :
    (word spelling).IsWritable ↔ Grammar.IsWord spelling := Iff.rfl

@[simp] theorem isWritable_member {α : Type} [Vocabulary α] [LegibleVocabulary α] (a : α) :
    (member a).IsWritable :=
  Vocabulary.isWord_token a

end ValueDraft

/-- What has been read of a line that was written from the draft makes the statement. -/
structure AssignmentDraft.States (context : Context) (draft : AssignmentDraft)
    (statement : Statement) : Prop where
  isWritable : draft.IsWritable
  statement_eq : ∀ line key values, List.Forall₂ ValueDraft.Describes draft.values values →
    draft.key.statement context line ⟨key, values⟩ = .ok statement

end Grammar

/-! ### Values that belong together -/

def Position.values (position : Position) : List ValueDraft :=
  [.number position.x, .number position.y, .number position.z]

def Color.values (color : Color) : List ValueDraft :=
  [.number color.red, .number color.green, .number color.blue]

def LocalizedText.values (text : LocalizedText) : List ValueDraft :=
  [.text text.german, .text text.english]

section Writable

variable (key : AssignmentKey)

theorem Position.isWritable_values (position : Position) :
    AssignmentDraft.IsWritable ⟨key, position.values⟩ :=
  ⟨by simp [values], by simp [values]⟩

theorem Color.isWritable_values (color : Color) :
    AssignmentDraft.IsWritable ⟨key, color.values⟩ :=
  ⟨by simp [values], by simp [values]⟩

theorem LocalizedText.isWritable_values (text : LocalizedText) :
    AssignmentDraft.IsWritable ⟨key, text.values⟩ :=
  ⟨by simp [values], by simp [values]⟩

end Writable

section Values

variable {values : List Value} (key : List Char) (expected : String)

theorem single_eq {draft : ValueDraft}
    (h : List.Forall₂ ValueDraft.Describes [draft] values) :
    ∃ value, draft.Describes value ∧
      Assignment.single ⟨key, values⟩ expected = .ok value := by
  obtain _ | ⟨hvalue, _ | _⟩ := h
  exact ⟨_, hvalue, rfl⟩

theorem triple_eq {first second third : ValueDraft}
    (h : List.Forall₂ ValueDraft.Describes [first, second, third] values) :
    ∃ x y z, first.Describes x ∧ second.Describes y ∧ third.Describes z ∧
      Assignment.triple ⟨key, values⟩ expected = .ok (x, y, z) := by
  obtain _ | ⟨hx, _ | ⟨hy, _ | ⟨hz, _ | _⟩⟩⟩ := h
  exact ⟨_, _, _, hx, hy, hz, rfl⟩

theorem localizedText_eq {text : LocalizedText}
    (h : List.Forall₂ ValueDraft.Describes text.values values) :
    Assignment.localizedText ⟨key, values⟩ expected = .ok text := by
  obtain _ | ⟨hgerman, _ | ⟨henglish, _ | _⟩⟩ := h
  simp only [Assignment.localizedText, ValueDraft.quotedText_eq hgerman,
    ValueDraft.quotedText_eq henglish]
  rfl

theorem position_eq {position : Position} (h : position.IsValid)
    (hvalues : List.Forall₂ ValueDraft.Describes position.values values) :
    ∃ x y z, Assignment.triple ⟨key, values⟩ expected = .ok (x, y, z) ∧
      Value.position x y z = .ok position := by
  obtain ⟨x, y, z, hx, hy, hz, htriple⟩ := triple_eq key expected hvalues
  have hx := ValueDraft.integer_eq .coordinateX (by decide) h.x hx
  have hy := ValueDraft.integer_eq .coordinateY (by decide) h.y hy
  have hz := ValueDraft.integer_eq .coordinateZ (by decide) h.z hz
  refine ⟨x, y, z, htriple, ?_⟩
  simp only [Value.position, hx, hy, hz]
  rfl

end Values

/-! ### Identity -/

namespace Identity

def key : Identity → IdentityKey
  | .name _ => .name
  | .sex _ => .sex
  | .race _ => .race
  | .direction _ => .direction
  | .position _ => .position
  | .author _ => .author
  | .job _ => .job
  | .affiliation _ => .affiliation
  | .defaultLanguage _ => .defaultLanguage
  | .language _ => .language
  | .lookAt .german _ => .lookAtDe
  | .lookAt .english _ => .lookAtUs
  | .useMessage .german _ => .useMsgDe
  | .useMessage .english _ => .useMsgUs
  | .wrongLanguage .german _ => .wrongLangDe
  | .wrongLanguage .english _ => .wrongLangUs
  | .autoIntroduce _ => .autoIntroduce

def values : Identity → List ValueDraft
  | .name content | .author content | .job content | .lookAt _ content | .useMessage _ content
  | .wrongLanguage _ content => [.text content]
  | .sex member => [.member member]
  | .race member => [.member member]
  | .direction member => [.member member]
  | .position place => place.values
  | .affiliation member => [.member member]
  | .defaultLanguage member | .language member => [.member member]
  | .autoIntroduce true => [.word "on".toList]
  | .autoIntroduce false => [.word "off".toList]

def draft (fact : Identity) : AssignmentDraft :=
  ⟨.identity fact.key, fact.values⟩

theorem isWritable_draft (fact : Identity) : fact.draft.IsWritable := by
  cases fact with
  | name content | author content | job content | lookAt locale content
  | useMessage locale content | wrongLanguage locale content =>
      exact ⟨by simp [draft, values], by simp [draft, values]⟩
  | sex member | race member | direction member | affiliation member | defaultLanguage member
  | language member => exact ⟨by simp [draft, values], by simp [draft, values]⟩
  | position place => exact place.isWritable_values _
  | autoIntroduce on =>
      have hword : Grammar.IsWord "on".toList ∧ Grammar.IsWord "off".toList :=
        ⟨.intro rfl (List.all_eq_true.mp rfl), .intro rfl (List.all_eq_true.mp rfl)⟩
      cases on with
      | false => exact ⟨by simp [draft, values], by simpa [draft, values] using hword.2⟩
      | true => exact ⟨by simp [draft, values], by simpa [draft, values] using hword.1⟩

theorem ofAssignment_eq {fact : Identity} (h : fact.IsValid) {values : List Value}
    (hvalues : List.Forall₂ ValueDraft.Describes fact.values values) (key : List Char) :
    Identity.ofAssignment fact.key ⟨key, values⟩ = .ok fact := by
  have htext {content : String} (hvalues : List.Forall₂ ValueDraft.Describes [.text content] values)
      (expected : String) : (do
        (← Assignment.single ⟨key, values⟩ expected).quotedText key expected) = .ok content := by
    obtain ⟨value, hvalue, hsingle⟩ := single_eq key expected hvalues
    rw [hsingle]
    exact ValueDraft.quotedText_eq hvalue key expected
  have hmember {α : Type} [Vocabulary α] [LegibleVocabulary α] {a : α}
      (hvalues : List.Forall₂ ValueDraft.Describes [.member a] values) (expected field : String) :
      (do
        let value ← Assignment.single ⟨key, values⟩ expected
        Vocabulary.resolve α field value.column (← value.token key expected)) = .ok a := by
    obtain ⟨value, hvalue, hsingle⟩ := single_eq key expected hvalues
    simp only [hsingle, bind, Except.bind, ValueDraft.token_eq hvalue, Vocabulary.resolve_token]
  cases fact with
  | name content | author content | job content =>
      simp only [Identity.ofAssignment, Identity.key, htext hvalues]
      rfl
  | lookAt locale content | useMessage locale content | wrongLanguage locale content =>
      cases locale <;> (simp only [Identity.ofAssignment, Identity.key, htext hvalues]; rfl)
  | sex member | race member | direction member | affiliation member | defaultLanguage member
  | language member =>
      simp only [Identity.ofAssignment, Identity.key, hmember hvalues]
      rfl
  | position place =>
      obtain ⟨x, y, z, htriple, hposition⟩ :=
        position_eq key IdentityKey.position.expected h hvalues
      simp only [Identity.ofAssignment, Identity.key, htriple]
      show (do return Identity.position (← Value.position x y z)) = _
      rw [hposition]
      rfl
  | autoIntroduce on =>
      cases on with
      | false | true =>
          obtain ⟨value, hvalue, hsingle⟩ :=
            single_eq key IdentityKey.autoIntroduce.expected hvalues
          simp only [Identity.ofAssignment, Identity.key, hsingle, bind, Except.bind,
            ValueDraft.token_eq hvalue]
          rfl

theorem states_draft (context : Context) {fact : Identity} (h : fact.IsValid) :
    fact.draft.States context (.identity fact) where
  isWritable := fact.isWritable_draft
  statement_eq line key values hvalues := by
    simp only [draft, AssignmentKey.statement, ofAssignment_eq h hvalues]
    rfl

end Identity

/-! ### Appearance and equipment -/

theorem Color.ofValues_eq {color : Color} (h : color.IsValid) {red green blue : Value}
    (hred : (ValueDraft.number color.red).Describes red)
    (hgreen : (ValueDraft.number color.green).Describes green)
    (hblue : (ValueDraft.number color.blue).Describes blue)
    (redField greenField blueField : String) :
    Color.ofValues (.byte redField) (.byte greenField) (.byte blueField) red green blue =
      .ok color := by
  have hread (field : String) {n : Nat} (hn : n ≤ 255) {found : Value}
      (hfound : (ValueDraft.number n).Describes found) : found.natural (.byte field) = .ok n :=
    ValueDraft.natural_eq (.byte field) (NumericPlace.isWide_byte field) rfl rfl
      ⟨Nat.zero_le n, hn⟩ hfound
  have hred := hread redField h.red hred
  have hgreen := hread greenField h.green hgreen
  have hblue := hread blueField h.blue hblue
  simp only [ofValues, hred, hgreen, hblue]
  rfl

namespace Appearance

def draft : Appearance → AssignmentDraft
  | .hairId id => ⟨.appearance .hairId, [.number id]⟩
  | .beardId id => ⟨.appearance .beardId, [.number id]⟩
  | .skinColor color => ⟨.appearance .colorSkin, color.values⟩
  | .hairColor color => ⟨.appearance .colorHair, color.values⟩

theorem states_draft (context : Context) {fact : Appearance} (h : fact.IsValid) :
    fact.draft.States context (.appearance fact) := by
  cases fact with
  | hairId id =>
      refine ⟨⟨by simp [draft], by simp [draft]⟩, fun line key values hvalues => ?_⟩
      obtain ⟨value, hvalue, hsingle⟩ := single_eq key AppearanceKey.hairId.expected hvalues
      have hid := ValueDraft.natural_eq .hairId (by decide) rfl rfl ⟨Nat.zero_le id, h⟩ hvalue
      simp only [draft, AssignmentKey.statement, Appearance.ofAssignment, hsingle, bind,
        Except.bind, hid]
      rfl
  | beardId id =>
      refine ⟨⟨by simp [draft], by simp [draft]⟩, fun line key values hvalues => ?_⟩
      obtain ⟨value, hvalue, hsingle⟩ := single_eq key AppearanceKey.beardId.expected hvalues
      have hid := ValueDraft.natural_eq .beardId (by decide) rfl rfl ⟨Nat.zero_le id, h⟩ hvalue
      simp only [draft, AssignmentKey.statement, Appearance.ofAssignment, hsingle, bind,
        Except.bind, hid]
      rfl
  | skinColor color =>
      refine ⟨color.isWritable_values _, fun line key values hvalues => ?_⟩
      obtain ⟨red, green, blue, hred, hgreen, hblue, htriple⟩ :=
        triple_eq key AppearanceKey.colorSkin.expected hvalues
      have hcolor : Color.ofValues .skinRed .skinGreen .skinBlue red green blue = .ok color :=
        Color.ofValues_eq h hred hgreen hblue _ _ _
      simp only [draft, AssignmentKey.statement, Appearance.ofAssignment, htriple, Checked.ofPart,
        bind, Except.bind, hcolor]
      rfl
  | hairColor color =>
      refine ⟨color.isWritable_values _, fun line key values hvalues => ?_⟩
      obtain ⟨red, green, blue, hred, hgreen, hblue, htriple⟩ :=
        triple_eq key AppearanceKey.colorHair.expected hvalues
      have hcolor : Color.ofValues .hairRed .hairGreen .hairBlue red green blue = .ok color :=
        Color.ofValues_eq h hred hgreen hblue _ _ _
      simp only [draft, AssignmentKey.statement, Appearance.ofAssignment, htriple, Checked.ofPart,
        bind, Except.bind, hcolor]
      rfl

end Appearance

/-- An empty place is written as the number 0. -/
def EquipmentSlot.draft (slot : EquipmentSlot) (item : Option Item) : AssignmentDraft :=
  ⟨.equipment slot, [.number (item.elim 0 Item.id : Nat)]⟩

theorem EquipmentSlot.states_draft (context : Context) (slot : EquipmentSlot) {item : Option Item}
    (h : (Statement.equipment slot item).IsValid context) :
    (slot.draft item).States context (.equipment slot item) := by
  refine ⟨⟨by simp [draft], by simp [draft]⟩, fun line key values hvalues => ?_⟩
  obtain ⟨value, hvalue, hsingle⟩ := single_eq key EquipmentSlot.expected hvalues
  cases item with
  | none =>
      have hadmits : NumericPlace.itemId.Admits ((none : Option Item).elim 0 Item.id : Nat) :=
        NumericPlace.admits_natCast rfl rfl (by decide)
      have hid := ValueDraft.integer_eq .itemId (by decide) hadmits hvalue
      simp only [draft, AssignmentKey.statement, itemOfAssignment, hsingle, bind, Except.bind, hid]
      rfl
  | some worn =>
      obtain ⟨hvalid, hne⟩ := h worn rfl
      have hadmits : NumericPlace.itemId.Admits worn.id :=
        NumericPlace.admits_natCast rfl rfl ⟨Nat.zero_le _, hvalid.id_le⟩
      have hid := ValueDraft.integer_eq .itemId (by decide) hadmits hvalue
      have hworn : context.item line value.column value.text = .ok worn := by
        obtain ⟨column, rfl⟩ := hvalue
        exact context.item_numeral hvalid line column
      have hne : ((worn.id : Nat) : Int) ≠ 0 := by exact_mod_cast hne
      simp only [draft, AssignmentKey.statement, itemOfAssignment, hsingle, bind, Except.bind, hid]
      rw [if_neg hne, hworn]
      rfl

/-! ### Guards and cycle texts -/

namespace Guard

def draft : Guard → AssignmentDraft
  | .range north south west east =>
    ⟨.guard .guardRange, [.number north, .number south, .number west, .number east]⟩
  | .warpTarget target => ⟨.guard .guardWarpTarget, target.values⟩
  | .text .warpedMonster spoken => ⟨.guard .warpedMonsterMsg, spoken.values⟩
  | .text .warpedPlayer spoken => ⟨.guard .warpedPlayerMsg, spoken.values⟩
  | .text .hitPlayer spoken => ⟨.guard .hitPlayerMsg, spoken.values⟩

theorem states_draft (context : Context) {fact : Guard} (h : fact.IsValid) :
    fact.draft.States context (.guard fact) := by
  cases fact with
  | range north south west east =>
      refine ⟨⟨by simp [draft], by simp [draft]⟩, fun line key values hvalues => ?_⟩
      obtain ⟨hnorth, hsouth, hwest, heast⟩ := h
      obtain _ | ⟨hn, _ | ⟨hs, _ | ⟨hw, _ | ⟨he, _ | _⟩⟩⟩⟩ := hvalues
      have hn := ValueDraft.natural_eq .guardNorth (by decide) rfl rfl ⟨Nat.zero_le _, hnorth⟩ hn
      have hs := ValueDraft.natural_eq .guardSouth (by decide) rfl rfl ⟨Nat.zero_le _, hsouth⟩ hs
      have hw := ValueDraft.natural_eq .guardWest (by decide) rfl rfl ⟨Nat.zero_le _, hwest⟩ hw
      have he := ValueDraft.natural_eq .guardEast (by decide) rfl rfl ⟨Nat.zero_le _, heast⟩ he
      simp only [draft, AssignmentKey.statement, Guard.ofAssignment, Assignment.quadruple,
        Checked.ofPart, bind, Except.bind, hn, hs, hw, he]
      rfl
  | warpTarget target =>
      refine ⟨target.isWritable_values _, fun line key values hvalues => ?_⟩
      obtain ⟨x, y, z, htriple, hposition⟩ :=
        position_eq key GuardKey.guardWarpTarget.expected h hvalues
      simp only [draft, AssignmentKey.statement, Guard.ofAssignment, htriple, bind, Except.bind,
        hposition]
      rfl
  | text kind text =>
      cases kind with
      | warpedMonster | warpedPlayer | hitPlayer =>
          refine ⟨text.isWritable_values _, fun line key values hvalues => ?_⟩
          simp only [draft, AssignmentKey.statement, Guard.ofAssignment,
            localizedText_eq key _ hvalues]
          rfl

end Guard

def LocalizedText.draft (text : LocalizedText) : AssignmentDraft :=
  ⟨.cycleText, text.values⟩

theorem LocalizedText.states_draft (context : Context) (text : LocalizedText) :
    text.draft.States context (.cycleText text) := by
  refine ⟨text.isWritable_values _, fun line key values hvalues => ?_⟩
  simp only [draft, AssignmentKey.statement, localizedText_eq key _ hvalues]
  rfl

end NpcScript
