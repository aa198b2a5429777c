import Mathlib.Data.List.Nodup
import NpcScript.Dump.Statement
import NpcScript.Proofs.Ron.Layout

/-!
Statements shown as data. Each kind of data is shown by legible values, different data by different
ones; what is made of other data, as lists and options are, inherits this from its parts. Two
alternatives of one kind differ in their names, so only an alternative and itself are left to
compare by their parts.
-/

namespace NpcScript

open Ron (Value IsName)

/-- Data is shown by legible values, from which it can be told. -/
structure IsFaithful {α : Type} (toRon : α → Value) : Prop where
  isLegible : ∀ a, (toRon a).IsLegible
  inj : ∀ a b, toRon a = toRon b ↔ a = b

namespace Ron.Value.IsLegible

attribute [simp] integer boolean text absent

variable {name : String} {value : Value} {elements : List Value} {fields : List (String × Value)}

@[simp] theorem list_iff : IsLegible (.list elements) ↔ ∀ v ∈ elements, v.IsLegible :=
  ⟨fun | .list h => h, .list⟩

@[simp] theorem tuple_iff : IsLegible (.tuple elements) ↔ ∀ v ∈ elements, v.IsLegible :=
  ⟨fun | .tuple h => h, .tuple⟩

@[simp] theorem tag_iff : IsLegible (.tag name) ↔ IsName name :=
  ⟨fun | .tag h => h, .tag⟩

@[simp] theorem tagged_iff : IsLegible (.tagged name value) ↔ IsName name ∧ value.IsLegible :=
  ⟨fun | .tagged hname h => ⟨hname, h⟩, fun h => .tagged h.1 h.2⟩

@[simp] theorem record_iff :
    IsLegible (.record fields) ↔ ∀ f ∈ fields, IsName f.1 ∧ f.2.IsLegible :=
  ⟨fun | .record hnames h => fun f hf => ⟨hnames f hf, h f hf⟩,
    fun h => .record (fun f hf => (h f hf).1) fun f hf => (h f hf).2⟩

@[simp] theorem taggedRecord_iff : IsLegible (.taggedRecord name fields) ↔
    IsName name ∧ ∀ f ∈ fields, IsName f.1 ∧ f.2.IsLegible :=
  ⟨fun | .taggedRecord hname hnames h => ⟨hname, fun f hf => ⟨hnames f hf, h f hf⟩⟩,
    fun h => .taggedRecord h.1 (fun f hf => (h.2 f hf).1) fun f hf => (h.2 f hf).2⟩

end Ron.Value.IsLegible

/-! ### Parts -/

namespace IsFaithful

theorem natural : IsFaithful fun n : Nat => Value.integer n :=
  ⟨by simp, by simp⟩

theorem text : IsFaithful Value.text :=
  ⟨by simp, by simp⟩

variable {α : Type} {toRon : α → Value}

theorem list (h : IsFaithful toRon) : IsFaithful fun as : List α => Value.list (as.map toRon) where
  isLegible as := by simpa using fun a _ => h.isLegible a
  inj as bs := by
    rw [Value.list.injEq, List.map_inj_right fun a b => (h.inj a b).mp]

theorem ofOption (h : IsFaithful toRon) : IsFaithful (Value.ofOption toRon) where
  isLegible a := by
    cases a with
    | none => exact .absent
    | some a => exact .present (h.isLegible a)
  inj a b := by
    cases a <;> cases b <;> simp [Value.ofOption, h.inj]

end IsFaithful

/-! ### Vocabularies -/

class NamedVocabulary (α : Type) [Vocabulary α] : Prop where
  isName : ∀ a ∈ (Vocabulary.all : List α), IsName (Vocabulary.name a)
  nodup : ((Vocabulary.all : List α).map Vocabulary.name).Nodup

theorem Vocabulary.isFaithful_toRon {α : Type} [Vocabulary α] [NamedVocabulary α] :
    IsFaithful (toRon : α → Value) where
  isLegible a := .tag (NamedVocabulary.isName a (mem_all a))
  inj a b := by
    rw [toRon, toRon, Value.tag.injEq]
    exact ⟨fun h => List.inj_on_of_nodup_map NamedVocabulary.nodup (mem_all a) (mem_all b) h,
      congrArg name⟩

instance : NamedVocabulary Race := ⟨by decide +kernel, by decide +kernel⟩
instance : NamedVocabulary Sex := ⟨by decide +kernel, by decide +kernel⟩
instance : NamedVocabulary Direction := ⟨by decide +kernel, by decide +kernel⟩
instance : NamedVocabulary Town := ⟨by decide +kernel, by decide +kernel⟩
instance : NamedVocabulary Language := ⟨by decide +kernel, by decide +kernel⟩
instance : NamedVocabulary Locale := ⟨by decide +kernel, by decide +kernel⟩
instance : NamedVocabulary EquipmentSlot := ⟨by decide +kernel, by decide +kernel⟩
instance : NamedVocabulary CharacterAttribute := ⟨by decide +kernel, by decide +kernel⟩
instance : NamedVocabulary ItemLocation := ⟨by decide +kernel, by decide +kernel⟩
instance : NamedVocabulary MagicType := ⟨by decide +kernel, by decide +kernel⟩
instance : NamedVocabulary TalkMode := ⟨by decide +kernel, by decide +kernel⟩
instance : NamedVocabulary TalkState := ⟨by decide +kernel, by decide +kernel⟩
instance : NamedVocabulary ArenaTask := ⟨by decide +kernel, by decide +kernel⟩
instance : NamedVocabulary TradeMode := ⟨by decide +kernel, by decide +kernel⟩
instance : NamedVocabulary TradeMessageKind := ⟨by decide +kernel, by decide +kernel⟩
instance : NamedVocabulary GuardTextKind := ⟨by decide +kernel, by decide +kernel⟩
instance : NamedVocabulary CompareOperator := ⟨by decide +kernel, by decide +kernel⟩
instance : NamedVocabulary CalculationOperator := ⟨by decide +kernel, by decide +kernel⟩

theorem Item.isFaithful_toRon : IsFaithful Item.toRon where
  isLegible a := by simp +decide [toRon]
  inj := by
    rintro ⟨⟩ ⟨⟩
    simp [toRon]

theorem Position.isFaithful_toRon : IsFaithful Position.toRon where
  isLegible a := by simp +decide [toRon]
  inj := by
    rintro ⟨⟩ ⟨⟩
    simp [toRon]

theorem Color.isFaithful_toRon : IsFaithful Color.toRon where
  isLegible a := by simp +decide [toRon]
  inj := by
    rintro ⟨⟩ ⟨⟩
    simp [toRon]

theorem LocalizedText.isFaithful_toRon : IsFaithful LocalizedText.toRon where
  isLegible a := by simp +decide [toRon]
  inj := by
    rintro ⟨⟩ ⟨⟩
    simp [toRon]

theorem Quantity.isFaithful_toRon : IsFaithful Quantity.toRon where
  isLegible a := by cases a <;> simp +decide [toRon]
  inj a b := by cases a <;> cases b <;> simp [toRon]

/-! ### Clauses -/

theorem Condition.isFaithful_toRon : IsFaithful Condition.toRon where
  isLegible a := by
    cases a <;>
      simp +decide [toRon, comparisonFields, Vocabulary.isFaithful_toRon.isLegible,
        Item.isFaithful_toRon.isLegible, Quantity.isFaithful_toRon.isLegible]
  inj a b := by
    cases a <;> cases b <;>
      simp [toRon, comparisonFields, Vocabulary.isFaithful_toRon.inj, Item.isFaithful_toRon.inj,
        Quantity.isFaithful_toRon.inj]

theorem Consequence.isFaithful_toRon : IsFaithful Consequence.toRon where
  isLegible a := by
    cases a <;>
      simp +decide [toRon, calculationFields, Vocabulary.isFaithful_toRon.isLegible,
        Item.isFaithful_toRon.isLegible, Quantity.isFaithful_toRon.isLegible,
        Position.isFaithful_toRon.isLegible, IsFaithful.natural.ofOption.isLegible]
  inj a b := by
    cases a <;> cases b <;>
      simp [toRon, calculationFields, Vocabulary.isFaithful_toRon.inj, Item.isFaithful_toRon.inj,
        Quantity.isFaithful_toRon.inj, Position.isFaithful_toRon.inj,
        IsFaithful.natural.ofOption.inj]

theorem DialogueLine.isFaithful_toRon : IsFaithful DialogueLine.toRon where
  isLegible a := by
    simp +decide [toRon, Condition.isFaithful_toRon.isLegible,
      Consequence.isFaithful_toRon.isLegible]
  inj := by
    rintro ⟨⟩ ⟨⟩
    simp [toRon, Condition.isFaithful_toRon.list.inj, Consequence.isFaithful_toRon.list.inj]

/-! ### Statements -/

theorem Identity.isFaithful_toRon : IsFaithful Identity.toRon where
  isLegible a := by
    cases a <;>
      simp +decide [toRon, kind, IdentityKind.label, Vocabulary.isFaithful_toRon.isLegible,
        Position.isFaithful_toRon.isLegible]
  inj a b := by
    cases a <;> cases b <;>
      simp [toRon, kind, IdentityKind.label, Vocabulary.isFaithful_toRon.inj,
        Position.isFaithful_toRon.inj]

theorem Appearance.isFaithful_toRon : IsFaithful Appearance.toRon where
  isLegible a := by
    cases a <;> simp +decide [toRon, Color.isFaithful_toRon.isLegible]
  inj a b := by
    cases a <;> cases b <;> simp [toRon, Color.isFaithful_toRon.inj]

/-- What is kept with a traded item, under its key. -/
theorem TradedItem.isFaithful_datum :
    IsFaithful fun (key, value) => Value.tuple [.text key, .text value] :=
  ⟨by simp, by simp⟩

theorem TradedItem.isFaithful_toRon : IsFaithful TradedItem.toRon where
  isLegible a := by
    have hdata := isFaithful_datum.list.isLegible a.data
    simp +decide [-Value.IsLegible.list_iff, toRon, Vocabulary.isFaithful_toRon.isLegible,
      Item.isFaithful_toRon.isLegible, IsFaithful.natural.ofOption.isLegible,
      IsFaithful.text.ofOption.isLegible, hdata]
  inj := by
    rintro ⟨⟩ ⟨⟩
    simp [toRon, Vocabulary.isFaithful_toRon.inj, Item.isFaithful_toRon.inj,
      IsFaithful.natural.ofOption.inj, IsFaithful.text.ofOption.inj, isFaithful_datum.list.inj]

theorem Trade.isFaithful_toRon : IsFaithful Trade.toRon where
  isLegible a := by
    cases a <;>
      simp +decide [toRon, Vocabulary.isFaithful_toRon.isLegible, Item.isFaithful_toRon.isLegible,
        TradedItem.isFaithful_toRon.isLegible, LocalizedText.isFaithful_toRon.isLegible]
  inj a b := by
    cases a <;> cases b <;>
      simp [toRon, Vocabulary.isFaithful_toRon.inj, Item.isFaithful_toRon.list.inj,
        TradedItem.isFaithful_toRon.inj, LocalizedText.isFaithful_toRon.inj]

theorem Guard.isFaithful_toRon : IsFaithful Guard.toRon where
  isLegible a := by
    cases a <;>
      simp +decide [toRon, Vocabulary.isFaithful_toRon.isLegible,
        Position.isFaithful_toRon.isLegible, LocalizedText.isFaithful_toRon.isLegible]
  inj a b := by
    cases a <;> cases b <;>
      simp [toRon, Vocabulary.isFaithful_toRon.inj, Position.isFaithful_toRon.inj,
        LocalizedText.isFaithful_toRon.inj]

theorem Statement.isFaithful_toRon : IsFaithful Statement.toRon where
  isLegible a := by
    cases a <;>
      simp +decide [toRon, Identity.isFaithful_toRon.isLegible,
        Appearance.isFaithful_toRon.isLegible, Vocabulary.isFaithful_toRon.isLegible,
        Item.isFaithful_toRon.ofOption.isLegible, Trade.isFaithful_toRon.isLegible,
        Guard.isFaithful_toRon.isLegible, LocalizedText.isFaithful_toRon.isLegible,
        DialogueLine.isFaithful_toRon.isLegible]
  inj a b := by
    cases a <;> cases b <;>
      simp [toRon, Identity.isFaithful_toRon.inj, Appearance.isFaithful_toRon.inj,
        Vocabulary.isFaithful_toRon.inj, Item.isFaithful_toRon.ofOption.inj,
        Trade.isFaithful_toRon.inj, Guard.isFaithful_toRon.inj,
        LocalizedText.isFaithful_toRon.inj, DialogueLine.isFaithful_toRon.inj]

end NpcScript
