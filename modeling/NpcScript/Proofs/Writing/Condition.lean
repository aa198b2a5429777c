import NpcScript.Clause.Line
import NpcScript.Proofs.Writing.Clause

/-!
Writing conditions. Every condition has a draft of a clause, and a clause that was written from the
draft means the condition again when it stands before the arrow.
-/

namespace NpcScript

open Grammar (ArgumentDraft Clause ClauseDraft ComparisonDraft Expresses KeywordClause)

namespace Condition

def draft : Condition → ClauseDraft ConditionKeyword
  | .isAdmin => { keyword := .isAdmin }
  | .attrib stat op value =>
    { keyword := .attrib
      arguments := some [.member stat]
      comparison := some (.compare op value) }
  | .chance percent => { keyword := .chance, arguments := some [.number percent] }
  | .item found location op value =>
    { keyword := .item
      arguments := some [.number found.id, .member location]
      comparison := some (.compare op value) }
  | .magicType magic => { keyword := .magicType, comparison := some (.equality magic false) }
  | .money op value => { keyword := .money, comparison := some (.compare op value) }
  | .number op value => { keyword := .number, comparison := some (.compare op value) }
  | .questStatus quest op value =>
    { keyword := .questStatus
      arguments := some [.number quest]
      comparison := some (.compare op value) }
  | .race member negated => { keyword := .race, comparison := some (.equality member negated) }
  | .rank op value => { keyword := .rank, comparison := some (.compare op value) }
  | .sex member negated => { keyword := .sex, comparison := some (.equality member negated) }
  | .skill name op value =>
    { keyword := .skill
      arguments := some [.quoted name]
      comparison := some (.compare op value) }
  | .state op value => { keyword := .state, comparison := some (.compare op value) }
  | .talkMode mode => { keyword := .talkMode, comparison := some (.equality mode false) }
  | .talkState member => { keyword := .talkState, comparison := some (.equality member false) }
  | .town member negated => { keyword := .town, comparison := some (.equality member negated) }
  | .locale .german => { keyword := .german }
  | .locale .english => { keyword := .english }
  | .language member => { keyword := .language, comparison := some (.equality member false) }

def quantity? : Condition → Option Quantity
  | .attrib _ _ value | .item _ _ _ value | .money _ value | .number _ value
  | .questStatus _ _ value | .rank _ value | .skill _ _ value | .state _ value => some value
  | .isAdmin | .chance _ | .magicType _ | .race _ _ | .sex _ _ | .talkMode _ | .talkState _
  | .town _ _ | .locale _ | .language _ => none

/-- The texts of a condition that are written as they are. -/
def plainTexts (condition : Condition) : List String :=
  condition.quantity?.elim [] Quantity.plainTexts

structure IsWritable (context : Context) (condition : Condition) : Prop where
  isValid : condition.IsValid context
  not_mem : ∀ text ∈ condition.plainTexts, '\n' ∉ text.toList

variable {context : Context} {condition : Condition}

theorem isWritable_draft (h : condition.IsWritable context) : condition.draft.IsWritable := by
  refine ⟨condition.draft.keyword.isKeyword_token, ?_, ?_⟩
  · cases condition with
    | locale member => cases member <;> simp [draft]
    | _ => simp [draft]
  · cases condition with
    | attrib stat op value | money op value | number op value | rank op value | state op value =>
        have hvalue : value.IsWritable := ⟨h.isValid, h.not_mem⟩
        simpa [draft] using ComparisonDraft.isWritable_compare op hvalue
    | item found location op value | questStatus quest op value | skill name op value =>
        have hvalue : value.IsWritable := ⟨h.isValid.2, h.not_mem⟩
        simpa [draft] using ComparisonDraft.isWritable_compare op hvalue
    | magicType member | talkMode member | talkState member | language member =>
        simpa [draft] using ComparisonDraft.isWritable_equality member false
    | race member negated | sex member negated | town member negated =>
        simpa [draft] using ComparisonDraft.isWritable_equality member negated
    | locale member => cases member <;> simp [draft]
    | isAdmin | chance percent => simp [draft]

/-! ### Families of keywords -/

section Families

variable {clause : KeywordClause} {keyword : ConditionKeyword}

theorem scalar_eq {op : CompareOperator} {value : Quantity} (hvalue : value.IsValid)
    (h : ClauseDraft.Describes ⟨keyword, none, some (.compare op value)⟩ clause)
    (make : CompareOperator → Quantity → Condition) :
    scalar make clause = .ok (make op value) := by
  obtain ⟨found, hfound, hoperation⟩ := ClauseDraft.bareOperation_eq h rfl rfl
  simp only [scalar, hoperation, bind, Except.bind, ComparisonDraft.compare_eq hvalue hfound]
  rfl

variable {α : Type} [Vocabulary α] [LegibleVocabulary α] {a : α}

theorem equation_eq (h : ClauseDraft.Describes ⟨keyword, none, some (.equality a false)⟩ clause)
    (field : String) (make : α → Condition) : equation α field make clause = .ok (make a) := by
  obtain ⟨found, hfound, hoperation⟩ := ClauseDraft.bareOperation_eq h rfl rfl
  simp only [equation, hoperation, bind, Except.bind, ComparisonDraft.equation_eq hfound]
  rfl

theorem equationOrDenial_eq {negated : Bool}
    (h : ClauseDraft.Describes ⟨keyword, none, some (.equality a negated)⟩ clause)
    (field : String) (make : α → Bool → Condition) :
    equationOrDenial α field make clause = .ok (make a negated) := by
  obtain ⟨found, hfound, hoperation⟩ := ClauseDraft.bareOperation_eq h rfl rfl
  simp only [equationOrDenial, hoperation, bind, Except.bind,
    ComparisonDraft.equationOrDenial_eq hfound]
  rfl

end Families

/-- A clause that was written from the draft of a condition states the condition. -/
theorem ofClause_eq {clause : KeywordClause} (hvalid : condition.IsValid context)
    (h : condition.draft.Describes clause) :
    ofClause context condition.draft.keyword clause = .ok condition := by
  cases condition with
  | isAdmin =>
      simp only [draft, ofClause, ClauseDraft.alone_eq h rfl rfl]
      rfl
  | locale member =>
      cases member with
      | german | english =>
          simp only [draft, ofClause, ClauseDraft.alone_eq h rfl rfl]
          rfl
  | chance percent =>
      obtain ⟨argument, hargument, hone⟩ := ClauseDraft.oneArgument_eq h rfl
      have hnumber := ArgumentDraft.natural_eq clause .chance (by decide) rfl rfl
        ⟨Nat.zero_le percent, hvalid⟩ hargument
      simp only [draft, ofClause, hone, ClauseDraft.noComparison_eq h rfl, bind, Except.bind,
        hnumber]
      rfl
  | attrib stat op value =>
      obtain ⟨argument, hargument, hone⟩ := ClauseDraft.oneArgument_eq h rfl
      obtain ⟨found, hfound, hoperation⟩ := ClauseDraft.operation_eq h rfl
      simp only [draft, ofClause, hone, hoperation, bind, Except.bind,
        ArgumentDraft.member_eq hargument, ComparisonDraft.compare_eq hvalid hfound]
      rfl
  | item item location op value =>
      obtain ⟨first, second, hlist, hfirst, hsecond⟩ := ClauseDraft.argumentList_two h rfl
      obtain ⟨found, hfound, hoperation⟩ := ClauseDraft.operation_eq h rfl
      simp only [draft, ofClause, hlist, hoperation, bind, Except.bind, pure, Except.pure,
        ArgumentDraft.item_eq clause hvalid.1 hfirst, ArgumentDraft.member_eq hsecond,
        ComparisonDraft.compare_eq hvalid.2 hfound]
  | questStatus quest op value =>
      obtain ⟨argument, hargument, hone⟩ := ClauseDraft.oneArgument_eq h rfl
      obtain ⟨found, hfound, hoperation⟩ := ClauseDraft.operation_eq h rfl
      have hquest := ArgumentDraft.natural_eq clause .questId (by decide) rfl rfl
        ⟨Nat.zero_le quest, hvalid.1⟩ hargument
      simp only [draft, ofClause, hone, hoperation, bind, Except.bind, hquest,
        ComparisonDraft.compare_eq hvalid.2 hfound]
      rfl
  | skill name op value =>
      obtain ⟨argument, hargument, hone⟩ := ClauseDraft.oneArgument_eq h rfl
      obtain ⟨found, hfound, hoperation⟩ := ClauseDraft.operation_eq h rfl
      simp only [draft, ofClause, hone, hoperation, bind, Except.bind,
        ArgumentDraft.skill_eq hvalid.1 hargument, ComparisonDraft.compare_eq hvalid.2 hfound]
      rfl
  | money op value | number op value | rank op value | state op value => exact scalar_eq hvalid h _
  | magicType member | talkMode member | talkState member | language member =>
      exact equation_eq h _ _
  | race member negated | sex member negated | town member negated =>
      exact equationOrDenial_eq h _ _

def write (condition : Condition) : List Char :=
  condition.draft.write

def Describes (condition : Condition) (found : Clause) : Prop :=
  ∃ inner, found = .keyword inner ∧ condition.draft.Describes inner

theorem expresses (h : condition.IsWritable context) :
    Expresses Clause.IsWritten condition.write condition.Describes := by
  have hinner := ClauseDraft.expresses (isWritable_draft h)
  refine ⟨hinner.fitsLine, fun offset => ?_⟩
  obtain ⟨inner, hwritten, hdescribes⟩ := hinner.exists_item offset
  exact ⟨_, .keyword hwritten, inner, rfl, hdescribes⟩

end Condition

/-- A condition may stand before the arrow. -/
theorem Meaning.before_eq {context : Context} {condition : Condition} {found : Clause}
    (hvalid : condition.IsValid context) (h : condition.Describes found) :
    before context found = .ok (.condition condition) := by
  obtain ⟨inner, rfl, hinner⟩ := h
  simp only [before, hinner.keyword, ConditionKeyword.ofWord?_token,
    Condition.ofClause_eq hvalid hinner]
  rfl

end NpcScript
