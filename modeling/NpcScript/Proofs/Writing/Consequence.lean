import NpcScript.Clause.Line
import NpcScript.Proofs.Writing.Clause

/-!
Writing consequences. An answer is written as a literal, and every other consequence has a draft of
a clause. The operators of these clauses can all set a number, so behind the arrow none of them is
taken for a condition, though many of their keywords could begin one.
-/

namespace NpcScript

open Grammar (ArgumentDraft Clause ClauseDraft ComparisonDraft Expresses KeywordClause)
open Text (quote)

inductive ConsequenceDraft where
  | answer (content : String)
  | clause (draft : ClauseDraft ConsequenceKeyword)

namespace ConsequenceDraft

def write : ConsequenceDraft → List Char
  | answer content => quote content.toList
  | clause draft => draft.write

def IsWritable : ConsequenceDraft → Prop
  | answer _ => True
  | clause draft => draft.IsWritable

def Describes : ConsequenceDraft → Clause → Prop
  | answer content, found => ∃ column, found = .answer ⟨column, quote content.toList⟩
  | clause draft, found => ∃ inner, found = .keyword inner ∧ draft.Describes inner

theorem expresses {draft : ConsequenceDraft} (h : draft.IsWritable) :
    Expresses Clause.IsWritten draft.write draft.Describes := by
  cases draft with
  | answer content =>
      refine ⟨Text.fitsLine_quote content.toList, fun offset => ?_⟩
      exact ⟨_, .answer ⟨_, Text.denotes_quote content.toList⟩, offset + 1, rfl⟩
  | clause draft =>
      have hinner := ClauseDraft.expresses h
      refine ⟨hinner.fitsLine, fun offset => ?_⟩
      obtain ⟨inner, hwritten, hdescribes⟩ := hinner.exists_item offset
      exact ⟨_, .keyword hwritten, inner, rfl, hdescribes⟩

end ConsequenceDraft

namespace Consequence

def draft : Consequence → ConsequenceDraft
  | .arena task => .clause { keyword := .arena, arguments := some [.member task] }
  | .attrib stat op value => .clause
    { keyword := .attrib
      arguments := some [.member stat]
      comparison := some (.calculate op value) }
  | .deleteItem found amount => .clause
    { keyword := .deleteItem, arguments := some [.number found.id, .amount amount] }
  | .gemCraft => .clause { keyword := .gemCraft }
  | .inform text => .clause { keyword := .inform, arguments := some [.quoted text] }
  | .introduce => .clause { keyword := .introduce }
  | .item found amount none => .clause
    { keyword := .item, arguments := some [.number found.id, .amount amount] }
  | .item found amount (some quality) => .clause
    { keyword := .item, arguments := some [.number found.id, .amount amount, .number quality] }
  | .money op value => .clause { keyword := .money, comparison := some (.calculate op value) }
  | .questStatus quest op value => .clause
    { keyword := .questStatus
      arguments := some [.number quest]
      comparison := some (.calculate op value) }
  | .rankPoints op value => .clause
    { keyword := .rankPoints, comparison := some (.calculate op value) }
  | .repair => .clause { keyword := .repair }
  | .rune runeClass number => .clause
    { keyword := .rune, arguments := some [.number runeClass, .number number] }
  | .skill name op value => .clause
    { keyword := .skill
      arguments := some [.quoted name]
      comparison := some (.calculate op value) }
  | .state op value => .clause { keyword := .state, comparison := some (.calculate op value) }
  | .town member => .clause { keyword := .town, comparison := some (.equality member false) }
  | .trade => .clause { keyword := .trade }
  | .treasure level => .clause { keyword := .treasure, arguments := some [.number level] }
  | .warp target => .clause
    { keyword := .warp, arguments := some [.number target.x, .number target.y, .number target.z] }
  | .talkState member => .clause
    { keyword := .talkState, comparison := some (.equality member false) }
  | .answer text => .answer text

def quantity? : Consequence → Option Quantity
  | .attrib _ _ value | .deleteItem _ value | .item _ value _ | .money _ value
  | .questStatus _ _ value | .rankPoints _ value | .skill _ _ value | .state _ value => some value
  | .arena _ | .gemCraft | .inform _ | .introduce | .repair | .rune _ _ | .town _ | .trade
  | .treasure _ | .warp _ | .talkState _ | .answer _ => none

def plainTexts (consequence : Consequence) : List String :=
  consequence.quantity?.elim [] Quantity.plainTexts

structure IsWritable (context : Context) (consequence : Consequence) : Prop where
  isValid : consequence.IsValid context
  not_mem : ∀ text ∈ consequence.plainTexts, '\n' ∉ text.toList

variable {context : Context} {consequence : Consequence} {clause : KeywordClause}
  {inner : ClauseDraft ConsequenceKeyword}

theorem isWritable_draft (h : consequence.IsWritable context) : consequence.draft.IsWritable := by
  -- Every clause has a word for its keyword; what differs is what stands behind it.
  have hkeyword (keyword : ConsequenceKeyword) :
      Grammar.IsKeyword (Vocabulary.token keyword).toList :=
    .plain (Vocabulary.isWord_token keyword)
  cases consequence with
  | arena task => exact ⟨hkeyword _, by simp, by simp⟩
  | inform text => exact ⟨hkeyword _, by simp, by simp⟩
  | rune runeClass number => exact ⟨hkeyword _, by simp, by simp⟩
  | treasure level => exact ⟨hkeyword _, by simp, by simp⟩
  | warp target => exact ⟨hkeyword _, by simp, by simp⟩
  | gemCraft | introduce | repair | trade => exact ⟨hkeyword _, by simp, by simp⟩
  | answer text => exact True.intro
  | town member | talkState member =>
      exact ⟨hkeyword _, by simp, by simpa using ComparisonDraft.isWritable_equality member false⟩
  | attrib stat op value | money op value | rankPoints op value | state op value =>
      have hvalue : value.IsWritable := ⟨h.isValid, h.not_mem⟩
      exact ⟨hkeyword _, by simp, by simpa using ComparisonDraft.isWritable_calculate op hvalue⟩
  | questStatus quest op value | skill name op value =>
      have hvalue : value.IsWritable := ⟨h.isValid.2, h.not_mem⟩
      exact ⟨hkeyword _, by simp, by simpa using ComparisonDraft.isWritable_calculate op hvalue⟩
  | deleteItem item amount =>
      have hamount : amount.IsWritable := ⟨h.isValid.2, h.not_mem⟩
      exact ⟨hkeyword _, by simpa using ArgumentDraft.isWritable_amount hamount, by simp⟩
  | item item amount quality =>
      have hamount : amount.IsWritable := ⟨h.isValid.2.1, h.not_mem⟩
      cases quality with
      | none | some quality =>
          exact ⟨hkeyword _, by simpa using ArgumentDraft.isWritable_amount hamount, by simp⟩

theorem eq_answer_of_draft {content : String} (h : consequence.draft = .answer content) :
    consequence = .answer content := by
  cases consequence with
  | answer text =>
      cases h
      rfl
  | item item amount quality => cases quality <;> cases h
  | _ => cases h

/-- Only the operators that can also set a number stand in the drafts of consequences. -/
theorem not_compares (hinner : consequence.draft = .clause inner) (h : inner.Describes clause) :
    clause.compares = false := by
  cases consequence with
  | answer text => cases hinner
  | item item amount quality =>
      cases quality with
      | none | some quality =>
          cases hinner
          exact ClauseDraft.compares_eq_false h rfl
  | attrib stat op value | money op value | rankPoints op value | state op value
  | questStatus quest op value | skill name op value =>
      cases hinner
      rw [ClauseDraft.compares_eq h rfl]
      exact ComparisonDraft.isCompareOnly_calculate op value
  | town member | talkState member =>
      cases hinner
      rw [ClauseDraft.compares_eq h rfl]
      exact ComparisonDraft.isCompareOnly_equality member
  | arena task | inform text | rune runeClass number | treasure level | warp target
  | gemCraft | introduce | repair | trade | deleteItem item amount =>
      cases hinner
      exact ClauseDraft.compares_eq_false h rfl

/-! ### Families of keywords -/

section Families

variable {keyword : ConsequenceKeyword}

theorem scalar_eq {op : CalculationOperator} {value : Quantity} (hvalue : value.IsValid)
    (h : ClauseDraft.Describes ⟨keyword, none, some (.calculate op value)⟩ clause)
    (make : CalculationOperator → Quantity → Consequence) :
    scalar make clause = .ok (make op value) := by
  obtain ⟨found, hfound, hoperation⟩ := ClauseDraft.bareOperation_eq h rfl rfl
  simp only [scalar, hoperation, bind, Except.bind, ComparisonDraft.calculate_eq hvalue hfound]
  rfl

theorem equation_eq {α : Type} [Vocabulary α] [LegibleVocabulary α] {a : α}
    (h : ClauseDraft.Describes ⟨keyword, none, some (.equality a false)⟩ clause)
    (field : String) (make : α → Consequence) : equation α field make clause = .ok (make a) := by
  obtain ⟨found, hfound, hoperation⟩ := ClauseDraft.bareOperation_eq h rfl rfl
  simp only [equation, hoperation, bind, Except.bind, ComparisonDraft.equation_eq hfound]
  rfl

end Families

/-- A clause that was written from the draft of a consequence states the consequence. -/
theorem ofClause_eq (hvalid : consequence.IsValid context)
    (hinner : consequence.draft = .clause inner) (h : inner.Describes clause) :
    ofClause context inner.keyword clause = .ok consequence := by
  cases consequence with
  | answer text => cases hinner
  | gemCraft | introduce | repair | trade =>
      cases hinner
      simp only [ofClause, ClauseDraft.alone_eq h rfl rfl]
      rfl
  | arena task =>
      cases hinner
      obtain ⟨argument, hargument, hone⟩ := ClauseDraft.oneArgument_eq h rfl
      simp only [ofClause, hone, ClauseDraft.noComparison_eq h rfl, bind, Except.bind,
        ArgumentDraft.member_eq hargument]
      rfl
  | inform text =>
      cases hinner
      obtain ⟨argument, hargument, hone⟩ := ClauseDraft.oneArgument_eq h rfl
      obtain ⟨column, rfl⟩ := hargument
      simp only [ofClause, hone, ClauseDraft.noComparison_eq h rfl, bind, Except.bind,
        Text.unquote_quote, String.ofList_toList]
      rfl
  | treasure level =>
      cases hinner
      obtain ⟨argument, hargument, hone⟩ := ClauseDraft.oneArgument_eq h rfl
      have hlevel := ArgumentDraft.natural_eq clause .treasureLevel (by decide) rfl rfl hvalid
        hargument
      simp only [ofClause, hone, ClauseDraft.noComparison_eq h rfl, bind, Except.bind, hlevel]
      rfl
  | rune runeClass number =>
      cases hinner
      obtain ⟨first, second, hlist, hfirst, hsecond⟩ := ClauseDraft.argumentList_two h rfl
      have hclass := ArgumentDraft.natural_eq clause .runeClass (by decide) rfl rfl
        ⟨Nat.zero_le runeClass, hvalid.1⟩ hfirst
      have hnumber := ArgumentDraft.natural_eq clause .runeNumber (by decide) rfl rfl
        ⟨Nat.zero_le number, hvalid.2⟩ hsecond
      simp only [ofClause, hlist, ClauseDraft.noComparison_eq h rfl, bind, Except.bind, hclass,
        hnumber]
      rfl
  | warp target =>
      cases hinner
      obtain ⟨first, second, third, hlist, hfirst, hsecond, hthird⟩ :=
        ClauseDraft.argumentList_three h rfl
      have hx := ArgumentDraft.integer_eq clause .coordinateX (by decide) hvalid.x hfirst
      have hy := ArgumentDraft.integer_eq clause .coordinateY (by decide) hvalid.y hsecond
      have hz := ArgumentDraft.integer_eq clause .coordinateZ (by decide) hvalid.z hthird
      simp only [ofClause, hlist, ClauseDraft.noComparison_eq h rfl, bind, Except.bind, hx, hy, hz]
      rfl
  | deleteItem item amount =>
      cases hinner
      obtain ⟨first, second, hlist, hfirst, hsecond⟩ := ClauseDraft.argumentList_two h rfl
      simp only [ofClause, hlist, ClauseDraft.noComparison_eq h rfl, bind, Except.bind,
        ArgumentDraft.item_eq clause hvalid.1 hfirst,
        ArgumentDraft.amount_eq clause hvalid.2 hsecond]
      rfl
  | item item amount quality =>
      obtain ⟨hitem, hamount, hquality⟩ := hvalid
      cases quality with
      | none =>
          cases hinner
          obtain ⟨first, second, hlist, hfirst, hsecond⟩ := ClauseDraft.argumentList_two h rfl
          simp only [ofClause, hlist, ClauseDraft.noComparison_eq h rfl, bind, Except.bind, pure,
            Except.pure, ArgumentDraft.item_eq clause hitem hfirst,
            ArgumentDraft.amount_eq clause hamount hsecond]
          rfl
      | some quality =>
          cases hinner
          obtain ⟨first, second, third, hlist, hfirst, hsecond, hthird⟩ :=
            ClauseDraft.argumentList_three h rfl
          have hnumber := ArgumentDraft.natural_eq clause .itemQuality (by decide) rfl rfl
            ⟨Nat.zero_le quality, hquality quality rfl⟩ hthird
          simp only [ofClause, hlist, ClauseDraft.noComparison_eq h rfl, bind, Except.bind, pure,
            Except.pure, ArgumentDraft.item_eq clause hitem hfirst,
            ArgumentDraft.amount_eq clause hamount hsecond, Option.mapM_some, hnumber]
          rfl
  | attrib stat op value =>
      cases hinner
      obtain ⟨argument, hargument, hone⟩ := ClauseDraft.oneArgument_eq h rfl
      obtain ⟨found, hfound, hoperation⟩ := ClauseDraft.operation_eq h rfl
      simp only [ofClause, hone, hoperation, bind, Except.bind, ArgumentDraft.member_eq hargument,
        ComparisonDraft.calculate_eq hvalid hfound]
      rfl
  | skill name op value =>
      cases hinner
      obtain ⟨argument, hargument, hone⟩ := ClauseDraft.oneArgument_eq h rfl
      obtain ⟨found, hfound, hoperation⟩ := ClauseDraft.operation_eq h rfl
      simp only [ofClause, hone, hoperation, bind, Except.bind,
        ArgumentDraft.skill_eq hvalid.1 hargument, ComparisonDraft.calculate_eq hvalid.2 hfound]
      rfl
  | questStatus quest op value =>
      cases hinner
      obtain ⟨argument, hargument, hone⟩ := ClauseDraft.oneArgument_eq h rfl
      obtain ⟨found, hfound, hoperation⟩ := ClauseDraft.operation_eq h rfl
      have hquest := ArgumentDraft.natural_eq clause .questId (by decide) rfl rfl
        ⟨Nat.zero_le quest, hvalid.1⟩ hargument
      simp only [ofClause, hone, hoperation, bind, Except.bind, hquest,
        ComparisonDraft.calculate_eq hvalid.2 hfound]
      rfl
  | money op value | rankPoints op value | state op value =>
      cases hinner
      exact scalar_eq hvalid h _
  | town member | talkState member =>
      cases hinner
      exact equation_eq h _ _

def write (consequence : Consequence) : List Char :=
  consequence.draft.write

def Describes (consequence : Consequence) (found : Clause) : Prop :=
  consequence.draft.Describes found

theorem expresses (h : consequence.IsWritable context) :
    Expresses Clause.IsWritten consequence.write consequence.Describes :=
  ConsequenceDraft.expresses (isWritable_draft h)

end Consequence

/-- A consequence may stand behind the arrow. -/
theorem Meaning.after_eq {context : Context} {consequence : Consequence} {found : Clause}
    (hvalid : consequence.IsValid context) (h : consequence.Describes found) :
    after context found = .ok (.consequence consequence) := by
  cases hdraft : consequence.draft with
  | answer content =>
      rw [Consequence.Describes, hdraft] at h
      obtain ⟨column, rfl⟩ := h
      obtain rfl := Consequence.eq_answer_of_draft hdraft
      simp [after, Text.unquote_quote]
  | clause draft =>
      rw [Consequence.Describes, hdraft] at h
      obtain ⟨inner, rfl, hinner⟩ := h
      have hkeyword : Vocabulary.ofWord? ConsequenceKeyword inner.keyword.text =
          some draft.keyword := by
        rw [hinner.keyword, Vocabulary.ofWord?_token]
      have hcompares := Consequence.not_compares hdraft hinner
      have hmeaning := Consequence.ofClause_eq hvalid hdraft hinner
      cases hother : Vocabulary.ofWord? ConditionKeyword inner.keyword.text with
      | none | some keyword =>
          simp only [after, hkeyword, hother, hcompares, hmeaning]
          rfl

end NpcScript
