import NpcScript.Context
import NpcScript.Keyword
import NpcScript.Npc.Operator
import NpcScript.Npc.World
import NpcScript.Proofs.Grammar.OperandFront
import NpcScript.Proofs.Writing.Piece

/-!
Writing the members of vocabularies. A member is written as its canonical token, and every token is
read as the member that it was written for.
-/

namespace NpcScript

open Grammar
open Text (IsTrimmed FitsLine trim_eq_self)

/-- A vocabulary whose tokens are words that are read back. -/
class LegibleVocabulary (α : Type) [Vocabulary α] : Prop where
  isWord_token (a : α) : IsWord (Vocabulary.token a).toList
  ofWord?_token (a : α) : Vocabulary.ofWord? α (Vocabulary.token a).toList = some a

namespace Vocabulary

variable {α : Type} [Vocabulary α]

/-- It is enough to try all members. -/
theorem legible_of_forall (h : ∀ a ∈ (all : List α), wordLexer (token a).toList = some [] ∧
    ofWord? α (token a).toList = some a) : LegibleVocabulary α where
  isWord_token a := by
    obtain ⟨hlexer, -⟩ := h a (mem_all a)
    obtain ⟨w, hw, hword⟩ := wordLexer_sound hlexer
    rwa [hw, List.append_nil]
  ofWord?_token a := (h a (mem_all a)).2

section Legible

variable [LegibleVocabulary α] (a : α)

theorem isWord_token : IsWord (token a).toList :=
  LegibleVocabulary.isWord_token a

theorem ofWord?_token : ofWord? α (token a).toList = some a :=
  LegibleVocabulary.ofWord?_token a

theorem isTrimmed_token : IsTrimmed (token a).toList :=
  isTrimmed_of_continuesWord (isWord_token a).continuesWord

theorem resolve_token (field : String) (column : Nat) :
    resolve α field column (token a).toList = .ok a := by
  rw [resolve, ofToken?, trim_eq_self (isTrimmed_token a), ofWord?_token]

end Legible

end Vocabulary

open Vocabulary (legible_of_forall)

instance : LegibleVocabulary Race := legible_of_forall (by decide +kernel)
instance : LegibleVocabulary Sex := legible_of_forall (by decide +kernel)
instance : LegibleVocabulary Direction := legible_of_forall (by decide +kernel)
instance : LegibleVocabulary Town := legible_of_forall (by decide +kernel)
instance : LegibleVocabulary Language := legible_of_forall (by decide +kernel)
instance : LegibleVocabulary CharacterAttribute := legible_of_forall (by decide +kernel)
instance : LegibleVocabulary ItemLocation := legible_of_forall (by decide +kernel)
instance : LegibleVocabulary MagicType := legible_of_forall (by decide +kernel)
instance : LegibleVocabulary TalkMode := legible_of_forall (by decide +kernel)
instance : LegibleVocabulary TalkState := legible_of_forall (by decide +kernel)
instance : LegibleVocabulary ArenaTask := legible_of_forall (by decide +kernel)
instance : LegibleVocabulary TradeProperty := legible_of_forall (by decide +kernel)
instance : LegibleVocabulary ConsequenceKeyword := legible_of_forall (by decide +kernel)

/-! ### Words and their places -/

namespace Grammar

variable {s : List Char}

theorem fitsLine_of_continuesWord (h : ∀ c ∈ s, continuesWord c = true) : FitsLine s := by
  refine (isTrimmed_of_continuesWord h).fitsLine fun hmem => ?_
  exact absurd (h '\n' hmem) (by decide)

theorem IsWord.fitsLine (h : IsWord s) : FitsLine s :=
  fitsLine_of_continuesWord h.continuesWord

theorem IsKeyword.fitsLine (h : IsKeyword s) : FitsLine s := by
  cases h with
  | plain hs => exact hs.fitsLine
  | percent hs =>
      have hpercent : FitsLine ['%'] := Text.fitsLine_of_forall (by simp)
      exact hpercent.append hs.fitsLine

theorem IsOperator.fitsLine (h : IsOperator s) : FitsLine s := by
  obtain ⟨operator, hmem, rfl⟩ := h
  have hall : ∀ operator ∈ operators, ∀ c ∈ operator.toList, c ≠ '\n' ∧ c ≠ '\r' := by
    simp [operators]
  exact Text.fitsLine_of_forall (hall operator hmem)

end Grammar

/-- The keyword of the number that was said begins with a percent sign, so it is no word. -/
theorem ConditionKeyword.isKeyword_token (keyword : ConditionKeyword) :
    IsKeyword (Vocabulary.token keyword).toList := by
  have hall : ∀ keyword ∈ (Vocabulary.all : List ConditionKeyword),
      keywordLexer (Vocabulary.token keyword).toList = some [] := by decide +kernel
  obtain ⟨w, hw, hkeyword⟩ := keywordLexer_sound (hall keyword (Vocabulary.mem_all keyword))
  rwa [hw, List.append_nil]

theorem ConditionKeyword.ofWord?_token (keyword : ConditionKeyword) :
    Vocabulary.ofWord? ConditionKeyword (Vocabulary.token keyword).toList = some keyword := by
  have hall : ∀ keyword ∈ (Vocabulary.all : List ConditionKeyword),
      Vocabulary.ofWord? ConditionKeyword (Vocabulary.token keyword).toList = some keyword := by
    decide +kernel
  exact hall keyword (Vocabulary.mem_all keyword)

/-! ### Operators -/

namespace CompareOperator

variable (op : CompareOperator)

theorem isOperator_token : IsOperator (Vocabulary.token op).toList := by
  cases op <;> exact ⟨_, by decide, rfl⟩

theorem resolve_token (field : String) (column : Nat) :
    Vocabulary.resolve CompareOperator field column (Vocabulary.token op).toList = .ok op := by
  have hall : Vocabulary.ofToken? CompareOperator (Vocabulary.token op).toList = some op := by
    cases op <;> decide
  rw [Vocabulary.resolve, hall]

end CompareOperator

namespace CalculationOperator

variable (op : CalculationOperator)

theorem isOperator_token : IsOperator (Vocabulary.token op).toList := by
  cases op <;> exact ⟨_, by decide, rfl⟩

theorem ofToken?_token :
    Vocabulary.ofToken? CalculationOperator (Vocabulary.token op).toList = some op := by
  cases op <;> decide

theorem isCompareOnly_token : isCompareOnly (Vocabulary.token op).toList = false := by
  cases op <;> decide

end CalculationOperator

end NpcScript
