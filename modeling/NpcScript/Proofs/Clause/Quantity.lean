import NpcScript.Clause.Quantity
import NpcScript.Proofs.Context
import NpcScript.Proofs.Grammar.Form

/-!
Operands and operators of clauses. The quantity that an operand stands for is valid: its literals
fit 64 bits, and its expressions are the operand itself or what stands in its parentheses.
-/

namespace NpcScript

open Text Grammar

namespace Quantity

theorem isBalanced_of_expressionBody? {operand body : List Char} (h : Operand operand)
    (hbody : expressionBody? operand = some body) : IsBalanced body := by
  simp only [expressionBody?, Option.ite_none_right_eq_some, Bool.and_eq_true,
    Option.some.injEq] at hbody
  obtain ⟨hbegin, rfl⟩ := hbody
  obtain ⟨name, inside, rfl, hlength, hinside⟩ := h.exists_body hbegin.1
  have hdrop : (name ++ '(' :: (inside ++ [')'])).drop 5 = inside ++ [')'] := by
    rw [List.drop_append, hlength, List.drop_of_length_le (by omega)]
    rfl
  rw [hdrop, List.dropLast_concat]
  exact hinside

theorem ne_nil_of_isSum {text : List Char} (h : isSum text = true) : text ≠ [] := by
  rintro rfl
  simp [isSum, dropMinus] at h

theorem isValid_of_ofOperand? {operand : List Char} {quantity : Quantity} (h : Operand operand)
    (hquantity : ofOperand? operand = some quantity) : quantity.IsValid := by
  simp only [ofOperand?, trim_eq_self h.isTrimmed] at hquantity
  -- In order: a literal, the number that was said, the inside of `expr(…)`, and a sum as written.
  split at hquantity
  · rename_i value hliteral
    cases hquantity
    simp only [literalOfText?, Option.ite_none_right_eq_some, Bool.and_eq_true, isLiteral,
      decide_eq_true_eq, Option.some.injEq] at hliteral
    obtain ⟨⟨-, hlow, hhigh⟩, rfl⟩ := hliteral
    exact ⟨hlow, hhigh⟩
  · split at hquantity
    · cases hquantity
      exact True.intro
    · split at hquantity
      · rename_i body hbody
        split at hquantity
        · cases hquantity
        · rename_i hne
          cases hquantity
          have hbalanced := isBalanced_of_expressionBody? h hbody
          refine ⟨?_, ?_, ?_⟩
          · simpa using hne
          · simpa using isTrimmed_trim body
          · simpa using hbalanced.trim
      · split at hquantity
        · rename_i hsum
          cases hquantity
          refine ⟨?_, ?_, ?_⟩
          · simpa using ne_nil_of_isSum hsum
          · simpa using h.isTrimmed
          · simpa using h.isBalanced
        · cases hquantity

theorem read_ends {operand : List Char} (h : Operand operand) (field : String) (column : Nat) :
    Ends (Quantity.read field column operand) IsValid Issue.IsFault := by
  unfold read
  split
  · rename_i quantity hquantity
    exact isValid_of_ofOperand? h hquantity
  · exact True.intro

end Quantity

namespace Grammar.Comparison

variable {comparison : Comparison}

theorem compare_ends (h : comparison.IsFormed) :
    Ends comparison.compare (fun found => found.2.IsValid) Issue.IsFault := by
  refine (Vocabulary.resolve_ends _ _ _ _).bind fun op _ => ?_
  exact (Quantity.read_ends h _ _).bind fun quantity hquantity => hquantity

theorem calculate_ends (h : comparison.IsFormed) (keyword : List Char) :
    Ends (comparison.calculate keyword) (fun found => found.2.IsValid) Issue.IsFault := by
  unfold calculate
  dsimp only
  split
  · exact True.intro
  · exact (Quantity.read_ends h _ _).bind fun quantity hquantity => hquantity

theorem equation_ends (keyword : List Char) (α : Type) [Vocabulary α] (field : String) :
    Ends (comparison.equation keyword α field) (fun _ => True) Issue.IsFault := by
  unfold equation
  split
  · exact Vocabulary.resolve_ends _ _ _ _
  · exact True.intro

theorem equationOrDenial_ends (keyword : List Char) (α : Type) [Vocabulary α] (field : String) :
    Ends (comparison.equationOrDenial keyword α field) (fun _ => True) Issue.IsFault := by
  unfold equationOrDenial
  split
  · exact (Vocabulary.resolve_ends _ _ _ _).map fun _ _ => True.intro
  · exact True.intro

end Grammar.Comparison

end NpcScript
