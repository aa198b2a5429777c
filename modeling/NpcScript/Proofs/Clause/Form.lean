import NpcScript.Proofs.Clause.Quantity

/-!
What keywords demand of a clause. Arguments and comparisons that are taken from a formed clause are
formed, and where the clause does not fit there is a fault.
-/

namespace NpcScript.Grammar

namespace KeywordClause

variable {clause : KeywordClause}

theorem isFormed_of_innerComparison? (h : clause.IsFormed) {comparison : Comparison}
    (hinner : clause.innerComparison? = some comparison) : comparison.IsFormed := by
  obtain ⟨argument, hmem, hfound⟩ := List.exists_of_findSome?_eq_some hinner
  have hformed := h.argumentList argument hmem
  cases argument with
  | comparison subject found =>
      obtain rfl : found = comparison := by simpa [Argument.comparison?] using hfound
      exact hformed
  | quoted source => cases hfound
  | operand source => cases hfound

theorem alone_ends : Ends clause.alone (fun _ => True) Issue.IsFault := by
  unfold alone
  split <;> exact True.intro

theorem operation_ends (h : clause.IsFormed) :
    Ends clause.operation Comparison.IsFormed Issue.IsFault := by
  unfold operation
  split
  · rename_i comparison hcomparison hinner
    exact h.comparison comparison hcomparison
  · rename_i comparison hcomparison hinner
    exact isFormed_of_innerComparison? h hinner
  · exact True.intro
  · exact True.intro

theorem bareOperation_ends (h : clause.IsFormed) :
    Ends clause.bareOperation Comparison.IsFormed Issue.IsFault := by
  unfold bareOperation
  split
  · exact True.intro
  · exact operation_ends h

theorem oneArgument_ends (h : clause.IsFormed) (reason : String) :
    Ends (clause.oneArgument reason) Argument.IsFormed Issue.IsFault := by
  unfold oneArgument
  split
  · rename_i argument hargument
    exact h.argumentList argument (by simp [hargument])
  · exact True.intro

theorem noComparison_ends (reason : String) :
    Ends (clause.noComparison reason) (fun _ => True) Issue.IsFault := by
  unfold noComparison
  split <;> exact True.intro

theorem integer_ends (place : NumericPlace) (argument : Argument) :
    Ends (clause.integer place argument) place.Admits Issue.IsFault := by
  unfold integer
  split
  · exact place.read_ends _ _
  · exact True.intro

theorem natural_ends {place : NumericPlace} {min max : Nat} (hmin : place.min = min)
    (hmax : place.max = max) (argument : Argument) :
    Ends (clause.natural place argument) (fun n => min ≤ n ∧ n ≤ max) Issue.IsFault :=
  (integer_ends place argument).toNat hmin hmax

theorem item_ends (context : Context) (argument : Argument) :
    Ends (clause.item context argument) (Item.IsValid context) Issue.IsFault := by
  unfold item
  split
  · exact context.item_ends _ _ _
  · exact True.intro

theorem amount_ends {argument : Argument} (h : argument.IsFormed) :
    Ends (clause.amount argument) Quantity.IsValid Issue.IsFault := by
  cases argument with
  | operand source => exact Quantity.read_ends h _ _
  | quoted source => exact True.intro
  | comparison subject found => exact True.intro

end KeywordClause

theorem Argument.member_ends (argument : Argument) (α : Type) [Vocabulary α] (field : String) :
    Ends (argument.member α field) (fun _ => True) Issue.IsFault :=
  Vocabulary.resolve_ends _ _ _ _

theorem Argument.skill_ends (argument : Argument) (context : Context) :
    Ends (argument.skill context) (Skill.IsValidName context) Issue.IsFault :=
  context.skill_ends _ _

end NpcScript.Grammar
