import NpcScript.Clause.Condition
import NpcScript.Proofs.Clause.Form

/-!
Clauses as conditions. The condition that a formed clause states is valid; a clause that states none
is at fault.
-/

namespace NpcScript.Condition

open Grammar (KeywordClause Argument)

variable {context : Context} {clause : KeywordClause}

theorem compared_ends {make : CompareOperator → Quantity → Condition}
    (hmake : ∀ op value, value.IsValid → (make op value).IsValid context)
    {comparison : Grammar.Comparison} (h : comparison.IsFormed) :
    Ends (do let (op, value) ← comparison.compare; return make op value)
      (Condition.IsValid context) Issue.IsFault :=
  (Grammar.Comparison.compare_ends h).bind fun _ hfound => hmake _ _ hfound

theorem scalar_ends {make : CompareOperator → Quantity → Condition}
    (hmake : ∀ op value, value.IsValid → (make op value).IsValid context)
    (h : clause.IsFormed) :
    Ends (scalar make clause) (Condition.IsValid context) Issue.IsFault := by
  refine (KeywordClause.bareOperation_ends h).bind fun comparison hcomparison => ?_
  exact compared_ends hmake hcomparison

theorem equation_ends {α : Type} [Vocabulary α] {field : String} {make : α → Condition}
    (hmake : ∀ a, (make a).IsValid context) (h : clause.IsFormed) :
    Ends (equation α field make clause) (Condition.IsValid context) Issue.IsFault := by
  refine (KeywordClause.bareOperation_ends h).bind fun comparison _ => ?_
  exact (Grammar.Comparison.equation_ends _ α field).bind fun a _ => hmake a

theorem equationOrDenial_ends {α : Type} [Vocabulary α] {field : String}
    {make : α → Bool → Condition} (hmake : ∀ a negated, (make a negated).IsValid context)
    (h : clause.IsFormed) :
    Ends (equationOrDenial α field make clause) (Condition.IsValid context) Issue.IsFault := by
  refine (KeywordClause.bareOperation_ends h).bind fun comparison _ => ?_
  exact (Grammar.Comparison.equationOrDenial_ends _ α field).bind fun found _ => hmake _ _

/-- A clause with an operator and a number, which a condition takes as they are. -/
theorem comparing_ends (make : CompareOperator → Quantity → Condition)
    (hmake : ∀ op value, value.IsValid → (make op value).IsValid context)
    (h : clause.IsFormed) :
    Ends (do let (op, value) ← (← clause.operation).compare; return make op value)
      (Condition.IsValid context) Issue.IsFault := by
  refine (KeywordClause.operation_ends h).bind fun comparison hcomparison => ?_
  exact compared_ends hmake hcomparison

theorem ofClause_ends (context : Context) (keyword : ConditionKeyword) (h : clause.IsFormed) :
    Ends (ofClause context keyword clause) (Condition.IsValid context) Issue.IsFault := by
  cases keyword with
  | isAdmin | english | german => exact KeywordClause.alone_ends.map fun _ _ => True.intro
  | chance =>
      refine (KeywordClause.oneArgument_ends h _).bind fun argument _ => ?_
      refine (KeywordClause.noComparison_ends _).bind fun _ _ => ?_
      exact (KeywordClause.natural_ends rfl rfl argument).bind fun percent hpercent => hpercent.2
  | attrib =>
      refine (KeywordClause.oneArgument_ends h _).bind fun argument _ => ?_
      refine (argument.member_ends _ _).bind fun stat _ => ?_
      exact comparing_ends (attrib stat) (fun _ _ hvalue => hvalue) h
  | item =>
      simp only [ofClause]
      split
      · rename_i first hfirst
        refine (KeywordClause.item_ends context first).bind fun found hfound => ?_
        exact comparing_ends (item found .all) (fun _ _ hvalue => ⟨hfound, hvalue⟩) h
      · rename_i first second hfirst
        refine (KeywordClause.item_ends context first).bind fun found hfound => ?_
        refine (second.member_ends _ _).bind fun location _ => ?_
        exact comparing_ends (item found location) (fun _ _ hvalue => ⟨hfound, hvalue⟩) h
      · exact True.intro
  | questStatus =>
      refine (KeywordClause.oneArgument_ends h _).bind fun argument _ => ?_
      refine (KeywordClause.natural_ends rfl rfl argument).bind fun quest hquest => ?_
      exact comparing_ends (questStatus quest) (fun _ _ hvalue => ⟨hquest.2, hvalue⟩) h
  | skill =>
      refine (KeywordClause.oneArgument_ends h _).bind fun argument _ => ?_
      refine (argument.skill_ends context).bind fun found hfound => ?_
      exact comparing_ends (skill found) (fun _ _ hvalue => ⟨hfound, hvalue⟩) h
  | money | number | rank | state => exact scalar_ends (fun _ _ hvalue => hvalue) h
  | magicType | talkMode | talkState | language => exact equation_ends (fun _ => True.intro) h
  | race | sex | town => exact equationOrDenial_ends (fun _ _ => True.intro) h

end NpcScript.Condition
