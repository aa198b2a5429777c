import NpcScript.Clause.Consequence
import NpcScript.Proofs.Clause.Form

/-!
Clauses as consequences. The consequence that a formed clause states is valid; a clause that states
none is at fault.
-/

namespace NpcScript.Consequence

open Grammar (KeywordClause Argument)

variable {context : Context} {clause : KeywordClause}

theorem calculated_ends {make : CalculationOperator → Quantity → Consequence}
    (hmake : ∀ op value, value.IsValid → (make op value).IsValid context)
    {comparison : Grammar.Comparison} (h : comparison.IsFormed) {keyword : List Char} :
    Ends (do let (op, value) ← comparison.calculate keyword; return make op value)
      (Consequence.IsValid context) Issue.IsFault :=
  (Grammar.Comparison.calculate_ends h keyword).bind fun _ hfound => hmake _ _ hfound

theorem scalar_ends {make : CalculationOperator → Quantity → Consequence}
    (hmake : ∀ op value, value.IsValid → (make op value).IsValid context)
    (h : clause.IsFormed) :
    Ends (scalar make clause) (Consequence.IsValid context) Issue.IsFault := by
  refine (KeywordClause.bareOperation_ends h).bind fun comparison hcomparison => ?_
  exact calculated_ends hmake hcomparison

theorem equation_ends {α : Type} [Vocabulary α] {field : String} {make : α → Consequence}
    (hmake : ∀ a, (make a).IsValid context) (h : clause.IsFormed) :
    Ends (equation α field make clause) (Consequence.IsValid context) Issue.IsFault := by
  refine (KeywordClause.bareOperation_ends h).bind fun comparison _ => ?_
  exact (Grammar.Comparison.equation_ends _ α field).bind fun a _ => hmake a

/-- A clause with an operator and a number, which a consequence takes as they are. -/
theorem calculating_ends (make : CalculationOperator → Quantity → Consequence)
    (hmake : ∀ op value, value.IsValid → (make op value).IsValid context)
    (h : clause.IsFormed) {keyword : List Char} :
    Ends (do let (op, value) ← (← clause.operation).calculate keyword; return make op value)
      (Consequence.IsValid context) Issue.IsFault := by
  refine (KeywordClause.operation_ends h).bind fun comparison hcomparison => ?_
  exact calculated_ends hmake hcomparison

/-- Reads an item and an amount, and hands out the item with the quality that is then read. -/
theorem handingOut_ends {first second : Argument} (hsecond : second.IsFormed)
    (third : Option Argument) :
    Ends (do
        let found ← clause.item context first
        let amount ← clause.amount second
        let quality ← third.mapM (clause.natural .itemQuality)
        return item found amount quality)
      (Consequence.IsValid context) Issue.IsFault := by
  refine (KeywordClause.item_ends context first).bind fun found hfound => ?_
  refine (KeywordClause.amount_ends hsecond).bind fun amount hamount => ?_
  refine (Ends.mapM_option fun argument _ =>
    KeywordClause.natural_ends rfl rfl argument).bind fun quality hquality => ?_
  exact ⟨hfound, hamount, fun value hvalue => (hquality value hvalue).2⟩

theorem ofClause_ends (context : Context) (keyword : ConsequenceKeyword) (h : clause.IsFormed) :
    Ends (ofClause context keyword clause) (Consequence.IsValid context) Issue.IsFault := by
  cases keyword with
  | gemCraft | introduce | repair | trade =>
      exact KeywordClause.alone_ends.map fun _ _ => True.intro
  | arena =>
      refine (KeywordClause.noComparison_ends _).bind fun _ _ => ?_
      refine (KeywordClause.oneArgument_ends h _).bind fun argument _ => ?_
      exact (argument.member_ends _ _).bind fun _ _ => True.intro
  | inform =>
      refine (KeywordClause.noComparison_ends _).bind fun _ _ => ?_
      refine (KeywordClause.oneArgument_ends h _).bind fun argument _ => ?_
      cases argument <;> exact True.intro
  | treasure =>
      refine (KeywordClause.noComparison_ends _).bind fun _ _ => ?_
      refine (KeywordClause.oneArgument_ends h _).bind fun argument _ => ?_
      exact (KeywordClause.natural_ends rfl rfl argument).bind fun level hlevel => hlevel
  | rune =>
      refine (KeywordClause.noComparison_ends _).bind fun _ _ => ?_
      split
      · rename_i first second harguments
        refine (KeywordClause.natural_ends rfl rfl first).bind fun runeClass hclass => ?_
        refine (KeywordClause.natural_ends rfl rfl second).bind fun number hnumber => ?_
        exact ⟨hclass.2, hnumber.2⟩
      · exact True.intro
  | warp =>
      refine (KeywordClause.noComparison_ends _).bind fun _ _ => ?_
      split
      · rename_i first second third harguments
        refine (KeywordClause.integer_ends .coordinateX first).bind fun x hx => ?_
        refine (KeywordClause.integer_ends .coordinateY second).bind fun y hy => ?_
        refine (KeywordClause.integer_ends .coordinateZ third).bind fun z hz => ?_
        exact ⟨hx, hy, hz⟩
      · exact True.intro
  | deleteItem =>
      refine (KeywordClause.noComparison_ends _).bind fun _ _ => ?_
      split
      · rename_i first second harguments
        have hsecond := h.argumentList second (by simp [harguments])
        refine (KeywordClause.item_ends context first).bind fun found hfound => ?_
        refine (KeywordClause.amount_ends hsecond).bind fun amount hamount => ?_
        exact ⟨hfound, hamount⟩
      · exact True.intro
  | item =>
      refine (KeywordClause.noComparison_ends _).bind fun _ _ => ?_
      dsimp only
      split
      · rename_i first second harguments
        exact handingOut_ends (h.argumentList second (by simp [harguments])) none
      · rename_i first second third harguments
        exact handingOut_ends (h.argumentList second (by simp [harguments])) (some third)
      · exact True.intro
  | attrib =>
      refine (KeywordClause.oneArgument_ends h _).bind fun argument _ => ?_
      refine (argument.member_ends _ _).bind fun stat _ => ?_
      exact calculating_ends (attrib stat) (fun _ _ hvalue => hvalue) h
  | skill =>
      refine (KeywordClause.oneArgument_ends h _).bind fun argument _ => ?_
      refine (argument.skill_ends context).bind fun found hfound => ?_
      exact calculating_ends (skill found) (fun _ _ hvalue => ⟨hfound, hvalue⟩) h
  | questStatus =>
      refine (KeywordClause.oneArgument_ends h _).bind fun argument _ => ?_
      refine (KeywordClause.natural_ends rfl rfl argument).bind fun quest hquest => ?_
      exact calculating_ends (questStatus quest) (fun _ _ hvalue => ⟨hquest.2, hvalue⟩) h
  | money | rankPoints | state => exact scalar_ends (fun _ _ hvalue => hvalue) h
  | town | talkState => exact equation_ends (fun _ => True.intro) h

end NpcScript.Consequence
