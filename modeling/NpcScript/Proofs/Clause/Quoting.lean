import NpcScript.Proofs.Clause.Line
import NpcScript.Proofs.Quoting

/-!
What the issues of clauses quote. A clause reports what is wrong with an argument, an operator or an
operand at its own column, and what is wrong with the clause as a whole at its keyword.
-/

namespace NpcScript

open Grammar (Argument Comparison KeywordClause Clause DialogueForm)

variable {line : List Char}

/-! ### Arguments and comparisons -/

namespace Grammar.Comparison

variable {comparison : Comparison} (h : comparison.StandsIn line)

include h

theorem compare_quotes : Ends comparison.compare (fun _ => True) (Issue.Quotes line) := by
  refine (Vocabulary.resolve_quotes (.bare h.isOperator.isBare h.operator) _ _).bind fun op _ => ?_
  exact (Quantity.read_quotes h.operand h.isOperand.isBare _).bind fun value _ => True.intro

theorem calculate_quotes (keyword : List Char) :
    Ends (comparison.calculate keyword) (fun _ => True) (Issue.Quotes line) := by
  unfold calculate
  dsimp only
  split
  · exact invalidClause_quotes line _ _ _
  · exact (Quantity.read_quotes h.operand h.isOperand.isBare _).bind fun value _ => True.intro

theorem member_quotes (α : Type) [Vocabulary α] (field : String) :
    Ends (comparison.member α field) (fun _ => True) (Issue.Quotes line) :=
  Vocabulary.resolve_quotes (.bare h.isOperand.isBare h.operand) α field

theorem equation_quotes (keyword : List Char) (α : Type) [Vocabulary α] (field : String) :
    Ends (comparison.equation keyword α field) (fun _ => True) (Issue.Quotes line) := by
  unfold equation
  split
  · exact member_quotes h α field
  · exact invalidClause_quotes line _ _ _

theorem equationOrDenial_quotes (keyword : List Char) (α : Type) [Vocabulary α]
    (field : String) :
    Ends (comparison.equationOrDenial keyword α field) (fun _ => True) (Issue.Quotes line) := by
  unfold equationOrDenial
  split
  · exact (member_quotes h α field).map fun _ _ => True.intro
  · exact invalidClause_quotes line _ _ _

end Grammar.Comparison

namespace Grammar.Argument

variable {argument : Argument} (h : argument.StandsIn line)

include h

/-- An argument names what a string literal stands for, an operand, or the subject of a comparison.
-/
theorem namedAt_token : NamedAt line argument.column argument.token := by
  cases h with
  | quoted hs h => exact h.namedAt_unquote hs
  | operand hs h => exact .bare hs.isBare h
  | comparison hs h hfound => exact .bare hs.isBare h

theorem member_quotes (α : Type) [Vocabulary α] (field : String) :
    Ends (argument.member α field) (fun _ => True) (Issue.Quotes line) :=
  Vocabulary.resolve_quotes (namedAt_token h) α field

theorem skill_quotes (context : Context) :
    Ends (argument.skill context) (fun _ => True) (Issue.Quotes line) :=
  Context.skill_quotes (namedAt_token h) context

end Grammar.Argument

/-! ### Clauses -/

namespace Grammar.KeywordClause

variable {clause : KeywordClause}

theorem invalid_quotes (clause : KeywordClause) (reason : String) :
    (clause.invalid reason).Quotes line :=
  invalidClause_quotes line _ _ _

theorem alone_quotes : Ends clause.alone (fun _ => True) (Issue.Quotes line) := by
  unfold alone
  split
  · exact clause.invalid_quotes _
  · exact True.intro

theorem noComparison_quotes (reason : String) :
    Ends (clause.noComparison reason) (fun _ => True) (Issue.Quotes line) := by
  unfold noComparison
  split
  · exact clause.invalid_quotes reason
  · exact True.intro

section Numbers

variable {argument : Argument} (h : argument.StandsIn line)

include h

theorem integer_quotes (place : NumericPlace) :
    Ends (clause.integer place argument) (fun _ => True) (Issue.Quotes line) := by
  cases h with
  | operand hs h => exact place.read_quotes h hs.isBare
  | quoted hs h => exact clause.invalid_quotes _
  | comparison hs h hfound => exact clause.invalid_quotes _

theorem natural_quotes (place : NumericPlace) :
    Ends (clause.natural place argument) (fun _ => True) (Issue.Quotes line) :=
  (integer_quotes h place).map fun _ _ => True.intro

theorem item_quotes (context : Context) :
    Ends (clause.item context argument) (fun _ => True) (Issue.Quotes line) := by
  cases h with
  | operand hs h => exact context.item_quotes h hs.isBare _
  | quoted hs h => exact clause.invalid_quotes _
  | comparison hs h hfound => exact clause.invalid_quotes _

theorem amount_quotes :
    Ends (clause.amount argument) (fun _ => True) (Issue.Quotes line) := by
  cases h with
  | operand hs h => exact Quantity.read_quotes h hs.isBare _
  | quoted hs h => exact clause.invalid_quotes _
  | comparison hs h hfound => exact clause.invalid_quotes _

end Numbers

variable (h : clause.StandsIn line)

include h

theorem operation_quotes :
    Ends clause.operation (Comparison.StandsIn line) (Issue.Quotes line) := by
  unfold operation
  split
  · rename_i comparison hcomparison hinner
    exact h.comparison comparison hcomparison
  · rename_i comparison hcomparison hinner
    obtain ⟨argument, hmem, hfound⟩ := List.exists_of_findSome?_eq_some hinner
    have hstands := h.argumentList argument hmem
    cases hstands with
    | quoted hs h => cases hfound
    | operand hs h => cases hfound
    | comparison hs h hstands =>
        cases hfound
        exact hstands
  · exact clause.invalid_quotes _
  · exact clause.invalid_quotes _

theorem bareOperation_quotes :
    Ends clause.bareOperation (Comparison.StandsIn line) (Issue.Quotes line) := by
  unfold bareOperation
  split
  · exact clause.invalid_quotes _
  · exact operation_quotes h

theorem oneArgument_quotes (reason : String) :
    Ends (clause.oneArgument reason) (Argument.StandsIn line) (Issue.Quotes line) := by
  unfold oneArgument
  split
  · rename_i argument hargument
    exact h.argumentList argument (by simp [hargument])
  · exact clause.invalid_quotes reason

end Grammar.KeywordClause

/-! ### Conditions -/

namespace Condition

variable {clause : KeywordClause} (h : clause.StandsIn line)

include h

theorem scalar_quotes (make : CompareOperator → Quantity → Condition) :
    Ends (scalar make clause) (fun _ => True) (Issue.Quotes line) := by
  refine (KeywordClause.bareOperation_quotes h).bind fun comparison hcomparison => ?_
  exact (Comparison.compare_quotes hcomparison).bind fun found _ => True.intro

theorem equation_quotes {α : Type} [Vocabulary α] (field : String) (make : α → Condition) :
    Ends (equation α field make clause) (fun _ => True) (Issue.Quotes line) := by
  refine (KeywordClause.bareOperation_quotes h).bind fun comparison hcomparison => ?_
  exact (Comparison.equation_quotes hcomparison _ α field).bind fun a _ => True.intro

theorem equationOrDenial_quotes {α : Type} [Vocabulary α] (field : String)
    (make : α → Bool → Condition) :
    Ends (equationOrDenial α field make clause) (fun _ => True) (Issue.Quotes line) := by
  refine (KeywordClause.bareOperation_quotes h).bind fun comparison hcomparison => ?_
  exact (Comparison.equationOrDenial_quotes hcomparison _ α field).bind fun found _ => True.intro

/-- A clause with an operator and a number, which a condition takes as they are. -/
theorem comparing_quotes (make : CompareOperator → Quantity → Condition) :
    Ends (do let (op, value) ← (← clause.operation).compare; return make op value)
      (fun _ => True) (Issue.Quotes line) := by
  refine (KeywordClause.operation_quotes h).bind fun comparison hcomparison => ?_
  exact (Comparison.compare_quotes hcomparison).bind fun found _ => True.intro

theorem ofClause_quotes (context : Context) (keyword : ConditionKeyword) :
    Ends (ofClause context keyword clause) (fun _ => True) (Issue.Quotes line) := by
  cases keyword with
  | isAdmin | english | german => exact KeywordClause.alone_quotes.map fun _ _ => True.intro
  | chance =>
      refine (KeywordClause.oneArgument_quotes h _).bind fun argument hargument => ?_
      refine (KeywordClause.noComparison_quotes _).bind fun _ _ => ?_
      exact (KeywordClause.natural_quotes hargument _).bind fun percent _ => True.intro
  | attrib =>
      refine (KeywordClause.oneArgument_quotes h _).bind fun argument hargument => ?_
      refine (Argument.member_quotes hargument _ _).bind fun stat _ => ?_
      exact comparing_quotes h (attrib stat)
  | item =>
      simp only [ofClause]
      split
      · rename_i first hfirst
        have hstands := h.argumentList first (by simp [hfirst])
        refine (KeywordClause.item_quotes hstands context).bind fun found _ => ?_
        exact comparing_quotes h (item found .all)
      · rename_i first second hfirst
        have hstands := h.argumentList first (by simp [hfirst])
        have hsecond := h.argumentList second (by simp [hfirst])
        refine (KeywordClause.item_quotes hstands context).bind fun found _ => ?_
        refine (Argument.member_quotes hsecond _ _).bind fun location _ => ?_
        exact comparing_quotes h (item found location)
      · exact clause.invalid_quotes _
  | questStatus =>
      refine (KeywordClause.oneArgument_quotes h _).bind fun argument hargument => ?_
      refine (KeywordClause.natural_quotes hargument _).bind fun quest _ => ?_
      exact comparing_quotes h (questStatus quest)
  | skill =>
      refine (KeywordClause.oneArgument_quotes h _).bind fun argument hargument => ?_
      refine (Argument.skill_quotes hargument context).bind fun found _ => ?_
      exact comparing_quotes h (skill found)
  | money | number | rank | state => exact scalar_quotes h _
  | magicType | talkMode | talkState | language => exact equation_quotes h _ _
  | race | sex | town => exact equationOrDenial_quotes h _ _

end Condition

/-! ### Consequences -/

namespace Consequence

variable {clause : KeywordClause}

/-- Reads an item and an amount, and hands out the item with the quality that is then read. -/
theorem handingOut_quotes (context : Context) {first second : Argument}
    (third : Option Argument) (hfirst : first.StandsIn line) (hsecond : second.StandsIn line)
    (hthird : ∀ argument, third = some argument → argument.StandsIn line) :
    Ends (do
        let found ← clause.item context first
        let amount ← clause.amount second
        let quality ← third.mapM (clause.natural .itemQuality)
        return item found amount quality)
      (fun _ => True) (Issue.Quotes line) := by
  refine (KeywordClause.item_quotes hfirst context).bind fun found _ => ?_
  refine (KeywordClause.amount_quotes hsecond).bind fun amount _ => ?_
  exact (Ends.mapM_option fun argument hargument =>
    KeywordClause.natural_quotes (hthird argument hargument) .itemQuality).bind
      fun quality _ => True.intro

variable (h : clause.StandsIn line)

include h

theorem scalar_quotes (make : CalculationOperator → Quantity → Consequence) :
    Ends (scalar make clause) (fun _ => True) (Issue.Quotes line) := by
  refine (KeywordClause.bareOperation_quotes h).bind fun comparison hcomparison => ?_
  exact (Comparison.calculate_quotes hcomparison _).bind fun found _ => True.intro

theorem equation_quotes {α : Type} [Vocabulary α] (field : String) (make : α → Consequence) :
    Ends (equation α field make clause) (fun _ => True) (Issue.Quotes line) := by
  refine (KeywordClause.bareOperation_quotes h).bind fun comparison hcomparison => ?_
  exact (Comparison.equation_quotes hcomparison _ α field).bind fun a _ => True.intro

/-- A clause with an operator and a number, which a consequence takes as they are. -/
theorem calculating_quotes (make : CalculationOperator → Quantity → Consequence)
    (keyword : List Char) :
    Ends (do let (op, value) ← (← clause.operation).calculate keyword; return make op value)
      (fun _ => True) (Issue.Quotes line) := by
  refine (KeywordClause.operation_quotes h).bind fun comparison hcomparison => ?_
  exact (Comparison.calculate_quotes hcomparison _).bind fun found _ => True.intro

theorem ofClause_quotes (context : Context) (keyword : ConsequenceKeyword) :
    Ends (ofClause context keyword clause) (fun _ => True) (Issue.Quotes line) := by
  have hargument {arguments : List Argument} (harguments : clause.argumentList = arguments) :
      ∀ argument ∈ arguments, argument.StandsIn line :=
    harguments ▸ h.argumentList
  cases keyword with
  | gemCraft | introduce | repair | trade =>
      exact KeywordClause.alone_quotes.map fun _ _ => True.intro
  | arena =>
      refine (KeywordClause.noComparison_quotes _).bind fun _ _ => ?_
      refine (KeywordClause.oneArgument_quotes h _).bind fun argument hargument => ?_
      exact (Argument.member_quotes hargument _ _).bind fun _ _ => True.intro
  | inform =>
      refine (KeywordClause.noComparison_quotes _).bind fun _ _ => ?_
      refine (KeywordClause.oneArgument_quotes h _).bind fun argument _ => ?_
      cases argument with
      | quoted source => exact True.intro
      | operand source => exact clause.invalid_quotes _
      | comparison subject found => exact clause.invalid_quotes _
  | treasure =>
      refine (KeywordClause.noComparison_quotes _).bind fun _ _ => ?_
      refine (KeywordClause.oneArgument_quotes h _).bind fun argument hargument => ?_
      exact (KeywordClause.natural_quotes hargument _).bind fun level _ => True.intro
  | rune =>
      refine (KeywordClause.noComparison_quotes _).bind fun _ _ => ?_
      split
      · rename_i first second harguments
        have hstands := hargument harguments
        refine (KeywordClause.natural_quotes (hstands first (by simp)) _).bind fun _ _ => ?_
        exact (KeywordClause.natural_quotes (hstands second (by simp)) _).bind
          fun number _ => True.intro
      · exact clause.invalid_quotes _
  | warp =>
      refine (KeywordClause.noComparison_quotes _).bind fun _ _ => ?_
      split
      · rename_i first second third harguments
        have hstands := hargument harguments
        refine (KeywordClause.integer_quotes (hstands first (by simp)) _).bind fun x _ => ?_
        refine (KeywordClause.integer_quotes (hstands second (by simp)) _).bind fun y _ => ?_
        exact (KeywordClause.integer_quotes (hstands third (by simp)) _).bind
          fun z _ => True.intro
      · exact clause.invalid_quotes _
  | deleteItem =>
      refine (KeywordClause.noComparison_quotes _).bind fun _ _ => ?_
      split
      · rename_i first second harguments
        have hstands := hargument harguments
        refine (KeywordClause.item_quotes (hstands first (by simp)) context).bind fun _ _ => ?_
        exact (KeywordClause.amount_quotes (hstands second (by simp))).bind
          fun amount _ => True.intro
      · exact clause.invalid_quotes _
  | item =>
      refine (KeywordClause.noComparison_quotes _).bind fun _ _ => ?_
      dsimp only
      split
      · rename_i first second harguments
        have hstands := hargument harguments
        exact handingOut_quotes context none (hstands first (by simp))
          (hstands second (by simp)) (by simp)
      · rename_i first second third harguments
        have hstands := hargument harguments
        exact handingOut_quotes context (some third) (hstands first (by simp))
          (hstands second (by simp)) (by simpa using hstands third (by simp))
      · exact clause.invalid_quotes _
  | attrib =>
      refine (KeywordClause.oneArgument_quotes h _).bind fun argument hargument => ?_
      refine (Argument.member_quotes hargument _ _).bind fun stat _ => ?_
      exact calculating_quotes h (attrib stat) _
  | skill =>
      refine (KeywordClause.oneArgument_quotes h _).bind fun argument hargument => ?_
      refine (Argument.skill_quotes hargument context).bind fun found _ => ?_
      exact calculating_quotes h (skill found) _
  | questStatus =>
      refine (KeywordClause.oneArgument_quotes h _).bind fun argument hargument => ?_
      refine (KeywordClause.natural_quotes hargument _).bind fun quest _ => ?_
      exact calculating_quotes h (questStatus quest) _
  | money | rankPoints | state => exact scalar_quotes h _
  | town | talkState => exact equation_quotes h _ _

end Consequence

/-! ### Both sides -/

namespace Meaning

theorem unknownKeyword_quotes {clause : KeywordClause} (h : clause.StandsIn line) :
    (unknownKeyword clause).Quotes line := by
  refine Issue.quotes_atColumn ?_
  simp only [Cause.IsQuotedFrom, String.toList_ofList]
  exact h.keyword

variable {clause : Clause} (h : clause.StandsIn line)

include h

theorem before_quotes (context : Context) :
    Ends (before context clause) (fun _ => True) (Issue.Quotes line) := by
  cases h with
  | answer h => exact invalidClause_quotes line _ _ _
  | @keyword clause h =>
      simp only [before]
      split
      · exact (Condition.ofClause_quotes h context _).map fun _ _ => True.intro
      · split
        · exact clause.invalid_quotes _
        · exact unknownKeyword_quotes h

theorem after_quotes (context : Context) :
    Ends (after context clause) (fun _ => True) (Issue.Quotes line) := by
  cases h with
  | answer h => exact True.intro
  | keyword h =>
      simp only [after]
      split
      -- A word that is a keyword of both kinds is decided by its operator.
      · split
        · exact (Condition.ofClause_quotes h context _).map fun _ _ => True.intro
        · exact (Consequence.ofClause_quotes h context _).map fun _ _ => True.intro
      · exact (Condition.ofClause_quotes h context _).map fun _ _ => True.intro
      · exact (Consequence.ofClause_quotes h context _).map fun _ _ => True.intro
      · exact unknownKeyword_quotes h

end Meaning

theorem Grammar.DialogueForm.issues_quote {form : DialogueForm}
    (h : ∀ clause ∈ form.before ++ form.after, clause.StandsIn line) (context : Context) :
    Quoting line (form.issues context) := by
  intro issue hissue
  obtain ⟨result, hresult, hfound⟩ := List.mem_filterMap.mp hissue
  have hends : Ends result (fun _ => True) (Issue.Quotes line) := by
    rcases List.mem_append.mp hresult with hbefore | hafter
    · obtain ⟨clause, hclause, rfl⟩ := List.mem_map.mp hbefore
      exact Meaning.before_quotes (h clause (by simp [hclause])) context
    · obtain ⟨clause, hclause, rfl⟩ := List.mem_map.mp hafter
      exact Meaning.after_quotes (h clause (by simp [hclause])) context
  cases result with
  | ok found => cases hfound
  | error found =>
      obtain rfl : found = issue := by simpa [Meaning.issue?] using hfound
      exact hends

end NpcScript
