import NpcScript.Proofs.Choice
import NpcScript.Proofs.Clause.Role

/-!
What clauses are asked. The words that a keyword takes from a closed set stand in spots of its
clause: an argument, the operator of its comparison, or the operand behind the operator. `choices`
lists them for each role; where a clause reports an unknown token, one of them was not met.
-/

namespace NpcScript

open Grammar (Argument Comparison KeywordClause Clause DialogueForm IsOperator IsWord)

/-- The places in a clause where a word of a closed set may be asked for. -/
inductive Spot where
  | argument (index : Nat)
  | operator
  | operand
  deriving DecidableEq

def Spot.Fits : Spot → List Char → Prop
  | operator => IsOperator
  | argument _ | operand => IsWord

theorem Spot.Fits.ne_nil {spot : Spot} {s : List Char} (h : spot.Fits s) : s ≠ [] := by
  cases spot with
  | operator =>
      obtain ⟨c, t, rfl, -⟩ := IsOperator.exists_cons h
      simp
  | argument _ | operand => exact IsWord.ne_nil h

/-- What the clause has in a spot, and at which column. -/
inductive Grammar.KeywordClause.Holds (clause : KeywordClause) : Spot → Nat → List Char → Prop
  | argument {index : Nat} {argument : Argument}
      (h : clause.argumentList[index]? = some argument) :
      Holds clause (.argument index) argument.column argument.token
  | operator {comparison : Comparison} (h : clause.operation = .ok comparison) :
      Holds clause .operator comparison.operator.column comparison.operator.text
  | operand {comparison : Comparison} (h : clause.operation = .ok comparison) :
      Holds clause .operand comparison.operand.column comparison.operand.text

/-- A spot holds one text. -/
theorem Grammar.KeywordClause.Holds.unique {clause : KeywordClause} {spot : Spot}
    {column column' : Nat} {text text' : List Char} (h : clause.Holds spot column text)
    (h' : clause.Holds spot column' text') : column = column' ∧ text = text' := by
  cases h with
  | argument h =>
      obtain @⟨_, _, h'⟩ := h'
      cases h.symm.trans h'
      exact ⟨rfl, rfl⟩
  | operator h =>
      obtain _ | @⟨_, h'⟩ := h'
      cases h.symm.trans h'
      exact ⟨rfl, rfl⟩
  | operand h =>
      obtain _ | _ | @⟨_, h'⟩ := h'
      cases h.symm.trans h'
      exact ⟨rfl, rfl⟩

namespace Role

def choices : Role → List (Spot × Choice)
  | condition .attrib =>
    [(.argument 0, .of CharacterAttribute), (.operator, .of CompareOperator)]
  | condition .item => [(.argument 1, .of ItemLocation), (.operator, .of CompareOperator)]
  | condition .money | condition .number | condition .questStatus | condition .rank
  | condition .skill | condition .state => [(.operator, .of CompareOperator)]
  | condition .magicType => [(.operand, .of MagicType)]
  | condition .race => [(.operand, .of Race)]
  | condition .sex => [(.operand, .of Sex)]
  | condition .talkMode => [(.operand, .of TalkMode)]
  | condition .language => [(.operand, .of Language)]
  | condition .talkState | consequence .talkState => [(.operand, .of TalkState)]
  | condition .town | consequence .town => [(.operand, .of Town)]
  | consequence .arena => [(.argument 0, .of ArenaTask)]
  | consequence .attrib => [(.argument 0, .of CharacterAttribute)]
  | _ => []

/-- A clause in this role is asked to have a text of the choice at the column, and has this one. -/
def Asks (role : Role) (clause : KeywordClause) (column : Nat) (text : List Char)
    (choice : Choice) : Prop :=
  ∃ spot, (spot, choice) ∈ role.choices ∧ clause.Holds spot column text

/-- What messages list for a spot belongs into the spot and is taken there. -/
theorem choices_offer (role : Role) :
    ∀ entry ∈ role.choices, entry.2.Offers entry.1.Fits := by
  have hoperator : (Choice.of CompareOperator).Offers Spot.operator.Fits :=
    Choice.compareOperator_offers
  have hword {α : Type} [Vocabulary α] (spot : Spot) (hspot : spot ≠ .operator)
      (hne : (Vocabulary.all : List α) ≠ [])
      (hwords : ∀ a ∈ (Vocabulary.all : List α),
        Grammar.wordLexer (Vocabulary.token a).toList = some []) :
      (Choice.of α).Offers spot.Fits := by
    cases spot with
    | operator => exact absurd rfl hspot
    | argument _ | operand => exact Choice.of_offers_word hne hwords
  rcases role with keyword | keyword <;> cases keyword
  all_goals
    simp only [choices, List.forall_mem_cons, List.not_mem_nil, false_implies, implies_true,
      and_true, hoperator]
    try exact hword _ (by decide) (by simp [Vocabulary.all]) (by decide)

end Role

/-! ### Arguments and comparisons -/

section Parts

variable {asked : Nat → List Char → Choice → Prop}

namespace Grammar.Comparison

variable {comparison : Comparison}

theorem compare_answers
    (h : asked comparison.operator.column comparison.operator.text (.of CompareOperator)) :
    Ends comparison.compare (fun _ => True) (Issue.Answers asked) :=
  (Vocabulary.resolve_answers h _).bind fun _ _ =>
    (Quantity.read_answers _ _ _).bind fun _ _ => True.intro

theorem calculate_answers (comparison : Comparison) (keyword : List Char) :
    Ends (comparison.calculate keyword) (fun _ => True) (Issue.Answers asked) := by
  unfold calculate
  dsimp only
  split
  · exact invalidClause_answers _ _ _
  · exact (Quantity.read_answers _ _ _).bind fun _ _ => True.intro

variable {α : Type} [Vocabulary α]
  (h : asked comparison.operand.column comparison.operand.text (.of α))

include h

theorem equation_answers (keyword : List Char) (field : String) :
    Ends (comparison.equation keyword α field) (fun _ => True) (Issue.Answers asked) := by
  unfold equation
  split
  · exact Vocabulary.resolve_answers h field
  · exact invalidClause_answers _ _ _

theorem equationOrDenial_answers (keyword : List Char) (field : String) :
    Ends (comparison.equationOrDenial keyword α field) (fun _ => True) (Issue.Answers asked) := by
  unfold equationOrDenial
  split
  · exact (Vocabulary.resolve_answers h field).map fun _ _ => True.intro
  · exact invalidClause_answers _ _ _

end Grammar.Comparison

namespace Grammar.KeywordClause

variable (clause : KeywordClause)

theorem invalid_answers (reason : String) : (clause.invalid reason).Answers asked :=
  invalidClause_answers _ _ _

theorem alone_answers : Ends clause.alone (fun _ => True) (Issue.Answers asked) := by
  unfold alone
  split
  · exact clause.invalid_answers _
  · exact True.intro

theorem noComparison_answers (reason : String) :
    Ends (clause.noComparison reason) (fun _ => True) (Issue.Answers asked) := by
  unfold noComparison
  split
  · exact clause.invalid_answers reason
  · exact True.intro

theorem integer_answers (place : NumericPlace) (argument : Argument) :
    Ends (clause.integer place argument) (fun _ => True) (Issue.Answers asked) := by
  unfold integer
  split
  · exact place.read_answers _ _
  · exact clause.invalid_answers _

theorem natural_answers (place : NumericPlace) (argument : Argument) :
    Ends (clause.natural place argument) (fun _ => True) (Issue.Answers asked) :=
  (clause.integer_answers place argument).map fun _ _ => True.intro

theorem item_answers (context : Context) (argument : Argument) :
    Ends (clause.item context argument) (fun _ => True) (Issue.Answers asked) := by
  unfold item
  split
  · exact context.item_answers _ _ _
  · exact clause.invalid_answers _

theorem amount_answers (argument : Argument) :
    Ends (clause.amount argument) (fun _ => True) (Issue.Answers asked) := by
  unfold amount
  split
  · exact Quantity.read_answers _ _ _
  · exact clause.invalid_answers _

theorem operation_answers :
    Ends clause.operation (fun comparison => clause.operation = .ok comparison)
      (Issue.Answers asked) := by
  have hissue : Ends clause.operation (fun _ => True) (Issue.Answers asked) := by
    unfold operation
    split
    · exact True.intro
    · exact True.intro
    · exact clause.invalid_answers _
    · exact clause.invalid_answers _
  exact hissue.remember.mono fun _ h => h.1

theorem bareOperation_answers :
    Ends clause.bareOperation (fun comparison => clause.operation = .ok comparison)
      (Issue.Answers asked) := by
  unfold bareOperation
  split
  · exact clause.invalid_answers _
  · exact clause.operation_answers

theorem oneArgument_answers (reason : String) :
    Ends (clause.oneArgument reason) (fun argument => clause.argumentList = [argument])
      (Issue.Answers asked) := by
  unfold oneArgument
  split
  · rename_i argument hlist
    exact hlist
  · exact clause.invalid_answers reason

end Grammar.KeywordClause

end Parts

/-! ### Conditions -/

namespace Condition

variable {asked : Nat → List Char → Choice → Prop} {clause : KeywordClause}

/-- A clause with an operator and a number, which a condition takes as they are. -/
theorem comparing_answers
    (h : ∀ comparison, clause.operation = .ok comparison →
      asked comparison.operator.column comparison.operator.text (.of CompareOperator))
    (make : CompareOperator → Quantity → Condition) :
    Ends (do let (op, value) ← (← clause.operation).compare; return make op value)
      (fun _ => True) (Issue.Answers asked) :=
  clause.operation_answers.bind fun comparison hcomparison =>
    (Comparison.compare_answers (h comparison hcomparison)).bind fun _ _ => True.intro

theorem scalar_answers
    (h : ∀ comparison, clause.operation = .ok comparison →
      asked comparison.operator.column comparison.operator.text (.of CompareOperator))
    (make : CompareOperator → Quantity → Condition) :
    Ends (scalar make clause) (fun _ => True) (Issue.Answers asked) :=
  clause.bareOperation_answers.bind fun comparison hcomparison =>
    (Comparison.compare_answers (h comparison hcomparison)).bind fun _ _ => True.intro

section Operands

variable {α : Type} [Vocabulary α]
  (h : ∀ comparison, clause.operation = .ok comparison →
    asked comparison.operand.column comparison.operand.text (.of α))

include h

theorem equation_answers (field : String) (make : α → Condition) :
    Ends (equation α field make clause) (fun _ => True) (Issue.Answers asked) :=
  clause.bareOperation_answers.bind fun comparison hcomparison =>
    (Comparison.equation_answers (h comparison hcomparison) _ field).bind fun _ _ => True.intro

theorem equationOrDenial_answers (field : String) (make : α → Bool → Condition) :
    Ends (equationOrDenial α field make clause) (fun _ => True) (Issue.Answers asked) :=
  clause.bareOperation_answers.bind fun comparison hcomparison =>
    (Comparison.equationOrDenial_answers (h comparison hcomparison) _ field).bind
      fun _ _ => True.intro

end Operands

/-- A condition that reports an unknown token was asked for a choice in its role. -/
theorem ofClause_answers (context : Context) (keyword : ConditionKeyword) :
    Ends (ofClause context keyword clause) (fun _ => True)
      (Issue.Answers ((Role.condition keyword).Asks clause)) := by
  have hoperator (hchoices : (.operator, .of CompareOperator) ∈ (Role.condition keyword).choices)
      (comparison : Comparison) (h : clause.operation = .ok comparison) :
      (Role.condition keyword).Asks clause comparison.operator.column comparison.operator.text
        (.of CompareOperator) :=
    ⟨.operator, hchoices, .operator h⟩
  have hoperand {α : Type} [Vocabulary α]
      (hchoices : (.operand, .of α) ∈ (Role.condition keyword).choices)
      (comparison : Comparison) (h : clause.operation = .ok comparison) :
      (Role.condition keyword).Asks clause comparison.operand.column comparison.operand.text
        (.of α) :=
    ⟨.operand, hchoices, .operand h⟩
  cases keyword with
  | isAdmin | english | german => exact clause.alone_answers.map fun _ _ => True.intro
  | chance =>
      refine (clause.oneArgument_answers _).bind fun argument _ => ?_
      refine (clause.noComparison_answers _).bind fun _ _ => ?_
      exact (clause.natural_answers _ argument).bind fun _ _ => True.intro
  | attrib =>
      refine (clause.oneArgument_answers _).bind fun argument hlist => ?_
      have hasked : (Role.condition .attrib).Asks clause argument.column argument.token
          (.of CharacterAttribute) :=
        ⟨.argument 0, by simp [Role.choices], .argument (by simp [hlist])⟩
      refine (Vocabulary.resolve_answers hasked _).bind fun stat _ => ?_
      exact comparing_answers (hoperator (by simp [Role.choices])) (attrib stat)
  | item =>
      have hcomparing := hoperator (by simp [Role.choices])
      simp only [ofClause]
      split
      · refine (clause.item_answers context _).bind fun found _ => ?_
        exact comparing_answers hcomparing (item found .all)
      · rename_i first second hlist
        have hasked : (Role.condition .item).Asks clause second.column second.token
            (.of ItemLocation) :=
          ⟨.argument 1, by simp [Role.choices], .argument (by simp [hlist])⟩
        refine (clause.item_answers context _).bind fun found _ => ?_
        refine (Vocabulary.resolve_answers hasked _).bind fun location _ => ?_
        exact comparing_answers hcomparing (item found location)
      · exact clause.invalid_answers _
  | questStatus =>
      refine (clause.oneArgument_answers _).bind fun argument _ => ?_
      refine (clause.natural_answers _ argument).bind fun quest _ => ?_
      exact comparing_answers (hoperator (by simp [Role.choices])) (questStatus quest)
  | skill =>
      refine (clause.oneArgument_answers _).bind fun argument _ => ?_
      refine (context.skill_answers argument.column argument.token).bind fun found _ => ?_
      exact comparing_answers (hoperator (by simp [Role.choices])) (skill found)
  | money | number | rank | state => exact scalar_answers (hoperator (by simp [Role.choices])) _
  | magicType | talkMode | talkState | language =>
      exact equation_answers (hoperand (by simp [Role.choices])) _ _
  | race | sex | town => exact equationOrDenial_answers (hoperand (by simp [Role.choices])) _ _

end Condition

/-! ### Consequences -/

namespace Consequence

variable {asked : Nat → List Char → Choice → Prop} (clause : KeywordClause)

/-- A clause with an operator and a number, which a consequence takes as they are. -/
theorem calculating_answers (make : CalculationOperator → Quantity → Consequence)
    (keyword : List Char) :
    Ends (do let (op, value) ← (← clause.operation).calculate keyword; return make op value)
      (fun _ => True) (Issue.Answers asked) :=
  clause.operation_answers.bind fun comparison _ =>
    (comparison.calculate_answers keyword).bind fun _ _ => True.intro

theorem scalar_answers (make : CalculationOperator → Quantity → Consequence) :
    Ends (scalar make clause) (fun _ => True) (Issue.Answers asked) :=
  clause.bareOperation_answers.bind fun comparison _ =>
    (comparison.calculate_answers _).bind fun _ _ => True.intro

theorem equation_answers {α : Type} [Vocabulary α]
    (h : ∀ comparison, clause.operation = .ok comparison →
      asked comparison.operand.column comparison.operand.text (.of α))
    (field : String) (make : α → Consequence) :
    Ends (equation α field make clause) (fun _ => True) (Issue.Answers asked) :=
  clause.bareOperation_answers.bind fun comparison hcomparison =>
    (Comparison.equation_answers (h comparison hcomparison) _ field).bind fun _ _ => True.intro

/-- Reads an item and an amount, and hands out the item with the quality that is then read. -/
theorem handingOut_answers (context : Context) (first second : Argument)
    (third : Option Argument) :
    Ends (do
        let found ← clause.item context first
        let amount ← clause.amount second
        let quality ← third.mapM (clause.natural .itemQuality)
        return item found amount quality)
      (fun _ => True) (Issue.Answers asked) := by
  refine (clause.item_answers context first).bind fun found _ => ?_
  refine (clause.amount_answers second).bind fun amount _ => ?_
  exact (Ends.mapM_option fun argument _ => clause.natural_answers .itemQuality argument).bind
    fun quality _ => True.intro

/-- A consequence that reports an unknown token was asked for a choice in its role. -/
theorem ofClause_answers (context : Context) (keyword : ConsequenceKeyword) :
    Ends (ofClause context keyword clause) (fun _ => True)
      (Issue.Answers ((Role.consequence keyword).Asks clause)) := by
  have hoperand {α : Type} [Vocabulary α]
      (hchoices : (.operand, .of α) ∈ (Role.consequence keyword).choices)
      (comparison : Comparison) (h : clause.operation = .ok comparison) :
      (Role.consequence keyword).Asks clause comparison.operand.column comparison.operand.text
        (.of α) :=
    ⟨.operand, hchoices, .operand h⟩
  have hargument {α : Type} [Vocabulary α] {argument : Argument}
      (hchoices : (.argument 0, .of α) ∈ (Role.consequence keyword).choices)
      (hlist : clause.argumentList = [argument]) :
      (Role.consequence keyword).Asks clause argument.column argument.token (.of α) :=
    ⟨.argument 0, hchoices, .argument (by simp [hlist])⟩
  cases keyword with
  | gemCraft | introduce | repair | trade => exact clause.alone_answers.map fun _ _ => True.intro
  | arena =>
      refine (clause.noComparison_answers _).bind fun _ _ => ?_
      refine (clause.oneArgument_answers _).bind fun argument hlist => ?_
      exact (Vocabulary.resolve_answers (hargument (by simp [Role.choices]) hlist) _).bind
        fun _ _ => True.intro
  | inform =>
      refine (clause.noComparison_answers _).bind fun _ _ => ?_
      refine (clause.oneArgument_answers _).bind fun argument _ => ?_
      split
      · exact True.intro
      · exact clause.invalid_answers _
  | treasure =>
      refine (clause.noComparison_answers _).bind fun _ _ => ?_
      refine (clause.oneArgument_answers _).bind fun argument _ => ?_
      exact (clause.natural_answers _ argument).bind fun _ _ => True.intro
  | rune =>
      refine (clause.noComparison_answers _).bind fun _ _ => ?_
      split
      · refine (clause.natural_answers _ _).bind fun _ _ => ?_
        exact (clause.natural_answers _ _).bind fun _ _ => True.intro
      · exact clause.invalid_answers _
  | warp =>
      refine (clause.noComparison_answers _).bind fun _ _ => ?_
      split
      · refine (clause.integer_answers _ _).bind fun _ _ => ?_
        refine (clause.integer_answers _ _).bind fun _ _ => ?_
        exact (clause.integer_answers _ _).bind fun _ _ => True.intro
      · exact clause.invalid_answers _
  | deleteItem =>
      refine (clause.noComparison_answers _).bind fun _ _ => ?_
      split
      · refine (clause.item_answers context _).bind fun _ _ => ?_
        exact (clause.amount_answers _).bind fun _ _ => True.intro
      · exact clause.invalid_answers _
  | item =>
      refine (clause.noComparison_answers _).bind fun _ _ => ?_
      dsimp only
      split
      · exact handingOut_answers clause context _ _ none
      · rename_i third _
        exact handingOut_answers clause context _ _ (some third)
      · exact clause.invalid_answers _
  | attrib =>
      refine (clause.oneArgument_answers _).bind fun argument hlist => ?_
      refine (Vocabulary.resolve_answers (hargument (by simp [Role.choices]) hlist) _).bind
        fun stat _ => ?_
      exact calculating_answers clause (attrib stat) _
  | skill =>
      refine (clause.oneArgument_answers _).bind fun argument _ => ?_
      refine (context.skill_answers argument.column argument.token).bind fun found _ => ?_
      exact calculating_answers clause (skill found) _
  | questStatus =>
      refine (clause.oneArgument_answers _).bind fun argument _ => ?_
      refine (clause.natural_answers _ argument).bind fun quest _ => ?_
      exact calculating_answers clause (questStatus quest) _
  | money | rankPoints | state => exact scalar_answers clause _
  | town | talkState => exact equation_answers clause (hoperand (by simp [Role.choices])) _ _

end Consequence

/-! ### Clauses -/

theorem Role.read_answers (context : Context) (clause : KeywordClause) (role : Role) :
    Ends (role.read context clause) (fun _ => True) (Issue.Answers (role.Asks clause)) := by
  cases role with
  | condition keyword =>
      exact (Condition.ofClause_answers context keyword).map fun _ _ => True.intro
  | consequence keyword =>
      exact (Consequence.ofClause_answers clause context keyword).map fun _ _ => True.intro

/-- Only a clause with a role reports an unknown token, and it was asked for a choice in this role.
-/
theorem Meaning.exists_role_of_unknownToken {side : Side} {context : Context} {clause : Clause}
    {issue : Issue} (h : on side context clause = .error issue) {field token expected : String}
    (hcause : issue.cause = .unknownToken field token expected) :
    ∃ keywordClause role, clause = .keyword keywordClause ∧
      keywordClause.role? side = some role ∧ issue.Answers (role.Asks keywordClause) := by
  cases clause with
  | answer source =>
      cases side with
      | before =>
          cases h
          cases hcause
      | after => cases h
  | keyword clause =>
      cases hrole : clause.role? side with
      | some role =>
          rw [on_eq_read hrole] at h
          exact ⟨clause, role, rfl, hrole, (role.read_answers context clause).error h⟩
      | none =>
          -- A keyword that means nothing on this side is reported as such.
          exfalso
          cases side with
          | before =>
              rw [KeywordClause.role?, Option.map_eq_none_iff] at hrole
              simp only [on, before, hrole] at h
              split at h <;> cases h <;> cases hcause
          | after =>
              simp only [KeywordClause.role?] at hrole
              simp only [on, after] at h
              split at hrole
              · split at hrole <;> cases hrole
              · cases hrole
              · cases hrole
              · rename_i hkeyword hother
                simp only [hkeyword, hother] at h
                cases h
                cases hcause

end NpcScript
