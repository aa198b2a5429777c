import NpcScript.Proofs.Clause.Inside
import NpcScript.Proofs.Text.Recasing

/-!
Arguments that are taken by their name. A string literal and an operand have the same name if the
one stands for what the other is written as. A keyword that asks an argument for nothing but its
name does not tell them apart, and neither do the side of the arrow and the operator of the clause.
-/

namespace NpcScript

open Grammar (Argument Comparison KeywordClause Lexeme)
open Text (sameLetters)

/-- The clauses have the same arguments but for the one behind `first`, which has the same name at
the same column in both, and a comparison in neither. -/
inductive Grammar.KeywordClause.SharesNames (first : List Argument) :
    KeywordClause → KeywordClause → Prop
  | intro {keyword : Lexeme} {others : List Argument} {found : Option Comparison}
      {argument argument' : Argument} (hcolumn : argument.column = argument'.column)
      (htoken : argument.token = argument'.token) (hplain : argument.comparison? = none)
      (hplain' : argument'.comparison? = none) :
      SharesNames first ⟨keyword, some (first ++ argument :: others), found⟩
        ⟨keyword, some (first ++ argument' :: others), found⟩

namespace Grammar.KeywordClause.SharesNames

variable {first : List Argument} {clause clause' : KeywordClause}

theorem keyword_eq (h : clause.SharesNames first clause') : clause.keyword = clause'.keyword := by
  obtain ⟨hcolumn, htoken, hplain, hplain'⟩ := h
  rfl

theorem comparison_eq (h : clause.SharesNames first clause') :
    clause.comparison = clause'.comparison := by
  obtain ⟨hcolumn, htoken, hplain, hplain'⟩ := h
  rfl

theorem invalid_eq (h : clause.SharesNames first clause') (reason : String) :
    clause.invalid reason = clause'.invalid reason := by
  rw [invalid, h.keyword_eq]
  rfl

theorem innerComparison?_eq (h : clause.SharesNames first clause') :
    clause.innerComparison? = clause'.innerComparison? := by
  obtain ⟨hcolumn, htoken, hplain, hplain'⟩ := h
  simp [innerComparison?, argumentList, List.findSome?_append, hplain, hplain']

theorem operation_eq (h : clause.SharesNames first clause') :
    clause.operation = clause'.operation := by
  simp only [operation, h.comparison_eq, h.innerComparison?_eq, h.invalid_eq]

theorem noComparison_eq (h : clause.SharesNames first clause') (reason : String) :
    clause.noComparison reason = clause'.noComparison reason := by
  simp only [noComparison, h.comparison_eq, h.invalid_eq]

theorem compares_eq (h : clause.SharesNames first clause') :
    clause.compares = clause'.compares := by
  simp only [compares, h.comparison_eq, h.innerComparison?_eq]

theorem role?_eq (h : clause.SharesNames first clause') (side : Side) :
    clause.role? side = clause'.role? side :=
  role?_congr (congrArg Lexeme.text h.keyword_eq) h.compares_eq side

theorem exists_argumentList (h : clause.SharesNames first clause') :
    ∃ argument argument' others, clause.argumentList = first ++ argument :: others ∧
      clause'.argumentList = first ++ argument' :: others ∧
      argument.column = argument'.column ∧ argument.token = argument'.token := by
  obtain ⟨hcolumn, htoken, hplain, hplain'⟩ := h
  exact ⟨_, _, _, rfl, rfl, hcolumn, htoken⟩

/-- What is done with the only argument may go by its name and column. -/
theorem oneArgument_bind_eq {α : Type} (h : clause.SharesNames first clause') (reason : String)
    {next : Argument → Except Issue α}
    (hnext : ∀ argument argument' : Argument, argument.column = argument'.column →
      argument.token = argument'.token → next argument = next argument') :
    clause.oneArgument reason >>= next = clause'.oneArgument reason >>= next := by
  obtain ⟨argument, argument', others, hlist, hlist', hcolumn, htoken⟩ := h.exists_argumentList
  simp only [oneArgument, hlist, hlist', h.invalid_eq]
  rcases first with _ | ⟨_, _ | ⟨_, _⟩⟩
  · cases others with
    | nil => exact hnext argument argument' hcolumn htoken
    | cons => rfl
  · rfl
  · rfl

end Grammar.KeywordClause.SharesNames

/-! ### Keywords that take a name -/

/-- The keyword takes the argument behind these by its name if it has a use for it at all. An item
is given by its number, but the place where a condition looks for it is a name. -/
inductive Grammar.KeywordClause.TakesName (clause : KeywordClause) (side : Side) :
    List Argument → Prop
  | attrib (h : sameLetters clause.keyword.text "attrib".toList = true) (first : List Argument) :
      TakesName clause side first
  | skill (h : sameLetters clause.keyword.text "skill".toList = true) (first : List Argument) :
      TakesName clause side first
  | arena (h : sameLetters clause.keyword.text "arena".toList = true) (first : List Argument) :
      TakesName clause side first
  | location (h : sameLetters clause.keyword.text "item".toList = true)
      (hside : side = .before ∨ clause.compares = true) (number : Argument)
      (first : List Argument) : TakesName clause side (number :: first)

section Named

variable {context : Context} {clause clause' : KeywordClause} {first : List Argument} {side : Side}

theorem Condition.attrib_eq_of_sharesNames (h : clause.SharesNames first clause') :
    ofClause context .attrib clause = ofClause context .attrib clause' := by
  simp only [ofClause, h.operation_eq]
  refine h.oneArgument_bind_eq _ fun argument argument' hcolumn htoken => ?_
  rw [Argument.member_eq hcolumn htoken]

theorem Condition.skill_eq_of_sharesNames (h : clause.SharesNames first clause') :
    ofClause context .skill clause = ofClause context .skill clause' := by
  simp only [ofClause, h.operation_eq]
  refine h.oneArgument_bind_eq _ fun argument argument' hcolumn htoken => ?_
  rw [Argument.skill_eq hcolumn htoken]

theorem Condition.item_eq_of_sharesNames {number : Argument}
    (h : clause.SharesNames (number :: first) clause') :
    ofClause context .item clause = ofClause context .item clause' := by
  obtain ⟨argument, argument', others, hlist, hlist', hcolumn, htoken⟩ := h.exists_argumentList
  have hitem (argument : Argument) :
      clause.item context argument = clause'.item context argument := by
    simp only [KeywordClause.item, h.invalid_eq]
  simp only [ofClause, hlist, hlist', h.invalid_eq, h.operation_eq, hitem]
  rcases first with _ | ⟨_, _ | ⟨_, _⟩⟩
  · cases others with
    | nil => simp only [List.singleton_append, pure_bind, Argument.member_eq hcolumn htoken]
    -- From here on there are at least three arguments in either clause, which is too many.
    | cons => rfl
  · rfl
  · rfl

theorem Consequence.attrib_eq_of_sharesNames (h : clause.SharesNames first clause') :
    ofClause context .attrib clause = ofClause context .attrib clause' := by
  simp only [ofClause, h.operation_eq, h.keyword_eq]
  refine h.oneArgument_bind_eq _ fun argument argument' hcolumn htoken => ?_
  rw [Argument.member_eq hcolumn htoken]

theorem Consequence.skill_eq_of_sharesNames (h : clause.SharesNames first clause') :
    ofClause context .skill clause = ofClause context .skill clause' := by
  simp only [ofClause, h.operation_eq, h.keyword_eq]
  refine h.oneArgument_bind_eq _ fun argument argument' hcolumn htoken => ?_
  rw [Argument.skill_eq hcolumn htoken]

theorem Consequence.arena_eq_of_sharesNames (h : clause.SharesNames first clause') :
    ofClause context .arena clause = ofClause context .arena clause' := by
  simp only [ofClause, h.noComparison_eq]
  refine congrArg _ (funext fun _ => ?_)
  refine h.oneArgument_bind_eq _ fun argument argument' hcolumn htoken => ?_
  rw [Argument.member_eq hcolumn htoken]

/-- Behind the arrow `arena` is a consequence; before it there is no condition of this name. -/
theorem Meaning.on_eq_of_arena (h : clause.SharesNames first clause')
    (hkeyword : sameLetters clause.keyword.text "arena".toList = true) :
    on side context (.keyword clause) = on side context (.keyword clause') := by
  have hsame := Text.sameLetters_iff.mp hkeyword
  have hcondition : Vocabulary.ofWord? ConditionKeyword clause.keyword.text = none :=
    (Vocabulary.ofWord?_eq hsame).trans rfl
  have hconsequence : Vocabulary.ofWord? ConsequenceKeyword clause.keyword.text = some .arena :=
    (Vocabulary.ofWord?_eq hsame).trans rfl
  have hcondition' := h.keyword_eq ▸ hcondition
  have hconsequence' := h.keyword_eq ▸ hconsequence
  cases side with
  | before =>
      simp only [on, before, hcondition, hconsequence, hcondition', hconsequence', h.invalid_eq,
        Option.isSome_some, if_true]
  | after =>
      simp only [on, after, hcondition, hconsequence, hcondition', hconsequence']
      exact congrArg (consequence <$> ·) (Consequence.arena_eq_of_sharesNames h)

/-- Where an argument is taken by its name, another argument of this name comes to the same, columns
included. -/
theorem Meaning.on_eq_of_sharesNames (h : clause.SharesNames first clause')
    (hnames : clause.TakesName side first) :
    on side context (.keyword clause) = on side context (.keyword clause') := by
  have hread {role : Role} (hrole : clause.role? side = some role)
      (hsame : role.read context clause = role.read context clause') :
      on side context (.keyword clause) = on side context (.keyword clause') := by
    rw [on_eq_read hrole, on_eq_read (h.role?_eq side ▸ hrole), hsame]
  have hrole (keyword : ConditionKeyword) (otherKeyword : ConsequenceKeyword) {name : String}
      (h : sameLetters clause.keyword.text name.toList = true)
      (hcondition : Vocabulary.ofWord? ConditionKeyword name.toList = some keyword)
      (hconsequence : Vocabulary.ofWord? ConsequenceKeyword name.toList = some otherKeyword) :=
    KeywordClause.role?_of_both
      ((Vocabulary.ofWord?_eq (Text.sameLetters_iff.mp h)).trans hcondition)
      ((Vocabulary.ofWord?_eq (Text.sameLetters_iff.mp h)).trans hconsequence) side
  cases hnames with
  | attrib hkeyword =>
      have hrole := hrole .attrib .attrib hkeyword rfl rfl
      split at hrole
      · exact hread hrole (congrArg (condition <$> ·) (Condition.attrib_eq_of_sharesNames h))
      · exact hread hrole (congrArg (consequence <$> ·) (Consequence.attrib_eq_of_sharesNames h))
  | skill hkeyword =>
      have hrole := hrole .skill .skill hkeyword rfl rfl
      split at hrole
      · exact hread hrole (congrArg (condition <$> ·) (Condition.skill_eq_of_sharesNames h))
      · exact hread hrole (congrArg (consequence <$> ·) (Consequence.skill_eq_of_sharesNames h))
  | arena hkeyword => exact on_eq_of_arena h hkeyword
  | location hkeyword hside number first =>
      have hrole := hrole .item .item hkeyword rfl rfl
      rw [if_pos hside] at hrole
      exact hread hrole (congrArg (condition <$> ·) (Condition.item_eq_of_sharesNames h))

end Named

end NpcScript
