import NpcScript.Proofs.Clause.Role

/-!
Comparisons inside the parentheses. A comparison that is the last argument of a clause can as well
stand behind the parentheses, with its subject left as the argument: the clause has the same one
operation, and the keywords that take the argument by its name only are given the same name.
-/

namespace NpcScript

open Grammar (Argument Comparison KeywordClause Lexeme)

/-- The comparison in the last argument of the first clause stands behind the parentheses of the
second, and is the only one. -/
inductive Grammar.KeywordClause.MovesOut : KeywordClause → KeywordClause → Prop
  | intro {keyword subject : Lexeme} {found : Comparison} {first : List Argument}
      (hfirst : ∀ argument ∈ first, argument.comparison? = none) :
      MovesOut ⟨keyword, some (first ++ [.comparison subject found]), none⟩
        ⟨keyword, some (first ++ [.operand subject]), some found⟩

namespace Grammar.KeywordClause.MovesOut

variable {clause clause' : KeywordClause}

theorem keyword_eq (h : clause.MovesOut clause') : clause.keyword = clause'.keyword := by
  obtain ⟨hfirst⟩ := h
  rfl

theorem invalid_eq (h : clause.MovesOut clause') (reason : String) :
    clause.invalid reason = clause'.invalid reason := by
  rw [invalid, h.keyword_eq]
  rfl

/-- There is one comparison in either clause, and it is the same one. -/
theorem exists_comparison (h : clause.MovesOut clause') :
    ∃ found, clause.comparison = none ∧ clause.innerComparison? = some found ∧
      clause'.comparison = some found ∧ clause'.innerComparison? = none := by
  obtain @⟨keyword, subject, found, first, hfirst⟩ := h
  have hnone : first.findSome? Argument.comparison? = none := List.findSome?_eq_none_iff.mpr hfirst
  exact ⟨found, rfl, by simp [innerComparison?, argumentList, hnone, Argument.comparison?], rfl,
    by simp [innerComparison?, argumentList, hnone, Argument.comparison?]⟩

theorem operation_eq (h : clause.MovesOut clause') : clause.operation = clause'.operation := by
  obtain ⟨found, hcomparison, hinner, hcomparison', hinner'⟩ := h.exists_comparison
  simp only [operation, hcomparison, hinner, hcomparison', hinner']

theorem compares_eq (h : clause.MovesOut clause') : clause.compares = clause'.compares := by
  obtain ⟨found, hcomparison, hinner, hcomparison', hinner'⟩ := h.exists_comparison
  simp only [compares, hcomparison, hinner, hcomparison', hinner', Option.or]

theorem role?_eq (h : clause.MovesOut clause') (side : Side) :
    clause.role? side = clause'.role? side :=
  role?_congr (congrArg Lexeme.text h.keyword_eq) h.compares_eq side

/-- The arguments differ in the last one only, which has the same name and column in both. -/
theorem exists_argumentList (h : clause.MovesOut clause') :
    ∃ first last last', clause.argumentList = first ++ [last] ∧
      clause'.argumentList = first ++ [last'] ∧ last.column = last'.column ∧
      last.token = last'.token := by
  obtain @⟨keyword, subject, found, first, hfirst⟩ := h
  exact ⟨first, .comparison subject found, .operand subject, rfl, rfl, rfl, rfl⟩

/-- What is done with the only argument may go by its name and column. -/
theorem oneArgument_bind_eq {α : Type} (h : clause.MovesOut clause') (reason : String)
    {next : Argument → Except Issue α}
    (hnext : ∀ argument argument' : Argument, argument.column = argument'.column →
      argument.token = argument'.token → next argument = next argument') :
    clause.oneArgument reason >>= next = clause'.oneArgument reason >>= next := by
  obtain ⟨first, last, last', hlist, hlist', hcolumn, htoken⟩ := h.exists_argumentList
  simp only [oneArgument, hlist, hlist', h.invalid_eq]
  match first with
  | [] => exact hnext last last' hcolumn htoken
  | [_] | _ :: _ :: _ => rfl

end Grammar.KeywordClause.MovesOut

/-! ### Keywords that take a name -/

theorem Grammar.Argument.member_eq {argument argument' : Argument}
    (hcolumn : argument.column = argument'.column) (htoken : argument.token = argument'.token)
    (α : Type) [Vocabulary α] (field : String) :
    argument.member α field = argument'.member α field := by
  rw [member, member, hcolumn, htoken]

theorem Grammar.Argument.skill_eq {argument argument' : Argument}
    (hcolumn : argument.column = argument'.column) (htoken : argument.token = argument'.token)
    (context : Context) : argument.skill context = argument'.skill context := by
  rw [skill, skill, hcolumn, htoken]

/-- The keyword takes the last of so many arguments by its name, whatever the others are. -/
def Role.NamesLast : Role → Nat → Prop
  | condition .attrib, _ | condition .skill, _ => True
  | consequence .attrib, _ | consequence .skill, _ => True
  | condition .item, count => 2 ≤ count
  | _, _ => False

section Moved

variable {context : Context} {clause clause' : KeywordClause}

theorem Condition.item_eq_of_movesOut (h : clause.MovesOut clause')
    (hcount : 2 ≤ clause.argumentList.length) :
    ofClause context .item clause = ofClause context .item clause' := by
  obtain ⟨first, last, last', hlist, hlist', hcolumn, htoken⟩ := h.exists_argumentList
  have hitem (argument : Argument) :
      clause.item context argument = clause'.item context argument := by
    simp only [KeywordClause.item, h.invalid_eq]
  simp only [ofClause, hlist, hlist', h.invalid_eq, h.operation_eq, hitem]
  rcases first with _ | ⟨found, _ | ⟨_, others⟩⟩
  · simp [hlist] at hcount
  · simp only [List.singleton_append, pure_bind, Argument.member_eq hcolumn htoken]
  · -- There are at least three arguments in either clause, which is too many.
    cases others <;> rfl

theorem Condition.ofClause_eq_of_movesOut {keyword : ConditionKeyword}
    (h : clause.MovesOut clause')
    (hnames : (Role.condition keyword).NamesLast clause.argumentList.length) :
    ofClause context keyword clause = ofClause context keyword clause' := by
  cases keyword with
  | attrib =>
      simp only [ofClause, h.operation_eq]
      refine h.oneArgument_bind_eq _ fun argument argument' hcolumn htoken => ?_
      rw [Argument.member_eq hcolumn htoken]
  | skill =>
      simp only [ofClause, h.operation_eq]
      refine h.oneArgument_bind_eq _ fun argument argument' hcolumn htoken => ?_
      rw [Argument.skill_eq hcolumn htoken]
  | item => exact item_eq_of_movesOut h hnames
  | _ => exact hnames.elim

theorem Consequence.ofClause_eq_of_movesOut {keyword : ConsequenceKeyword}
    (h : clause.MovesOut clause')
    (hnames : (Role.consequence keyword).NamesLast clause.argumentList.length) :
    ofClause context keyword clause = ofClause context keyword clause' := by
  cases keyword with
  | attrib =>
      simp only [ofClause, h.operation_eq, h.keyword_eq]
      refine h.oneArgument_bind_eq _ fun argument argument' hcolumn htoken => ?_
      rw [Argument.member_eq hcolumn htoken]
  | skill =>
      simp only [ofClause, h.operation_eq, h.keyword_eq]
      refine h.oneArgument_bind_eq _ fun argument argument' hcolumn htoken => ?_
      rw [Argument.skill_eq hcolumn htoken]
  | _ => exact hnames.elim

/-- Where the last argument is taken by its name, a comparison in it comes to the same behind the
parentheses, columns included. -/
theorem Meaning.on_eq_of_movesOut (h : clause.MovesOut clause') {side : Side} {role : Role}
    (hrole : clause.role? side = some role)
    (hnames : role.NamesLast clause.argumentList.length) :
    on side context (.keyword clause) = on side context (.keyword clause') := by
  have hrole' := hrole
  rw [h.role?_eq] at hrole'
  rw [on_eq_read hrole, on_eq_read hrole']
  cases role with
  | condition keyword =>
      exact congrArg (condition <$> ·) (Condition.ofClause_eq_of_movesOut h hnames)
  | consequence keyword =>
      exact congrArg (consequence <$> ·) (Consequence.ofClause_eq_of_movesOut h hnames)

end Moved

end NpcScript
