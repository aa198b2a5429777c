import NpcScript.Proofs.Clause.Role

/-!
Stray comparisons. A keyword that takes no comparison gives up its clause for one, wherever in the
clause the comparison stands: what the parts of such a clause are read by rules a comparison out.
The one exception is a comparison in place of the only argument of `arena` that has a task for its
subject. The subject is taken for the argument there, and the rest is left unread.
-/

namespace NpcScript

open Grammar (Argument KeywordClause)

namespace Grammar.KeywordClause

/-- There is a comparison behind the clause or in one of its arguments. -/
def HoldsComparison (clause : KeywordClause) : Prop :=
  clause.comparison.isSome ∨ ∃ argument ∈ clause.argumentList, argument.comparison?.isSome

/-- The only comparison of the clause is its only argument and has the task for its subject. -/
def ComparesTask (clause : KeywordClause) (task : ArenaTask) : Prop :=
  clause.comparison = none ∧ ∃ subject found,
    clause.argumentList = [.comparison subject found] ∧
      Vocabulary.ofToken? ArenaTask subject.text = some task

end Grammar.KeywordClause

def ConditionKeyword.takesNoComparison : ConditionKeyword → Bool
  | isAdmin | english | german | chance => true
  | _ => false

def ConsequenceKeyword.takesNoComparison : ConsequenceKeyword → Bool
  | gemCraft | introduce | repair | trade | arena | inform | treasure | rune | warp | deleteItem
  | item => true
  | _ => false

def Role.takesNoComparison : Role → Bool
  | condition keyword => keyword.takesNoComparison
  | consequence keyword => keyword.takesNoComparison

/-! ### What the parts of a clause hold -/

namespace Grammar.KeywordClause

variable {clause : KeywordClause}

theorem not_holdsComparison (h : clause.comparison = none)
    (harguments : ∀ argument ∈ clause.argumentList, argument.comparison? = none) :
    ¬ clause.HoldsComparison := by
  rintro (hcomparison | ⟨argument, hargument, hinner⟩)
  · simp [h] at hcomparison
  · simp [harguments argument hargument] at hinner

theorem alone_spares : Ends clause.alone (fun _ => ¬ clause.HoldsComparison) (fun _ => True) := by
  unfold alone
  split
  · exact True.intro
  · rename_i hnone
    obtain ⟨harguments, hcomparison⟩ : clause.arguments = none ∧ clause.comparison = none := by
      simpa using hnone
    exact not_holdsComparison hcomparison (by simp [argumentList, harguments])

theorem noComparison_spares (reason : String) :
    Ends (clause.noComparison reason) (fun _ => clause.comparison = none) (fun _ => True) := by
  unfold noComparison
  split
  · exact True.intro
  · rename_i hnone
    exact Option.not_isSome_iff_eq_none.mp hnone

theorem oneArgument_only (reason : String) :
    Ends (clause.oneArgument reason) (fun argument => clause.argumentList = [argument])
      (fun _ => True) := by
  unfold oneArgument
  split
  · rename_i argument hargument
    exact hargument
  · exact True.intro

variable {argument : Argument}

theorem comparison?_of_operand? {text : List Char} (h : argument.operand? = some text) :
    argument.comparison? = none := by
  cases argument with
  | operand source => rfl
  | quoted source | comparison subject found => cases h

theorem integer_spares (place : NumericPlace) :
    Ends (clause.integer place argument) (fun _ => argument.comparison? = none)
      (fun _ => True) := by
  unfold integer
  split
  · rename_i text htext
    exact .of_forall _ (fun _ => comparison?_of_operand? htext) fun _ => True.intro
  · exact True.intro

theorem natural_spares (place : NumericPlace) :
    Ends (clause.natural place argument) (fun _ => argument.comparison? = none)
      (fun _ => True) :=
  (integer_spares place).map fun _ hnone => hnone

theorem item_spares (context : Context) :
    Ends (clause.item context argument) (fun _ => argument.comparison? = none)
      (fun _ => True) := by
  unfold item
  split
  · rename_i text htext
    exact .of_forall _ (fun _ => comparison?_of_operand? htext) fun _ => True.intro
  · exact True.intro

theorem amount_spares :
    Ends (clause.amount argument) (fun _ => argument.comparison? = none) (fun _ => True) := by
  unfold amount
  split
  · rename_i text htext
    exact .of_forall _ (fun _ => comparison?_of_operand? htext) fun _ => True.intro
  · exact True.intro

end Grammar.KeywordClause

/-! ### What keywords that take no comparison make of a clause -/

variable {context : Context} {clause : KeywordClause}

theorem Condition.ofClause_spares {keyword : ConditionKeyword}
    (h : keyword.takesNoComparison = true) :
    Ends (ofClause context keyword clause) (fun _ => ¬ clause.HoldsComparison)
      (fun _ => True) := by
  cases keyword with
  | isAdmin | english | german => exact KeywordClause.alone_spares.map fun _ hnone => hnone
  | chance =>
      refine (KeywordClause.oneArgument_only _).bind fun argument honly => ?_
      refine (KeywordClause.noComparison_spares _).bind fun _ hnone => ?_
      refine (KeywordClause.natural_spares _).bind fun _ hplain => ?_
      exact KeywordClause.not_holdsComparison hnone (by simp [honly, hplain])
  | _ => cases h

/-- A task that is read where a comparison is held is the subject of the comparison. -/
theorem Consequence.arena_spares :
    Ends (ofClause context .arena clause)
      (fun found => clause.HoldsComparison → ∃ task, clause.ComparesTask task ∧ found = .arena task)
      (fun _ => True) := by
  refine (KeywordClause.noComparison_spares _).bind fun _ hnone => ?_
  refine (KeywordClause.oneArgument_only _).bind fun argument honly => ?_
  cases argument with
  | quoted source | operand source =>
      refine .of_forall _ (fun _ hholds => ?_) fun _ => True.intro
      have hfree := KeywordClause.not_holdsComparison hnone (by simp [honly, Argument.comparison?])
      exact absurd hholds hfree
  | comparison subject found =>
      simp only [Argument.member, Vocabulary.resolve, Argument.token]
      split
      · rename_i task htask
        exact fun _ => ⟨task, ⟨hnone, subject, found, honly, htask⟩, rfl⟩
      · exact True.intro

theorem Consequence.arena_of_comparesTask {task : ArenaTask} (h : clause.ComparesTask task) :
    ofClause context .arena clause = .ok (.arena task) := by
  obtain ⟨hnone, subject, found, honly, htask⟩ := h
  have hmember : (Argument.comparison subject found).member ArenaTask "arena task" = .ok task := by
    simp only [Argument.member, Argument.token, Vocabulary.resolve, htask]
  simp only [ofClause, KeywordClause.noComparison, hnone, KeywordClause.oneArgument, honly, bind,
    Except.bind, hmember]
  rfl

theorem Consequence.ofClause_spares {keyword : ConsequenceKeyword}
    (h : keyword.takesNoComparison = true) (harena : keyword ≠ .arena) :
    Ends (ofClause context keyword clause) (fun _ => ¬ clause.HoldsComparison)
      (fun _ => True) := by
  cases keyword with
  | gemCraft | introduce | repair | trade =>
      exact KeywordClause.alone_spares.map fun _ hnone => hnone
  | arena => exact absurd rfl harena
  | inform =>
      refine (KeywordClause.noComparison_spares _).bind fun _ hnone => ?_
      refine (KeywordClause.oneArgument_only _).bind fun argument honly => ?_
      cases argument with
      | quoted source =>
          exact KeywordClause.not_holdsComparison hnone (by simp [honly, Argument.comparison?])
      | operand source | comparison subject found => exact True.intro
  | treasure =>
      refine (KeywordClause.noComparison_spares _).bind fun _ hnone => ?_
      refine (KeywordClause.oneArgument_only _).bind fun argument honly => ?_
      refine (KeywordClause.natural_spares _).bind fun _ hplain => ?_
      exact KeywordClause.not_holdsComparison hnone (by simp [honly, hplain])
  | rune =>
      refine (KeywordClause.noComparison_spares _).bind fun _ hnone => ?_
      split
      · rename_i first second hlist
        refine (KeywordClause.natural_spares _).bind fun _ hfirst => ?_
        refine (KeywordClause.natural_spares _).bind fun _ hsecond => ?_
        exact KeywordClause.not_holdsComparison hnone (by simp [hlist, hfirst, hsecond])
      · exact True.intro
  | warp =>
      refine (KeywordClause.noComparison_spares _).bind fun _ hnone => ?_
      split
      · rename_i first second third hlist
        refine (KeywordClause.integer_spares _).bind fun _ hfirst => ?_
        refine (KeywordClause.integer_spares _).bind fun _ hsecond => ?_
        refine (KeywordClause.integer_spares _).bind fun _ hthird => ?_
        exact KeywordClause.not_holdsComparison hnone (by simp [hlist, hfirst, hsecond, hthird])
      · exact True.intro
  | deleteItem =>
      refine (KeywordClause.noComparison_spares _).bind fun _ hnone => ?_
      split
      · rename_i first second hlist
        refine (KeywordClause.item_spares context).bind fun _ hfirst => ?_
        refine KeywordClause.amount_spares.bind fun _ hsecond => ?_
        exact KeywordClause.not_holdsComparison hnone (by simp [hlist, hfirst, hsecond])
      · exact True.intro
  | item =>
      refine (KeywordClause.noComparison_spares _).bind fun _ hnone => ?_
      dsimp only
      split
      · rename_i first second hlist
        refine (KeywordClause.item_spares context).bind fun _ hfirst => ?_
        refine KeywordClause.amount_spares.bind fun _ hsecond => ?_
        exact KeywordClause.not_holdsComparison hnone (by simp [hlist, hfirst, hsecond])
      · rename_i first second third hlist
        refine (KeywordClause.item_spares context).bind fun _ hfirst => ?_
        refine KeywordClause.amount_spares.bind fun _ hsecond => ?_
        have hquality : Ends ((some third).mapM (clause.natural .itemQuality))
            (fun _ => third.comparison? = none) (fun _ => True) :=
          (KeywordClause.natural_spares _).map fun _ hthird => hthird
        refine hquality.bind fun _ hthird => ?_
        exact KeywordClause.not_holdsComparison hnone (by simp [hlist, hfirst, hsecond, hthird])
      · exact True.intro
  | _ => cases h

namespace Role

variable {role : Role}

/-- Where a role takes no comparison, a clause that holds one comes to an issue. -/
theorem read_eq_error (htakes : role.takesNoComparison = true) (hholds : clause.HoldsComparison)
    (htask : ∀ task, role = .consequence .arena → ¬ clause.ComparesTask task) :
    ∃ issue, role.read context clause = .error issue := by
  have hends : Ends (role.read context clause) (fun _ => False) (fun _ => True) := by
    cases role with
    | condition keyword =>
        exact (Condition.ofClause_spares htakes).map fun _ hnone => hnone hholds
    | consequence keyword =>
        by_cases harena : keyword = .arena
        · subst harena
          refine Consequence.arena_spares.map fun _ hfound => ?_
          obtain ⟨task, hcompares, -⟩ := hfound hholds
          exact htask task rfl hcompares
        · exact (Consequence.ofClause_spares htakes harena).map fun _ hnone => hnone hholds
  cases hread : role.read context clause with
  | ok found => exact (hends.value hread).elim
  | error issue => exact ⟨issue, rfl⟩

end Role

end NpcScript
