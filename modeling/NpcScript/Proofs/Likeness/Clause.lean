import NpcScript.Proofs.Clause.Role
import NpcScript.Proofs.Likeness.Form

/-!
What clauses that are alike come to. It is the same condition or consequence up to its expression,
or issues that are alike.
-/

namespace NpcScript

open Grammar (KeywordClause Argument Comparison Clause)

variable {L : Likeness} {clause clause' : KeywordClause}

/-! ### Conditions -/

namespace Condition

theorem compared_alike {make : CompareOperator → Quantity → Condition}
    (hmake : ∀ op value, (make op value).mapText L.fold = make op (value.mapText L.fold))
    {comparison comparison' : Comparison} (h : comparison.Alike L comparison') :
    Agree (fun found found' => found.mapText L.fold = found'.mapText L.fold) (Issue.Alike L)
      (do let (op, value) ← comparison.compare; return make op value)
      (do let (op, value) ← comparison'.compare; return make op value) := by
  refine (Comparison.compare_alike h).bind ?_
  rintro ⟨op, value⟩ ⟨op', value'⟩ ⟨rfl, hvalue⟩
  refine .ok ?_
  rw [hmake, hmake]
  exact congrArg (make op) hvalue

/-- A clause with an operator and a number, which a condition takes as they are. -/
theorem comparing_alike (make : CompareOperator → Quantity → Condition)
    (hmake : ∀ op value, (make op value).mapText L.fold = make op (value.mapText L.fold))
    (h : clause.Alike L clause') :
    Agree (fun found found' => found.mapText L.fold = found'.mapText L.fold) (Issue.Alike L)
      (do let (op, value) ← (← clause.operation).compare; return make op value)
      (do let (op, value) ← (← clause'.operation).compare; return make op value) :=
  (KeywordClause.operation_alike h).bind fun _ _ hcomparison => compared_alike hmake hcomparison

theorem scalar_alike {make : CompareOperator → Quantity → Condition}
    (hmake : ∀ op value, (make op value).mapText L.fold = make op (value.mapText L.fold))
    (h : clause.Alike L clause') :
    Agree (fun found found' => found.mapText L.fold = found'.mapText L.fold) (Issue.Alike L)
      (scalar make clause) (scalar make clause') :=
  (KeywordClause.bareOperation_alike h).bind fun _ _ hcomparison => compared_alike hmake hcomparison

theorem equation_alike {α : Type} [Vocabulary α] (field : String) (make : α → Condition)
    (h : clause.Alike L clause') :
    Agree (fun found found' => found.mapText L.fold = found'.mapText L.fold) (Issue.Alike L)
      (equation α field make clause) (equation α field make clause') := by
  refine (KeywordClause.bareOperation_alike h).bind fun _ _ hcomparison => ?_
  exact (Comparison.equation_alike hcomparison h.keyword.text α field).bindEq fun a => .ok rfl

theorem equationOrDenial_alike {α : Type} [Vocabulary α] (field : String)
    (make : α → Bool → Condition) (h : clause.Alike L clause') :
    Agree (fun found found' => found.mapText L.fold = found'.mapText L.fold) (Issue.Alike L)
      (equationOrDenial α field make clause) (equationOrDenial α field make clause') := by
  refine (KeywordClause.bareOperation_alike h).bind fun _ _ hcomparison => ?_
  exact (Comparison.equationOrDenial_alike hcomparison h.keyword.text α field).bindEq
    fun found => .ok rfl

theorem ofClause_alike (context : Context) (keyword : ConditionKeyword) (hL : L.KeepsLiterals)
    (h : clause.Alike L clause') :
    Agree (fun found found' => found.mapText L.fold = found'.mapText L.fold) (Issue.Alike L)
      (ofClause context keyword clause) (ofClause context keyword clause') := by
  cases keyword with
  | isAdmin | english | german => exact (KeywordClause.alone_alike h).map fun _ _ _ => rfl
  | chance =>
      refine (KeywordClause.oneArgument_alike h _).bind fun _ _ hargument => ?_
      refine (KeywordClause.noComparison_alike h _).bind fun _ _ _ => ?_
      exact (KeywordClause.natural_alike h hargument _).bindEq fun percent => .ok rfl
  | attrib =>
      refine (KeywordClause.oneArgument_alike h _).bind fun _ _ hargument => ?_
      refine (Argument.member_alike hargument hL _ _).bindEq fun stat => ?_
      exact comparing_alike (attrib stat) (fun _ _ => rfl) h
  | item =>
      have hlist := KeywordClause.argumentList_alike h
      simp only [ofClause]
      generalize clause.argumentList = arguments at hlist
      generalize clause'.argumentList = arguments' at hlist
      rcases hlist with _ | ⟨hfirst, _ | ⟨hsecond, _ | ⟨hthird, hothers⟩⟩⟩
      · exact .error (KeywordClause.invalid_alike h _)
      · refine (KeywordClause.item_alike h hfirst context).bindEq fun found => ?_
        exact comparing_alike (item found .all) (fun _ _ => rfl) h
      · refine (KeywordClause.item_alike h hfirst context).bindEq fun found => ?_
        refine (Argument.member_alike hsecond hL _ _).bindEq fun location => ?_
        exact comparing_alike (item found location) (fun _ _ => rfl) h
      · exact .error (KeywordClause.invalid_alike h _)
  | questStatus =>
      refine (KeywordClause.oneArgument_alike h _).bind fun _ _ hargument => ?_
      refine (KeywordClause.natural_alike h hargument _).bindEq fun quest => ?_
      exact comparing_alike (questStatus quest) (fun _ _ => rfl) h
  | skill =>
      refine (KeywordClause.oneArgument_alike h _).bind fun _ _ hargument => ?_
      refine (Argument.skill_alike hargument hL context).bindEq fun found => ?_
      exact comparing_alike (skill found) (fun _ _ => rfl) h
  | money | number | rank | state => exact scalar_alike (fun _ _ => rfl) h
  | magicType | talkMode | talkState | language => exact equation_alike _ _ h
  | race | sex | town => exact equationOrDenial_alike _ _ h

end Condition

/-! ### Consequences -/

namespace Consequence

theorem calculated_alike {make : CalculationOperator → Quantity → Consequence}
    (hmake : ∀ op value, (make op value).mapText L.fold = make op (value.mapText L.fold))
    {comparison comparison' : Comparison} (h : comparison.Alike L comparison')
    {keyword keyword' : List Char} (hkeyword : L.SameText keyword keyword') :
    Agree (fun found found' => found.mapText L.fold = found'.mapText L.fold) (Issue.Alike L)
      (do let (op, value) ← comparison.calculate keyword; return make op value)
      (do let (op, value) ← comparison'.calculate keyword'; return make op value) := by
  refine (Comparison.calculate_alike h hkeyword).bind ?_
  rintro ⟨op, value⟩ ⟨op', value'⟩ ⟨rfl, hvalue⟩
  refine .ok ?_
  rw [hmake, hmake]
  exact congrArg (make op) hvalue

/-- A clause with an operator and a number, which a consequence takes as they are. -/
theorem calculating_alike (make : CalculationOperator → Quantity → Consequence)
    (hmake : ∀ op value, (make op value).mapText L.fold = make op (value.mapText L.fold))
    (h : clause.Alike L clause') :
    Agree (fun found found' => found.mapText L.fold = found'.mapText L.fold) (Issue.Alike L)
      (do
        let (op, value) ← (← clause.operation).calculate clause.keyword.text
        return make op value)
      (do
        let (op, value) ← (← clause'.operation).calculate clause'.keyword.text
        return make op value) :=
  (KeywordClause.operation_alike h).bind fun _ _ hcomparison =>
    calculated_alike hmake hcomparison h.keyword.text

theorem scalar_alike {make : CalculationOperator → Quantity → Consequence}
    (hmake : ∀ op value, (make op value).mapText L.fold = make op (value.mapText L.fold))
    (h : clause.Alike L clause') :
    Agree (fun found found' => found.mapText L.fold = found'.mapText L.fold) (Issue.Alike L)
      (scalar make clause) (scalar make clause') :=
  (KeywordClause.bareOperation_alike h).bind fun _ _ hcomparison =>
    calculated_alike hmake hcomparison h.keyword.text

theorem equation_alike {α : Type} [Vocabulary α] (field : String) (make : α → Consequence)
    (h : clause.Alike L clause') :
    Agree (fun found found' => found.mapText L.fold = found'.mapText L.fold) (Issue.Alike L)
      (equation α field make clause) (equation α field make clause') := by
  refine (KeywordClause.bareOperation_alike h).bind fun _ _ hcomparison => ?_
  exact (Comparison.equation_alike hcomparison h.keyword.text α field).bindEq fun a => .ok rfl

/-- Reads an item and an amount, and hands out the item with the quality that is then read. -/
theorem handingOut_alike (context : Context) (h : clause.Alike L clause')
    {first first' second second' : Argument} (hfirst : first.Alike L first')
    (hsecond : second.Alike L second') {third third' : Option Argument}
    (hthird : Option.Rel (Argument.Alike L) third third') :
    Agree (fun found found' => found.mapText L.fold = found'.mapText L.fold) (Issue.Alike L)
      (do
        let found ← clause.item context first
        let amount ← clause.amount second
        let quality ← third.mapM (clause.natural .itemQuality)
        return item found amount quality)
      (do
        let found ← clause'.item context first'
        let amount ← clause'.amount second'
        let quality ← third'.mapM (clause'.natural .itemQuality)
        return item found amount quality) := by
  refine (KeywordClause.item_alike h hfirst context).bindEq fun found => ?_
  refine (KeywordClause.amount_alike h hsecond).bind fun amount amount' hamount => ?_
  refine (Agree.mapM_option hthird fun _ _ hargument =>
    KeywordClause.natural_alike h hargument .itemQuality).bind fun quality quality' hquality => ?_
  obtain rfl : quality = quality' := by
    cases hquality with
    | none => rfl
    | some hvalue => rw [hvalue]
  exact .ok (congrArg (item found · quality) hamount)

/-! Some keywords take several arguments. A list of any other length is invalid on both sides. -/

theorem rune_alike (context : Context) (h : clause.Alike L clause') :
    Agree (fun found found' => found.mapText L.fold = found'.mapText L.fold) (Issue.Alike L)
      (ofClause context .rune clause) (ofClause context .rune clause') := by
  refine (KeywordClause.noComparison_alike h _).bind fun _ _ _ => ?_
  have hlist := KeywordClause.argumentList_alike h
  generalize clause.argumentList = arguments at hlist
  generalize clause'.argumentList = arguments' at hlist
  rcases hlist with _ | ⟨hfirst, _ | ⟨hsecond, _ | ⟨hthird, hothers⟩⟩⟩
  · exact .error (KeywordClause.invalid_alike h _)
  · exact .error (KeywordClause.invalid_alike h _)
  · refine (KeywordClause.natural_alike h hfirst _).bindEq fun runeClass => ?_
    exact (KeywordClause.natural_alike h hsecond _).bindEq fun number => .ok rfl
  · exact .error (KeywordClause.invalid_alike h _)

theorem warp_alike (context : Context) (h : clause.Alike L clause') :
    Agree (fun found found' => found.mapText L.fold = found'.mapText L.fold) (Issue.Alike L)
      (ofClause context .warp clause) (ofClause context .warp clause') := by
  refine (KeywordClause.noComparison_alike h _).bind fun _ _ _ => ?_
  have hlist := KeywordClause.argumentList_alike h
  generalize clause.argumentList = arguments at hlist
  generalize clause'.argumentList = arguments' at hlist
  rcases hlist with _ | ⟨hfirst, _ | ⟨hsecond, _ | ⟨hthird, _ | ⟨hfourth, hothers⟩⟩⟩⟩
  · exact .error (KeywordClause.invalid_alike h _)
  · exact .error (KeywordClause.invalid_alike h _)
  · exact .error (KeywordClause.invalid_alike h _)
  · refine (KeywordClause.integer_alike h hfirst _).bindEq fun x => ?_
    refine (KeywordClause.integer_alike h hsecond _).bindEq fun y => ?_
    exact (KeywordClause.integer_alike h hthird _).bindEq fun z => .ok rfl
  · exact .error (KeywordClause.invalid_alike h _)

theorem deleteItem_alike (context : Context) (h : clause.Alike L clause') :
    Agree (fun found found' => found.mapText L.fold = found'.mapText L.fold) (Issue.Alike L)
      (ofClause context .deleteItem clause) (ofClause context .deleteItem clause') := by
  refine (KeywordClause.noComparison_alike h _).bind fun _ _ _ => ?_
  have hlist := KeywordClause.argumentList_alike h
  generalize clause.argumentList = arguments at hlist
  generalize clause'.argumentList = arguments' at hlist
  rcases hlist with _ | ⟨hfirst, _ | ⟨hsecond, _ | ⟨hthird, hothers⟩⟩⟩
  · exact .error (KeywordClause.invalid_alike h _)
  · exact .error (KeywordClause.invalid_alike h _)
  · refine (KeywordClause.item_alike h hfirst context).bindEq fun found => ?_
    refine (KeywordClause.amount_alike h hsecond).bind fun amount amount' hamount => ?_
    exact .ok (congrArg (deleteItem found) hamount)
  · exact .error (KeywordClause.invalid_alike h _)

theorem item_alike (context : Context) (h : clause.Alike L clause') :
    Agree (fun found found' => found.mapText L.fold = found'.mapText L.fold) (Issue.Alike L)
      (ofClause context .item clause) (ofClause context .item clause') := by
  refine (KeywordClause.noComparison_alike h _).bind fun _ _ _ => ?_
  dsimp only
  have hlist := KeywordClause.argumentList_alike h
  generalize clause.argumentList = arguments at hlist
  generalize clause'.argumentList = arguments' at hlist
  rcases hlist with _ | ⟨hfirst, _ | ⟨hsecond, _ | ⟨hthird, _ | ⟨hfourth, hothers⟩⟩⟩⟩
  · exact .error (KeywordClause.invalid_alike h _)
  · exact .error (KeywordClause.invalid_alike h _)
  · exact handingOut_alike context h hfirst hsecond .none
  · exact handingOut_alike context h hfirst hsecond (.some hthird)
  · exact .error (KeywordClause.invalid_alike h _)

theorem ofClause_alike (context : Context) (keyword : ConsequenceKeyword) (hL : L.KeepsLiterals)
    (h : clause.Alike L clause') :
    Agree (fun found found' => found.mapText L.fold = found'.mapText L.fold) (Issue.Alike L)
      (ofClause context keyword clause) (ofClause context keyword clause') := by
  cases keyword with
  | gemCraft | introduce | repair | trade =>
      exact (KeywordClause.alone_alike h).map fun _ _ _ => rfl
  | arena =>
      refine (KeywordClause.noComparison_alike h _).bind fun _ _ _ => ?_
      refine (KeywordClause.oneArgument_alike h _).bind fun _ _ hargument => ?_
      exact (Argument.member_alike hargument hL _ _).bindEq fun task => .ok rfl
  | inform =>
      refine (KeywordClause.noComparison_alike h _).bind fun _ _ _ => ?_
      refine (KeywordClause.oneArgument_alike h _).bind fun _ _ hargument => ?_
      cases hargument with
      | quoted hsource =>
          dsimp only
          rw [hL _ _ hsource.literal]
          exact .ok rfl
      | operand hsource | comparison hsubject hfound =>
          exact .error (KeywordClause.invalid_alike h _)
  | treasure =>
      refine (KeywordClause.noComparison_alike h _).bind fun _ _ _ => ?_
      refine (KeywordClause.oneArgument_alike h _).bind fun _ _ hargument => ?_
      exact (KeywordClause.natural_alike h hargument _).bindEq fun level => .ok rfl
  | rune => exact rune_alike context h
  | warp => exact warp_alike context h
  | deleteItem => exact deleteItem_alike context h
  | item => exact item_alike context h
  | attrib =>
      refine (KeywordClause.oneArgument_alike h _).bind fun _ _ hargument => ?_
      refine (Argument.member_alike hargument hL _ _).bindEq fun stat => ?_
      exact calculating_alike (attrib stat) (fun _ _ => rfl) h
  | skill =>
      refine (KeywordClause.oneArgument_alike h _).bind fun _ _ hargument => ?_
      refine (Argument.skill_alike hargument hL context).bindEq fun found => ?_
      exact calculating_alike (skill found) (fun _ _ => rfl) h
  | questStatus =>
      refine (KeywordClause.oneArgument_alike h _).bind fun _ _ hargument => ?_
      refine (KeywordClause.natural_alike h hargument _).bindEq fun quest => ?_
      exact calculating_alike (questStatus quest) (fun _ _ => rfl) h
  | money | rankPoints | state => exact scalar_alike (fun _ _ => rfl) h
  | town | talkState => exact equation_alike _ _ h

end Consequence

/-! ### Clauses on either side of the arrow -/

namespace Meaning

theorem unknownKeyword_alike (h : clause.Alike L clause') :
    Issue.Alike L (unknownKeyword clause) (unknownKeyword clause') := by
  refine Issue.alike_atColumn h.keyword.column ?_
  simp only [Cause.mapText, h.keyword.text.map_ofList]

variable {L : Likeness} {clause clause' : Clause}

theorem before_alike (context : Context) (hL : L.KeepsLiterals) (h : clause.Alike L clause') :
    Agree (fun found found' => found.mapText L.fold = found'.mapText L.fold) (Issue.Alike L)
      (before context clause) (before context clause') := by
  cases h with
  | answer hsource => exact .error (Issue.alike_atColumn hsource.column rfl)
  | keyword hclause =>
      have hkeyword := hclause.keyword.text.lower_eq
      simp only [before]
      rw [Vocabulary.ofWord?_eq (α := ConditionKeyword) hkeyword,
        Vocabulary.ofWord?_eq (α := ConsequenceKeyword) hkeyword]
      split
      · exact (Condition.ofClause_alike context _ hL hclause).map
          fun _ _ hfound => congrArg condition hfound
      · split
        · exact .error (Grammar.KeywordClause.invalid_alike hclause _)
        · exact .error (unknownKeyword_alike hclause)

theorem after_alike (context : Context) (hL : L.KeepsLiterals) (h : clause.Alike L clause') :
    Agree (fun found found' => found.mapText L.fold = found'.mapText L.fold) (Issue.Alike L)
      (after context clause) (after context clause') := by
  cases h with
  | answer hsource =>
      simp only [after, hL _ _ hsource.literal]
      exact .ok rfl
  | keyword hclause =>
      have hkeyword := hclause.keyword.text.lower_eq
      simp only [after]
      rw [Vocabulary.ofWord?_eq (α := ConditionKeyword) hkeyword,
        Vocabulary.ofWord?_eq (α := ConsequenceKeyword) hkeyword,
        Grammar.KeywordClause.compares_eq hclause]
      split
      · split
        · exact (Condition.ofClause_alike context _ hL hclause).map
            fun _ _ hfound => congrArg condition hfound
        · exact (Consequence.ofClause_alike context _ hL hclause).map
            fun _ _ hfound => congrArg consequence hfound
      · exact (Condition.ofClause_alike context _ hL hclause).map
          fun _ _ hfound => congrArg condition hfound
      · exact (Consequence.ofClause_alike context _ hL hclause).map
          fun _ _ hfound => congrArg consequence hfound
      · exact .error (unknownKeyword_alike hclause)

theorem on_alike (side : Side) (context : Context) (hL : L.KeepsLiterals)
    (h : clause.Alike L clause') :
    Agree (fun found found' => found.mapText L.fold = found'.mapText L.fold) (Issue.Alike L)
      (on side context clause) (on side context clause') := by
  cases side with
  | before => exact before_alike context hL h
  | after => exact after_alike context hL h

end Meaning

end NpcScript
