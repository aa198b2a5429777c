import NpcScript.Clause.Form
import NpcScript.Proofs.Likeness.Word

/-!
Dialogue lines that are alike, as written, and what keywords demand of their clauses. Clauses that
are alike meet the same demands, and where they fail one it is the same one.
-/

namespace NpcScript

open Text

namespace Grammar

/-! ### Forms -/

structure Lexeme.Alike (L : Likeness) (source source' : Lexeme) : Prop where
  column : L.column source.column source'.column
  text : L.SameText source.text source'.text

structure Lexeme.AlikeLiteral (L : Likeness) (source source' : Lexeme) : Prop extends
    Lexeme.Alike L source source' where
  literal : L.literal source source'

structure Comparison.Alike (L : Likeness) (comparison comparison' : Comparison) : Prop where
  operator : comparison.operator.Alike L comparison'.operator
  operand : comparison.operand.Alike L comparison'.operand

inductive Argument.Alike (L : Likeness) : Argument → Argument → Prop
  | quoted {source source' : Lexeme} (hsource : source.AlikeLiteral L source') :
      Alike L (.quoted source) (.quoted source')
  | operand {source source' : Lexeme} (hsource : source.Alike L source') :
      Alike L (.operand source) (.operand source')
  | comparison {subject subject' : Lexeme} {found found' : Comparison}
      (hsubject : subject.Alike L subject') (hfound : found.Alike L found') :
      Alike L (.comparison subject found) (.comparison subject' found')

structure KeywordClause.Alike (L : Likeness) (clause clause' : KeywordClause) : Prop where
  keyword : clause.keyword.Alike L clause'.keyword
  arguments : Option.Rel (List.Forall₂ (Argument.Alike L)) clause.arguments clause'.arguments
  comparison : Option.Rel (Comparison.Alike L) clause.comparison clause'.comparison

inductive Clause.Alike (L : Likeness) : Clause → Clause → Prop
  | answer {source source' : Lexeme} (hsource : source.AlikeLiteral L source') :
      Alike L (.answer source) (.answer source')
  | keyword {clause clause' : KeywordClause} (hclause : clause.Alike L clause') :
      Alike L (.keyword clause) (.keyword clause')

structure DialogueForm.Alike (L : Likeness) (form form' : DialogueForm) : Prop where
  trigger : form.trigger.AlikeLiteral L form'.trigger
  before : List.Forall₂ (Clause.Alike L) form.before form'.before
  after : List.Forall₂ (Clause.Alike L) form.after form'.after

end Grammar

variable {L : Likeness}

/-! ### Operators -/

/-- A text without letters has one spelling. -/
theorem Likeness.SameText.eq_iff {s s' t : List Char} (h : L.SameText s s')
    (ht : ∀ c ∈ t, c.isAlpha = false) : s = t ↔ s' = t := by
  rw [← lower_eq_iff ht, h.lower_eq, lower_eq_iff ht]

/-- Spellings that are not words are compared as they are written. -/
theorem any_spelling_eq (spellings : List String)
    (hspellings : ∀ spelling ∈ spellings, hasNoLetter spelling.toList = true)
    {s s' : List Char} (h : L.SameText s s') :
    (spellings.any fun spelling => s == spelling.toList) =
      spellings.any fun spelling => s' == spelling.toList := by
  rw [Bool.eq_iff_iff, List.any_eq_true, List.any_eq_true]
  refine exists_congr fun spelling => and_congr_right fun hmem => ?_
  rw [beq_iff_eq, beq_iff_eq]
  exact h.eq_iff (hasNoLetter_iff.mp (hspellings spelling hmem))

theorem isCompareOnly_eq {s s' : List Char} (h : L.SameText s s') :
    isCompareOnly s = isCompareOnly s' :=
  any_spelling_eq _ (by decide) h.trim

namespace Grammar

namespace Comparison

variable {comparison comparison' : Comparison} (h : comparison.Alike L comparison')

include h

theorem compare_alike :
    Agree (fun found found' => found.1 = found'.1 ∧
        found.2.mapText L.fold = found'.2.mapText L.fold) (Issue.Alike L)
      comparison.compare comparison'.compare := by
  refine (Vocabulary.resolve_alike _ _ h.operator.column h.operator.text).bindEq fun op => ?_
  refine (Quantity.read_alike _ h.operand.column h.operand.text).bind fun _ _ hvalue => ?_
  exact .ok ⟨rfl, hvalue⟩

theorem calculate_alike {keyword keyword' : List Char} (hkeyword : L.SameText keyword keyword') :
    Agree (fun found found' => found.1 = found'.1 ∧
        found.2.mapText L.fold = found'.2.mapText L.fold) (Issue.Alike L)
      (comparison.calculate keyword) (comparison'.calculate keyword') := by
  unfold calculate
  dsimp only
  rw [Vocabulary.ofToken?_eq h.operator.text.lower_eq]
  split
  · refine .error (Issue.alike_atColumn h.operator.column ?_)
    simp only [Cause.mapText, hkeyword.map_ofList]
  · refine (Quantity.read_alike _ h.operand.column h.operand.text).bind fun _ _ hvalue => ?_
    exact .ok ⟨rfl, hvalue⟩

theorem equality?_eq : comparison.equality? = comparison'.equality? := by
  have hequal := any_spelling_eq ["=", "=="] (by decide) h.operator.text
  have hdiffers := any_spelling_eq ["!=", "~="] (by decide) h.operator.text
  simp only [equality?, hequal, hdiffers]

variable {keyword keyword' : List Char} (hkeyword : L.SameText keyword keyword')
  (α : Type) [Vocabulary α] (field : String)

include hkeyword

theorem equation_alike :
    Agree Eq (Issue.Alike L) (comparison.equation keyword α field)
      (comparison'.equation keyword' α field) := by
  unfold equation
  rw [equality?_eq h]
  split
  · exact Vocabulary.resolve_alike _ _ h.operand.column h.operand.text
  · refine .error (Issue.alike_atColumn h.operator.column ?_)
    simp only [Cause.mapText, hkeyword.map_ofList]

theorem equationOrDenial_alike :
    Agree Eq (Issue.Alike L) (comparison.equationOrDenial keyword α field)
      (comparison'.equationOrDenial keyword' α field) := by
  unfold equationOrDenial
  rw [equality?_eq h]
  split
  · exact (Vocabulary.resolve_alike _ _ h.operand.column h.operand.text).mapEq _
  · refine .error (Issue.alike_atColumn h.operator.column ?_)
    simp only [Cause.mapText, hkeyword.map_ofList]

end Comparison

/-! ### Arguments -/

namespace Argument

variable {argument argument' : Argument} (h : argument.Alike L argument')

include h

theorem column_alike : L.column argument.column argument'.column := by
  cases h with
  | quoted hsource => exact hsource.column
  | operand hsource => exact hsource.column
  | comparison hsubject hfound => exact hsubject.column

theorem comparison?_alike :
    Option.Rel (Comparison.Alike L) argument.comparison? argument'.comparison? := by
  cases h with
  | comparison hsubject hfound => exact .some hfound
  | quoted hsource => exact .none
  | operand hsource => exact .none

variable (hL : L.KeepsLiterals)

include hL

theorem token_alike : L.SameText argument.token argument'.token := by
  cases h with
  | quoted hsource =>
      simp only [token, hL _ _ hsource.literal]
      exact .refl _
  | operand hsource => exact hsource.text
  | comparison hsubject hfound => exact hsubject.text

theorem member_alike (α : Type) [Vocabulary α] (field : String) :
    Agree Eq (Issue.Alike L) (argument.member α field) (argument'.member α field) :=
  Vocabulary.resolve_alike α field (column_alike h) (token_alike h hL)

theorem skill_alike (context : Context) :
    Agree Eq (Issue.Alike L) (argument.skill context) (argument'.skill context) :=
  context.skill_alike (column_alike h) (token_alike h hL)

end Argument

/-! ### Clauses -/

theorem findSome?_alike {α α' β β' : Type} {related : α → α' → Prop} {found : β → β' → Prop}
    {f : α → Option β} {f' : α' → Option β'}
    (hf : ∀ a a', related a a' → Option.Rel found (f a) (f' a')) {as : List α} {as' : List α'}
    (h : List.Forall₂ related as as') : Option.Rel found (as.findSome? f) (as'.findSome? f') := by
  induction h with
  | nil => exact .none
  | cons ha hothers ih =>
      have hfirst := hf _ _ ha
      rw [List.findSome?_cons, List.findSome?_cons]
      generalize f _ = b at hfirst
      generalize f' _ = b' at hfirst
      cases hfirst with
      | none => exact ih
      | some hb => exact .some hb

namespace KeywordClause

variable {clause clause' : KeywordClause} (h : clause.Alike L clause')

include h

theorem invalid_alike (reason : String) :
    Issue.Alike L (clause.invalid reason) (clause'.invalid reason) := by
  refine Issue.alike_atColumn h.keyword.column ?_
  simp only [Cause.mapText, h.keyword.text.map_ofList]

theorem argumentList_alike :
    List.Forall₂ (Argument.Alike L) clause.argumentList clause'.argumentList := by
  obtain ⟨-, harguments, -⟩ := h
  unfold argumentList
  generalize clause.arguments = arguments at harguments
  generalize clause'.arguments = arguments' at harguments
  cases harguments with
  | none => exact .nil
  | some harguments => exact harguments

theorem innerComparison?_alike :
    Option.Rel (Comparison.Alike L) clause.innerComparison? clause'.innerComparison? :=
  findSome?_alike (fun _ _ hargument => Argument.comparison?_alike hargument)
    (argumentList_alike h)

theorem compares_eq : clause.compares = clause'.compares := by
  have hinner := innerComparison?_alike h
  obtain ⟨-, -, hcomparison⟩ := h
  unfold compares
  generalize clause.innerComparison? = inner at hinner
  generalize clause'.innerComparison? = inner' at hinner
  generalize clause.comparison = outer at hcomparison
  generalize clause'.comparison = outer' at hcomparison
  cases hcomparison with
  | some hfound => exact isCompareOnly_eq hfound.operator.text
  | none =>
      cases hinner with
      | some hfound => exact isCompareOnly_eq hfound.operator.text
      | none => rfl

theorem operation_alike :
    Agree (Comparison.Alike L) (Issue.Alike L) clause.operation clause'.operation := by
  have hinvalid := invalid_alike h
  have hinner := innerComparison?_alike h
  obtain ⟨-, -, hcomparison⟩ := h
  unfold operation
  generalize clause.innerComparison? = inner at hinner
  generalize clause'.innerComparison? = inner' at hinner
  generalize clause.comparison = outer at hcomparison
  generalize clause'.comparison = outer' at hcomparison
  cases hcomparison with
  | some hfound =>
      cases hinner with
      | some hother => exact .error (hinvalid _)
      | none => exact .ok hfound
  | none =>
      cases hinner with
      | some hfound => exact .ok hfound
      | none => exact .error (hinvalid _)

theorem isSome_arguments_eq : clause.arguments.isSome = clause'.arguments.isSome := by
  obtain ⟨-, harguments, -⟩ := h
  generalize clause.arguments = arguments at harguments
  generalize clause'.arguments = arguments' at harguments
  cases harguments <;> rfl

theorem isSome_comparison_eq : clause.comparison.isSome = clause'.comparison.isSome := by
  obtain ⟨-, -, hcomparison⟩ := h
  generalize clause.comparison = outer at hcomparison
  generalize clause'.comparison = outer' at hcomparison
  cases hcomparison <;> rfl

theorem alone_alike : Agree Eq (Issue.Alike L) clause.alone clause'.alone := by
  unfold alone
  rw [isSome_arguments_eq h, isSome_comparison_eq h]
  split
  · exact .error (invalid_alike h _)
  · exact .ok rfl

theorem bareOperation_alike :
    Agree (Comparison.Alike L) (Issue.Alike L) clause.bareOperation clause'.bareOperation := by
  unfold bareOperation
  rw [isSome_arguments_eq h]
  split
  · exact .error (invalid_alike h _)
  · exact operation_alike h

theorem oneArgument_alike (reason : String) :
    Agree (Argument.Alike L) (Issue.Alike L) (clause.oneArgument reason)
      (clause'.oneArgument reason) := by
  have hlist := argumentList_alike h
  unfold oneArgument
  generalize clause.argumentList = arguments at hlist
  generalize clause'.argumentList = arguments' at hlist
  cases hlist with
  | nil => exact .error (invalid_alike h _)
  | cons hargument hothers =>
      cases hothers with
      | nil => exact .ok hargument
      | cons hsecond hothers => exact .error (invalid_alike h _)

theorem noComparison_alike (reason : String) :
    Agree Eq (Issue.Alike L) (clause.noComparison reason) (clause'.noComparison reason) := by
  unfold noComparison
  rw [isSome_comparison_eq h]
  split
  · exact .error (invalid_alike h _)
  · exact .ok rfl

variable {argument argument' : Argument} (hargument : argument.Alike L argument')

include hargument

theorem integer_alike (place : NumericPlace) :
    Agree Eq (Issue.Alike L) (clause.integer place argument) (clause'.integer place argument') := by
  cases hargument with
  | operand hsource => exact place.read_alike hsource.column hsource.text
  | quoted hsource | comparison hsubject hfound => exact .error (invalid_alike h _)

theorem natural_alike (place : NumericPlace) :
    Agree Eq (Issue.Alike L) (clause.natural place argument) (clause'.natural place argument') :=
  (integer_alike h hargument place).mapEq _

theorem item_alike (context : Context) :
    Agree Eq (Issue.Alike L) (clause.item context argument) (clause'.item context argument') := by
  cases hargument with
  | operand hsource => exact context.item_alike hsource.text.trim hsource.column hsource.text
  | quoted hsource | comparison hsubject hfound => exact .error (invalid_alike h _)

theorem amount_alike :
    Agree (fun value value' => value.mapText L.fold = value'.mapText L.fold) (Issue.Alike L)
      (clause.amount argument) (clause'.amount argument') := by
  cases hargument with
  | operand hsource => exact Quantity.read_alike _ hsource.column hsource.text
  | quoted hsource | comparison hsubject hfound => exact .error (invalid_alike h _)

end KeywordClause

end Grammar

end NpcScript
