import NpcScript.Clause.Form
import NpcScript.Proofs.Writing.Assignment
import NpcScript.Proofs.Writing.Quantity

/-!
Writing clauses. A draft of a clause is its keyword with the arguments and the comparison that are
to stand behind it, where there are any; no comparison is ever written inside the parentheses. What
a keyword demands of a clause is found again in a clause that was written from a draft.
-/

namespace NpcScript.Grammar

open Text (FitsLine quote)

/-- What may be there is written behind a gap if it is there, and else not at all. -/
theorem Expresses.optional {α δ : Type} {item : List Char → Nat → α → Prop} {write : δ → List Char}
    {describes : δ → α → Prop} {gap : List Char} (hgap : IsGap gap) (hline : FitsLine gap)
    {piece : Option δ}
    (h : ∀ draft ∈ piece, Expresses item (write draft) (describes draft)) :
    Expresses (IsOptional item) (piece.elim [] fun draft => gap ++ write draft)
      (Option.Rel describes piece) := by
  cases piece with
  | none => exact ⟨Text.fitsLine_nil, fun offset => ⟨none, .none, .none⟩⟩
  | some draft =>
      have hdraft := h draft rfl
      refine ⟨hline.append hdraft.fitsLine, fun offset => ?_⟩
      obtain ⟨a, ha, hdescribes⟩ := hdraft.exists_item (offset + gap.length)
      exact ⟨some a, .some hgap ha, .some hdescribes⟩

/-! ### Arguments -/

inductive ArgumentDraft where
  | operand (spelling : List Char)
  | quoted (content : String)

namespace ArgumentDraft

def write : ArgumentDraft → List Char
  | operand spelling => spelling
  | quoted content => quote content.toList

def IsWritable : ArgumentDraft → Prop
  | operand spelling => Operand spelling ∧ FitsLine spelling
  | quoted _ => True

def Describes : ArgumentDraft → Argument → Prop
  | operand spelling, found => ∃ column, found = .operand ⟨column, spelling⟩
  | quoted content, found => ∃ column, found = .quoted ⟨column, quote content.toList⟩

theorem expresses {draft : ArgumentDraft} (h : draft.IsWritable) :
    Expresses Argument.IsWritten draft.write draft.Describes := by
  cases draft with
  | operand spelling =>
      exact ⟨h.2, fun offset => ⟨_, .operand h.1, offset + 1, rfl⟩⟩
  | quoted content =>
      refine ⟨Text.fitsLine_quote content.toList, fun offset => ?_⟩
      exact ⟨_, .quoted ⟨_, Text.denotes_quote content.toList⟩, offset + 1, rfl⟩

def number (value : Int) : ArgumentDraft :=
  operand (numeral value)

def amount (quantity : Quantity) : ArgumentDraft :=
  operand quantity.render.toList

def member {α : Type} [Vocabulary α] (a : α) : ArgumentDraft :=
  operand (Vocabulary.token a).toList

@[simp] theorem isWritable_number (value : Int) : (number value).IsWritable :=
  ⟨operand_numeral value, fitsLine_numeral value⟩

theorem isWritable_amount {quantity : Quantity} (h : quantity.IsWritable) :
    (amount quantity).IsWritable :=
  ⟨Quantity.operand_render h.isValid, Quantity.fitsLine_render h⟩

@[simp] theorem isWritable_member {α : Type} [Vocabulary α] [LegibleVocabulary α] (a : α) :
    (member a).IsWritable :=
  ⟨(Vocabulary.isWord_token a).operand, (Vocabulary.isWord_token a).fitsLine⟩

@[simp] theorem isWritable_quoted (content : String) : (quoted content).IsWritable := True.intro

section Reading

variable {found : Argument} (clause : KeywordClause)

theorem comparison?_eq_none {draft : ArgumentDraft} (h : draft.Describes found) :
    found.comparison? = none := by
  cases draft with
  | operand spelling | quoted content =>
      obtain ⟨column, rfl⟩ := h
      rfl

theorem findSome?_comparison?_eq_none {drafts : List ArgumentDraft} {arguments : List Argument}
    (h : List.Forall₂ Describes drafts arguments) :
    arguments.findSome? Argument.comparison? = none := by
  induction h with
  | nil => rfl
  | cons hargument harguments ih => rw [List.findSome?_cons, comparison?_eq_none hargument, ih]

theorem member_eq {α : Type} [Vocabulary α] [LegibleVocabulary α] {a : α}
    (h : (member a).Describes found) (field : String) : found.member α field = .ok a := by
  obtain ⟨column, rfl⟩ := h
  exact Vocabulary.resolve_token a field column

theorem integer_eq (place : NumericPlace) (hwide : place.IsWide) {value : Int}
    (hvalue : place.Admits value) (h : (number value).Describes found) :
    clause.integer place found = .ok value := by
  obtain ⟨column, rfl⟩ := h
  exact place.read_numeral hwide hvalue column

theorem natural_eq (place : NumericPlace) (hwide : place.IsWide) {min max : Nat}
    (hmin : place.min = min) (hmax : place.max = max) {n : Nat} (hn : min ≤ n ∧ n ≤ max)
    (h : (number n).Describes found) : clause.natural place found = .ok n := by
  rw [KeywordClause.natural,
    integer_eq clause place hwide (NumericPlace.admits_natCast hmin hmax hn) h]
  rfl

theorem item_eq {context : Context} {item : Item} (hitem : item.IsValid context)
    (h : (number item.id).Describes found) : clause.item context found = .ok item := by
  obtain ⟨column, rfl⟩ := h
  exact context.item_numeral hitem _ column

theorem amount_eq {quantity : Quantity} (hquantity : quantity.IsValid)
    (h : (amount quantity).Describes found) : clause.amount found = .ok quantity := by
  obtain ⟨column, rfl⟩ := h
  exact Quantity.read_render hquantity _ column

theorem skill_eq {context : Context} {name : String} (hname : Skill.IsValidName context name)
    (h : (quoted name).Describes found) : found.skill context = .ok name := by
  obtain ⟨column, rfl⟩ := h
  obtain ⟨skill, hskill, rfl⟩ := hname
  simp [Argument.skill, Argument.token, Text.unquote_quote, Context.skill, hskill]

end Reading

end ArgumentDraft

/-! ### Clauses -/

structure ClauseDraft (κ : Type) where
  keyword : κ
  arguments : Option (List ArgumentDraft) := none
  comparison : Option ComparisonDraft := none

namespace ClauseDraft

variable {κ : Type} [Vocabulary κ]

def writeArguments (arguments : List ArgumentDraft) : List Char :=
  '(' :: (commas (arguments.map ArgumentDraft.write) ++ [')'])

def write (draft : ClauseDraft κ) : List Char :=
  (Vocabulary.token draft.keyword).toList ++
    (draft.arguments.elim [] (fun arguments => [] ++ writeArguments arguments) ++
      draft.comparison.elim [] fun comparison => [' '] ++ comparison.write)

structure IsWritable (draft : ClauseDraft κ) : Prop where
  isKeyword : IsKeyword (Vocabulary.token draft.keyword).toList
  arguments : ∀ arguments ∈ draft.arguments, ∀ argument ∈ arguments, argument.IsWritable
  comparison : ∀ comparison ∈ draft.comparison, comparison.IsWritable

structure Describes (draft : ClauseDraft κ) (clause : KeywordClause) : Prop where
  keyword : clause.keyword.text = (Vocabulary.token draft.keyword).toList
  arguments : Option.Rel (List.Forall₂ ArgumentDraft.Describes) draft.arguments clause.arguments
  comparison : Option.Rel ComparisonDraft.Describes draft.comparison clause.comparison

theorem expresses {draft : ClauseDraft κ} (h : draft.IsWritable) :
    Expresses KeywordClause.IsWritten draft.write draft.Describes := by
  have harguments := Expresses.optional isGap_nil Text.fitsLine_nil fun arguments harguments =>
    Expresses.parenthesised fun argument hargument =>
      ArgumentDraft.expresses (h.arguments arguments harguments argument hargument)
  have hcomparison := Expresses.optional isGap_space (Text.fitsLine_of_forall (by simp))
    fun comparison hcomparison => ComparisonDraft.expresses (h.comparison comparison hcomparison)
  refine ⟨h.isKeyword.fitsLine.append (harguments.fitsLine.append hcomparison.fitsLine),
    fun offset => ?_⟩
  obtain ⟨arguments, hwritten, hdescribes⟩ := harguments.exists_item _
  obtain ⟨comparison, hwritten', hdescribes'⟩ := hcomparison.exists_item _
  exact ⟨_, .intro h.isKeyword hwritten hwritten', rfl, hdescribes, hdescribes'⟩

/-! ### What keywords demand -/

section Demands

variable {draft : ClauseDraft κ} {clause : KeywordClause} (h : draft.Describes clause)
include h

theorem forall₂_argumentList :
    List.Forall₂ ArgumentDraft.Describes (draft.arguments.getD []) clause.argumentList := by
  obtain ⟨keyword, drafts, comparison⟩ := draft
  obtain ⟨name, arguments, found⟩ := clause
  cases h.arguments with
  | none => exact .nil
  | some harguments => exact harguments

theorem innerComparison?_eq_none : clause.innerComparison? = none :=
  ArgumentDraft.findSome?_comparison?_eq_none (forall₂_argumentList h)

theorem isSome_arguments : clause.arguments.isSome = draft.arguments.isSome := by
  obtain ⟨keyword, drafts, comparison⟩ := draft
  obtain ⟨name, arguments, found⟩ := clause
  cases h.arguments with
  | none | some harguments => rfl

theorem isSome_comparison : clause.comparison.isSome = draft.comparison.isSome := by
  obtain ⟨keyword, drafts, comparison⟩ := draft
  obtain ⟨name, arguments, found⟩ := clause
  cases h.comparison with
  | none | some hcomparison => rfl

theorem exists_comparison {comparison : ComparisonDraft}
    (hcomparison : draft.comparison = some comparison) :
    ∃ found, clause.comparison = some found ∧ comparison.Describes found := by
  have hfound := h.comparison
  rw [hcomparison] at hfound
  generalize clause.comparison = other at hfound ⊢
  cases hfound with
  | some hdescribes => exact ⟨_, rfl, hdescribes⟩

theorem operation_eq {comparison : ComparisonDraft}
    (hcomparison : draft.comparison = some comparison) :
    ∃ found, comparison.Describes found ∧ clause.operation = .ok found := by
  obtain ⟨found, hfound, hdescribes⟩ := exists_comparison h hcomparison
  refine ⟨found, hdescribes, ?_⟩
  rw [KeywordClause.operation, hfound, innerComparison?_eq_none h]

theorem bareOperation_eq (harguments : draft.arguments = none) {comparison : ComparisonDraft}
    (hcomparison : draft.comparison = some comparison) :
    ∃ found, comparison.Describes found ∧ clause.bareOperation = .ok found := by
  obtain ⟨found, hdescribes, hoperation⟩ := operation_eq h hcomparison
  refine ⟨found, hdescribes, ?_⟩
  rw [KeywordClause.bareOperation, isSome_arguments h, harguments]
  exact hoperation

theorem alone_eq (harguments : draft.arguments = none) (hcomparison : draft.comparison = none) :
    clause.alone = .ok () := by
  rw [KeywordClause.alone, isSome_arguments h, isSome_comparison h, harguments, hcomparison]
  rfl

theorem noComparison_eq (hcomparison : draft.comparison = none) (reason : String) :
    clause.noComparison reason = .ok () := by
  rw [KeywordClause.noComparison, isSome_comparison h, hcomparison]
  rfl

theorem oneArgument_eq {argument : ArgumentDraft} (harguments : draft.arguments = some [argument]) :
    ∃ found, argument.Describes found ∧ ∀ reason, clause.oneArgument reason = .ok found := by
  have hlist := forall₂_argumentList h
  rw [harguments] at hlist
  simp only [KeywordClause.oneArgument]
  generalize clause.argumentList = arguments at hlist ⊢
  obtain _ | ⟨hfound, _ | _⟩ := hlist
  exact ⟨_, hfound, fun reason => rfl⟩

theorem argumentList_two {first second : ArgumentDraft}
    (harguments : draft.arguments = some [first, second]) :
    ∃ a b, clause.argumentList = [a, b] ∧ first.Describes a ∧ second.Describes b := by
  have hlist := forall₂_argumentList h
  rw [harguments] at hlist
  generalize clause.argumentList = arguments at hlist ⊢
  obtain _ | ⟨ha, _ | ⟨hb, _ | _⟩⟩ := hlist
  exact ⟨_, _, rfl, ha, hb⟩

theorem argumentList_three {first second third : ArgumentDraft}
    (harguments : draft.arguments = some [first, second, third]) :
    ∃ a b c, clause.argumentList = [a, b, c] ∧ first.Describes a ∧ second.Describes b ∧
      third.Describes c := by
  have hlist := forall₂_argumentList h
  rw [harguments] at hlist
  generalize clause.argumentList = arguments at hlist ⊢
  obtain _ | ⟨ha, _ | ⟨hb, _ | ⟨hc, _ | _⟩⟩⟩ := hlist
  exact ⟨_, _, _, rfl, ha, hb, hc⟩

/-- Whether a written clause can only be a condition shows in its operator. -/
theorem compares_eq {comparison : ComparisonDraft}
    (hcomparison : draft.comparison = some comparison) :
    clause.compares = isCompareOnly comparison.operator := by
  obtain ⟨found, hfound, hdescribes⟩ := exists_comparison h hcomparison
  rw [KeywordClause.compares, hfound, ← hdescribes.operator]
  rfl

theorem compares_eq_false (hcomparison : draft.comparison = none) : clause.compares = false := by
  have hnone : clause.comparison = none := by
    rw [← Option.not_isSome_iff_eq_none, isSome_comparison h, hcomparison]
    simp
  rw [KeywordClause.compares, hnone, innerComparison?_eq_none h]
  rfl

end Demands

end ClauseDraft

end NpcScript.Grammar
