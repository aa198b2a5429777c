import NpcScript.Proofs.Likeness.Clause
import NpcScript.Proofs.Likeness.Shift
import NpcScript.Proofs.Script.Clauses

/-!
The two sides of the arrow. A clause that can only be a condition comes to the same on either side.
The keywords that both sides know are told apart by their operator: one that can only compare makes
a condition behind the arrow too, and every other one a consequence.
-/

namespace NpcScript

open Grammar
open Text (IsLiteral)

/-! ### Sides of a clause -/

namespace Grammar.KeywordClause

def IsShared (clause : KeywordClause) : Prop :=
  (Vocabulary.ofWord? ConditionKeyword clause.keyword.text).isSome ∧
    (Vocabulary.ofWord? ConsequenceKeyword clause.keyword.text).isSome

/-- The clause is a condition on either side: by its keyword, or by its operator if the keyword does
not tell. -/
def IsCondition (clause : KeywordClause) : Prop :=
  (Vocabulary.ofWord? ConditionKeyword clause.keyword.text).isSome ∧
    (Vocabulary.ofWord? ConsequenceKeyword clause.keyword.text = none ∨ clause.compares = true)

/-- There is one operator in the clause, behind it or inside its parentheses. -/
def HasOperator (clause : KeywordClause) (comparison : Comparison) : Prop :=
  clause.argumentList.filterMap Argument.comparison? ++ clause.comparison.toList = [comparison]

/-- The arguments are such as the keyword takes on both sides of the arrow. Only keywords with an
operator and a number behind them have such arguments. -/
def HasArguments (context : Context) (clause : KeywordClause) : ConditionKeyword → Prop
  | .attrib => ∃ argument, clause.argumentList = [argument] ∧
      (Vocabulary.ofToken? CharacterAttribute argument.token).isSome
  | .skill => ∃ argument, clause.argumentList = [argument] ∧
      (context.skills.find? argument.token).isSome
  | .questStatus => ∃ argument quest, clause.argumentList = [argument] ∧
      clause.natural .questId argument = .ok quest
  | .money | .state => clause.arguments = none
  | _ => False

end Grammar.KeywordClause

namespace Meaning

variable {context : Context} {clause : KeywordClause}

theorem before_eq_after (h : clause.IsCondition) :
    before context (.keyword clause) = after context (.keyword clause) := by
  obtain ⟨hkeyword, hside⟩ := h
  obtain ⟨keyword, hkeyword⟩ := Option.isSome_iff_exists.mp hkeyword
  simp only [before, after, hkeyword]
  rcases hside with hnone | hcompares
  · simp [hnone]
  · cases Vocabulary.ofWord? ConsequenceKeyword clause.keyword.text <;> simp [hcompares]

/-- Without an operator that can only compare, a shared keyword makes no condition. -/
theorem after_ne_condition (h : clause.IsShared)
    (hoperator : ∀ comparison, clause.comparison.or clause.innerComparison? = some comparison →
      comparison.operator.text ∈ ["=".toList, "+=".toList, "-=".toList])
    (condition : Condition) : after context (.keyword clause) ≠ .ok (.condition condition) := by
  have hcompares : clause.compares = false := by
    unfold KeywordClause.compares
    split
    · rename_i comparison hcomparison
      have hmem := hoperator comparison hcomparison
      simp only [List.mem_cons, List.not_mem_nil, or_false] at hmem
      rcases hmem with htext | htext | htext <;> rw [htext] <;> decide
    · rfl
  obtain ⟨hkeyword, hother⟩ := h
  obtain ⟨keyword, hkeyword⟩ := Option.isSome_iff_exists.mp hkeyword
  obtain ⟨otherKeyword, hother⟩ := Option.isSome_iff_exists.mp hother
  simp only [after, hkeyword, hother, hcompares]
  cases Consequence.ofClause context otherKeyword clause <;> rintro ⟨⟩

theorem before_consequence
    (hkeyword : Vocabulary.ofWord? ConditionKeyword clause.keyword.text = none)
    (hother : (Vocabulary.ofWord? ConsequenceKeyword clause.keyword.text).isSome) :
    before context (.keyword clause) =
      .error (clause.invalid "is a consequence and belongs after `->`") := by
  simp [before, hkeyword, hother]

end Meaning

/-! ### Operators -/

namespace Grammar.Comparison

variable {comparison : Comparison} (hoperator : IsOperator comparison.operator.text)
  (hoperand : (Quantity.ofOperand? comparison.operand.text).isSome)

include hoperator hoperand

theorem exists_compare (h : isCompareOnly comparison.operator.text = true) :
    ∃ found, comparison.compare = .ok found := by
  obtain ⟨operator, hmem, htext⟩ := hoperator
  have hall : ∀ operator ∈ operators, isCompareOnly operator.toList = true →
      (Vocabulary.ofToken? CompareOperator operator.toList).isSome := by decide
  rw [htext] at h
  obtain ⟨op, hop⟩ := Option.isSome_iff_exists.mp (hall operator hmem h)
  obtain ⟨value, hvalue⟩ := Option.isSome_iff_exists.mp hoperand
  refine ⟨(op, value), ?_⟩
  simp only [compare, Vocabulary.resolve, htext, hop, Quantity.read, hvalue]
  rfl

theorem exists_calculate (h : isCompareOnly comparison.operator.text = false)
    (keyword : List Char) : ∃ found, comparison.calculate keyword = .ok found := by
  obtain ⟨operator, hmem, htext⟩ := hoperator
  have hall : ∀ operator ∈ operators, isCompareOnly operator.toList = false →
      (Vocabulary.ofToken? CalculationOperator operator.toList).isSome := by decide
  rw [htext] at h
  obtain ⟨op, hop⟩ := Option.isSome_iff_exists.mp (hall operator hmem h)
  obtain ⟨value, hvalue⟩ := Option.isSome_iff_exists.mp hoperand
  refine ⟨(op, value), ?_⟩
  simp only [calculate, htext, hop, Quantity.read, hvalue]
  rfl

end Grammar.Comparison

namespace Grammar.KeywordClause

variable {clause : KeywordClause} {comparison : Comparison}

theorem innerComparison?_eq_head? (clause : KeywordClause) :
    clause.innerComparison? = (clause.argumentList.filterMap Argument.comparison?).head? := by
  unfold innerComparison?
  rw [List.head?_filterMap]

/-- The one operator is found, by the test for conditions and by the reader alike. -/
theorem HasOperator.operation_eq (h : clause.HasOperator comparison) :
    clause.operation = .ok comparison ∧
      clause.compares = isCompareOnly comparison.operator.text := by
  unfold HasOperator at h
  unfold operation compares
  rw [innerComparison?_eq_head?]
  generalize clause.argumentList.filterMap Argument.comparison? = inner at h
  cases hcomparison : clause.comparison with
  | none =>
      obtain rfl : inner = [comparison] := by simpa [hcomparison] using h
      exact ⟨rfl, rfl⟩
  | some found =>
      rw [hcomparison] at h
      obtain ⟨rfl, hfound⟩ | ⟨rfl, hfound⟩ := List.append_eq_singleton_iff.mp h
      · obtain rfl : found = comparison := by simpa using hfound
        exact ⟨rfl, rfl⟩
      · cases hfound

theorem oneArgument_eq {argument : Argument} (h : clause.argumentList = [argument])
    (reason : String) : clause.oneArgument reason = .ok argument := by
  simp [oneArgument, h]

theorem bareOperation_eq (h : clause.arguments = none) :
    clause.bareOperation = clause.operation := by
  simp [bareOperation, h]

end Grammar.KeywordClause

/-! ### Shared keywords with an operator and a number -/

theorem ConditionKeyword.lower_eq {keyword : ConditionKeyword} {s : List Char}
    (h : Vocabulary.ofWord? ConditionKeyword s = some keyword) :
    Text.lower s = Text.lower (Vocabulary.token keyword).toList := by
  have haliases : (Vocabulary.word keyword).aliases = [] := by cases keyword <;> rfl
  have hwritten := List.find?_some h
  simpa [Vocabulary.isWrittenAs, haliases, Text.sameLetters_iff] using hwritten

section Operations

variable {context : Context} {clause : KeywordClause} {comparison : Comparison}
  (h : clause.HasOperator comparison) (hoperator : IsOperator comparison.operator.text)
  (hoperand : (Quantity.ofOperand? comparison.operand.text).isSome)

include h hoperator hoperand

theorem Condition.exists_ofClause {keyword : ConditionKeyword}
    (harguments : clause.HasArguments context keyword)
    (hcompares : isCompareOnly comparison.operator.text = true) :
    ∃ condition, ofClause context keyword clause = .ok condition := by
  obtain ⟨⟨op, value⟩, hcompare⟩ := Comparison.exists_compare hoperator hoperand hcompares
  have hoperation := h.operation_eq.1
  cases keyword with
  | attrib =>
      obtain ⟨argument, hlist, hstat⟩ := harguments
      obtain ⟨stat, hstat⟩ := Option.isSome_iff_exists.mp hstat
      refine ⟨attrib stat op value, ?_⟩
      simp only [ofClause, KeywordClause.oneArgument_eq hlist, Argument.member, Vocabulary.resolve,
        bind, Except.bind, hstat, hoperation, hcompare]
      rfl
  | skill =>
      obtain ⟨argument, hlist, hskill⟩ := harguments
      obtain ⟨found, hskill⟩ := Option.isSome_iff_exists.mp hskill
      refine ⟨skill found.name op value, ?_⟩
      simp only [ofClause, KeywordClause.oneArgument_eq hlist, Argument.skill, Context.skill,
        bind, Except.bind, hskill, hoperation, hcompare]
      rfl
  | questStatus =>
      obtain ⟨argument, quest, hlist, hquest⟩ := harguments
      refine ⟨questStatus quest op value, ?_⟩
      simp only [ofClause, KeywordClause.oneArgument_eq hlist, bind, Except.bind, hquest,
        hoperation, hcompare]
      rfl
  | money =>
      refine ⟨money op value, ?_⟩
      simp only [ofClause, scalar, KeywordClause.bareOperation_eq harguments, bind, Except.bind,
        hoperation, hcompare]
      rfl
  | state =>
      refine ⟨state op value, ?_⟩
      simp only [ofClause, scalar, KeywordClause.bareOperation_eq harguments, bind, Except.bind,
        hoperation, hcompare]
      rfl
  | _ => exact harguments.elim

theorem Consequence.exists_ofClause {keyword : ConditionKeyword}
    (harguments : clause.HasArguments context keyword)
    (hcompares : isCompareOnly comparison.operator.text = false) :
    ∃ otherKeyword consequence,
      Vocabulary.ofWord? ConsequenceKeyword (Vocabulary.token keyword).toList = some otherKeyword ∧
        ofClause context otherKeyword clause = .ok consequence := by
  obtain ⟨⟨op, value⟩, hcalculate⟩ :=
    Comparison.exists_calculate hoperator hoperand hcompares clause.keyword.text
  have hoperation := h.operation_eq.1
  cases keyword with
  | attrib =>
      obtain ⟨argument, hlist, hstat⟩ := harguments
      obtain ⟨stat, hstat⟩ := Option.isSome_iff_exists.mp hstat
      refine ⟨.attrib, attrib stat op value, by decide, ?_⟩
      simp only [ofClause, KeywordClause.oneArgument_eq hlist, Argument.member, Vocabulary.resolve,
        bind, Except.bind, hstat, hoperation, hcalculate]
      rfl
  | skill =>
      obtain ⟨argument, hlist, hskill⟩ := harguments
      obtain ⟨found, hskill⟩ := Option.isSome_iff_exists.mp hskill
      refine ⟨.skill, skill found.name op value, by decide, ?_⟩
      simp only [ofClause, KeywordClause.oneArgument_eq hlist, Argument.skill, Context.skill,
        bind, Except.bind, hskill, hoperation, hcalculate]
      rfl
  | questStatus =>
      obtain ⟨argument, quest, hlist, hquest⟩ := harguments
      refine ⟨.questStatus, questStatus quest op value, by decide, ?_⟩
      simp only [ofClause, KeywordClause.oneArgument_eq hlist, bind, Except.bind, hquest,
        hoperation, hcalculate]
      rfl
  | money =>
      refine ⟨.money, money op value, by decide, ?_⟩
      simp only [ofClause, scalar, KeywordClause.bareOperation_eq harguments, bind, Except.bind,
        hoperation, hcalculate]
      rfl
  | state =>
      refine ⟨.state, state op value, by decide, ?_⟩
      simp only [ofClause, scalar, KeywordClause.bareOperation_eq harguments, bind, Except.bind,
        hoperation, hcalculate]
      rfl
  | _ => exact harguments.elim

/-- A keyword that takes an operator and a number on both sides of the arrow takes every operator
behind it, since each of them either compares or calculates. -/
theorem Meaning.exists_after {keyword : ConditionKeyword}
    (hkeyword : Vocabulary.ofWord? ConditionKeyword clause.keyword.text = some keyword)
    (harguments : clause.HasArguments context keyword) :
    ∃ meaning, after context (.keyword clause) = .ok meaning := by
  have hother :=
    Vocabulary.ofWord?_eq (α := ConsequenceKeyword) (ConditionKeyword.lower_eq hkeyword)
  cases hcompares : isCompareOnly comparison.operator.text with
  | true =>
      obtain ⟨found, hfound⟩ := Condition.exists_ofClause h hoperator hoperand harguments hcompares
      refine ⟨condition found, ?_⟩
      cases hother : Vocabulary.ofWord? ConsequenceKeyword clause.keyword.text <;>
        simp [after, hkeyword, hother, h.operation_eq.2, hcompares, hfound]
  | false =>
      obtain ⟨otherKeyword, found, htoken, hfound⟩ :=
        Consequence.exists_ofClause h hoperator hoperand harguments hcompares
      refine ⟨consequence found, ?_⟩
      rw [htoken] at hother
      simp [after, hkeyword, hother, h.operation_eq.2, hcompares, hfound]

end Operations

/-! ### Lines with one clause -/

inductive IsLineBefore (trigger clause : List Char) : List Char → Prop
  | intro {start sep gap ending : List Char} (hstart : IsGap start) (hsep : IsMark ',' sep)
      (hgap : IsGap gap) (hending : IsEnding ending) :
      IsLineBefore trigger clause
        (start ++ (trigger ++ (sep ++ (clause ++ (gap ++ '-' :: '>' :: ending)))))

inductive IsLineAfter (trigger clause : List Char) : List Char → Prop
  | intro {start gap gap' ending : List Char} (hstart : IsGap start) (hgap : IsGap gap)
      (hgap' : IsGap gap') (hending : IsEnding ending) :
      IsLineAfter trigger clause
        (start ++ (trigger ++ (gap ++ '-' :: '>' :: (gap' ++ (clause ++ ending)))))

section Lines

variable {trigger s line : List Char} {clause : KeywordClause} (htrigger : IsLiteral trigger)
  (hclause : clause.IsWritten s 0)

include htrigger hclause

theorem IsLineBefore.ofLine (h : IsLineBefore trigger s line) :
    ∃ column k, DialogueForm.ofLine line =
      .ok ⟨⟨column, trigger⟩, [.keyword (clause.shift k)], []⟩ := by
  obtain ⟨hstart, hsep, hgap, hending⟩ := h
  rename_i start sep gap ending
  have hshifted := hclause.shift (start.length + trigger.length + sep.length)
  rw [Nat.zero_add] at hshifted
  have hwritten := @DialogueForm.IsWritten.intro IsBreak _ _ _ _ _ _ _ _ _ hstart htrigger
    (.cons hsep (.keyword hshifted) .nil) hgap isGap_nil .nil hending
  exact ⟨_, _, DialogueForm.IsWritten.ofLine (by simpa using hwritten)⟩

theorem IsLineAfter.ofLine (h : IsLineAfter trigger s line) :
    ∃ column k, DialogueForm.ofLine line =
      .ok ⟨⟨column, trigger⟩, [], [.keyword (clause.shift k)]⟩ := by
  obtain ⟨hstart, hgap, hgap', hending⟩ := h
  rename_i start gap gap' ending
  have hshifted := hclause.shift (start.length + trigger.length + gap.length + 2 + gap'.length)
  rw [Nat.zero_add] at hshifted
  have hwritten := @DialogueForm.IsWritten.intro IsBreak _ _ _ _ _ _ _ _ _ hstart htrigger .nil
    hgap hgap' (.cons (.keyword hshifted) .nil) hending
  exact ⟨_, _, DialogueForm.IsWritten.ofLine (by simpa using hwritten)⟩

end Lines

/-- Whether a clause is a condition does not depend on where it stands. -/
theorem Grammar.KeywordClause.IsCondition.shift {clause : KeywordClause} (h : clause.IsCondition)
    (k : Nat) : (clause.shift k).IsCondition := by
  have hcompares := KeywordClause.compares_eq (clause.alike_shift k 0)
  rw [KeywordClause.shift_zero] at hcompares
  refine ⟨h.1, ?_⟩
  rw [hcompares]
  exact h.2

/-- A condition comes to the same before the arrow at one place and behind it at another. -/
theorem Meaning.before_agrees_after (context : Context) {clause : KeywordClause}
    (h : clause.IsCondition) (k k' : Nat) :
    Agree (fun found found' => found = found' ∧ ∃ condition, found = .condition condition)
      (fun issue issue' => issue.cause = issue'.cause)
      (before context (.keyword (clause.shift k)))
      (after context (.keyword (clause.shift k'))) := by
  rw [← before_eq_after (h.shift k')]
  have halike := before_alike context Likeness.anywhere_keepsLiterals
    (.keyword (clause.alike_shift k k'))
  have hnone := consequenceOf?_before context (.keyword (clause.shift k))
  generalize before context (.keyword (clause.shift k)) = result at halike hnone
  generalize before context (.keyword (clause.shift k')) = result' at halike
  cases halike with
  | @ok found found' hfound =>
      obtain rfl : found = found' := by simpa [Likeness.anywhere] using hfound
      refine .ok ⟨rfl, ?_⟩
      cases found with
      | condition condition => exact ⟨condition, rfl⟩
      | consequence consequence => cases hnone
  | error hissue => exact .error (by simpa [Likeness.anywhere] using hissue.cause)

section Lines

variable {context : Context} {trigger s : List Char} {clause : KeywordClause}
  {first second : SourceLine}

/-- A clause that can only be a condition means the same on either side of the arrow: the two lines
get the same condition and nothing else, or neither gets anything and both report the same. -/
theorem Scanner.feed_before_eq_after (htrigger : IsLiteral trigger) (hclause : clause.IsWritten s 0)
    (hcondition : clause.IsCondition) (hfirst : IsLineBefore trigger s first.text.toList)
    (hsecond : IsLineAfter trigger s second.text.toList) :
    ∃ conditions issues issues', conditions.length + issues.length = 1 ∧
      issues.map Issue.cause = issues'.map Issue.cause ∧ ∀ document state,
        feed context ⟨document, state⟩ first =
          ⟨(document.reportAll context first.number issues).add first.number
            (.dialogue ⟨String.ofList (Text.unquote trigger), conditions, []⟩), .scanning⟩ ∧
        feed context ⟨document, state⟩ second =
          ⟨(document.reportAll context second.number issues').add second.number
            (.dialogue ⟨String.ofList (Text.unquote trigger), conditions, []⟩), .scanning⟩ := by
  obtain ⟨column, k, hform⟩ := hfirst.ofLine htrigger hclause
  obtain ⟨column', k', hform'⟩ := hsecond.ofLine htrigger hclause
  have hagree := Meaning.before_agrees_after context hcondition k k'
  generalize hresult : Meaning.before context (.keyword (clause.shift k)) = result at hagree
  generalize hresult' : Meaning.after context (.keyword (clause.shift k')) = result' at hagree
  cases hagree with
  | ok hfound =>
      obtain ⟨rfl, condition, rfl⟩ := hfound
      refine ⟨[condition], [], [], rfl, rfl, fun document state => ⟨?_, ?_⟩⟩
      · rw [feed_of_ofLine hform]
        simp only [DialogueForm.issues, DialogueForm.line, DialogueForm.meanings, List.map_cons,
          List.map_nil, List.append_nil, hresult]
        rfl
      · rw [feed_of_ofLine hform']
        simp only [DialogueForm.issues, DialogueForm.line, DialogueForm.meanings, List.map_cons,
          List.map_nil, List.nil_append, hresult']
        rfl
  | @error issue issue' hcause =>
      refine ⟨[], [issue], [issue'], rfl, by simpa using hcause, fun document state => ⟨?_, ?_⟩⟩
      · rw [feed_of_ofLine hform]
        simp only [DialogueForm.issues, DialogueForm.line, DialogueForm.meanings, List.map_cons,
          List.map_nil, List.append_nil, hresult]
        rfl
      · rw [feed_of_ofLine hform']
        simp only [DialogueForm.issues, DialogueForm.line, DialogueForm.meanings, List.map_cons,
          List.map_nil, List.nil_append, hresult']
        rfl

/-- What the documents then hold: one dialogue line more in either of them, the same one, and an
issue more if it has no condition. -/
theorem Scanner.gains_before_eq_after (htrigger : IsLiteral trigger)
    (hclause : clause.IsWritten s 0) (hcondition : clause.IsCondition)
    (hfirst : IsLineBefore trigger s first.text.toList)
    (hsecond : IsLineAfter trigger s second.text.toList) :
    ∃ conditions issues issues', conditions.length + issues.length = 1 ∧
      issues.map Issue.cause = issues'.map Issue.cause ∧
      let found : DialogueLine := ⟨String.ofList (Text.unquote trigger), conditions, []⟩
      ∀ (document : Document) state,
        let next := (feed context ⟨document, state⟩ first).document
        let next' := (feed context ⟨document, state⟩ second).document
        document.Gains context first.number ⟨some (.dialogue found), issues⟩ next ∧
        document.Gains context second.number ⟨some (.dialogue found), issues'⟩ next' ∧
        next.entries = document.entries.push ⟨first.number, .dialogue found⟩ ∧
        next'.entries = document.entries.push ⟨second.number, .dialogue found⟩ := by
  obtain ⟨conditions, issues, issues', hcount, hcauses, hfeed⟩ :=
    @feed_before_eq_after context _ _ _ _ _ htrigger hclause hcondition hfirst hsecond
  refine ⟨conditions, issues, issues', hcount, hcauses, ?_⟩
  intro found document state
  obtain ⟨hline, hline'⟩ := hfeed document state
  rw [hline, hline']
  have hgains := document.gains_dialogue context first.number found issues
  have hgains' := document.gains_dialogue context second.number found issues'
  exact ⟨hgains, hgains', hgains.entries_eq_push, hgains'.entries_eq_push⟩

end Lines

/-! ### Both sides -/

structure Context.TellsSides (context : Context) : Prop where
  /-- A line with one clause that can only be a condition states the same whichever side the clause
  is on: the same condition, or none, for the same reason. -/
  condition : ∀ {trigger s : List Char} {clause : KeywordClause} {first second : SourceLine},
    IsLiteral trigger → clause.IsWritten s 0 → clause.IsCondition →
      IsLineBefore trigger s first.text.toList → IsLineAfter trigger s second.text.toList →
      ∃ conditions issues issues', conditions.length + issues.length = 1 ∧
        issues.map Issue.cause = issues'.map Issue.cause ∧ ∀ document state,
          Scanner.feed context ⟨document, state⟩ first =
            ⟨(document.reportAll context first.number issues).add first.number
              (.dialogue ⟨String.ofList (Text.unquote trigger), conditions, []⟩), .scanning⟩ ∧
          Scanner.feed context ⟨document, state⟩ second =
            ⟨(document.reportAll context second.number issues').add second.number
              (.dialogue ⟨String.ofList (Text.unquote trigger), conditions, []⟩), .scanning⟩
  /-- Among other clauses such a clause comes to the same on either side as well. -/
  neighbours : ∀ {clause : KeywordClause}, clause.IsCondition →
    Meaning.before context (.keyword clause) = Meaning.after context (.keyword clause)
  /-- Without an operator that can only compare, a shared keyword makes no condition behind the
  arrow. -/
  calculation : ∀ {clause : KeywordClause}, clause.IsShared →
    (∀ comparison, clause.comparison.or clause.innerComparison? = some comparison →
      comparison.operator.text ∈ ["=".toList, "+=".toList, "-=".toList]) →
    ∀ condition, Meaning.after context (.keyword clause) ≠ .ok (.condition condition)
  /-- Nothing comes of a consequence before the arrow. -/
  consequence : ∀ {clause : KeywordClause},
    Vocabulary.ofWord? ConditionKeyword clause.keyword.text = none →
    (Vocabulary.ofWord? ConsequenceKeyword clause.keyword.text).isSome →
    ∃ issue, Meaning.before context (.keyword clause) = .error issue
  /-- A shared keyword with an operator and a number takes every operator behind the arrow. -/
  operator : ∀ {clause : KeywordClause} {keyword : ConditionKeyword} {comparison : Comparison},
    Vocabulary.ofWord? ConditionKeyword clause.keyword.text = some keyword →
    clause.HasArguments context keyword → clause.HasOperator comparison →
    IsOperator comparison.operator.text →
    (Quantity.ofOperand? comparison.operand.text).isSome →
    ∃ meaning, Meaning.after context (.keyword clause) = .ok meaning

/-- Conditions mean the same on either side of the arrow. -/
theorem Context.tellsSides (context : Context) : context.TellsSides where
  condition := Scanner.feed_before_eq_after
  neighbours := Meaning.before_eq_after
  calculation := Meaning.after_ne_condition
  consequence := fun hkeyword hother => ⟨_, Meaning.before_consequence hkeyword hother⟩
  operator := fun hkeyword harguments hone hoperator hoperand =>
    Meaning.exists_after hone hoperator hoperand hkeyword harguments

/-- A condition on either side, and a sum of money behind the arrow. -/
theorem Context.tellsSides_isAdmin :
    let context : Context := { items := {}, skills := {} }
    let first : SourceLine := ⟨1, "\"hi\",isadmin->"⟩
    let second : SourceLine := ⟨2, "\"hi\"->isadmin"⟩
    let money : KeywordClause :=
      ⟨⟨1, "money".toList⟩, none, some ⟨⟨6, "<=".toList⟩, ⟨8, "5".toList⟩⟩⟩
    (∃ conditions issues issues', conditions.length + issues.length = 1 ∧
      issues.map Issue.cause = issues'.map Issue.cause ∧ ∀ document state,
        Scanner.feed context ⟨document, state⟩ first =
          ⟨(document.reportAll context 1 issues).add 1 (.dialogue ⟨"hi", conditions, []⟩),
            .scanning⟩ ∧
        Scanner.feed context ⟨document, state⟩ second =
          ⟨(document.reportAll context 2 issues').add 2 (.dialogue ⟨"hi", conditions, []⟩),
            .scanning⟩) ∧
      ∃ meaning, Meaning.after context (.keyword money) = .ok meaning := by
  intro context first second money
  let trigger : List Char := "\"hi\"".toList
  let text : List Char := "isadmin".toList
  have htrigger : IsLiteral trigger := ⟨_, Text.denotes_quote ['h', 'i']⟩
  have hkeyword : IsKeyword text := .plain (.intro rfl (List.all_eq_true.mp rfl))
  have hclause : KeywordClause.IsWritten text 0 ⟨⟨1, text⟩, none, none⟩ :=
    .intro hkeyword .none .none
  have hfirst : IsLineBefore trigger text first.text.toList := by
    have hline : first.text.toList =
        [] ++ (trigger ++ ([] ++ [','] ++ (text ++ ([] ++ ['-', '>'])))) := by decide +kernel
    rw [hline]
    exact .intro isGap_nil (.intro isGap_nil isGap_nil) isGap_nil (.blank isGap_nil)
  have hsecond : IsLineAfter trigger text second.text.toList := by
    have hline : second.text.toList =
        [] ++ (trigger ++ ([] ++ '-' :: '>' :: ([] ++ (text ++ [])))) := by decide +kernel
    rw [hline]
    exact .intro isGap_nil isGap_nil isGap_nil (.blank isGap_nil)
  have hmoney : Vocabulary.ofWord? ConditionKeyword money.keyword.text = some .money := by
    decide +kernel
  have hone : money.HasOperator ⟨⟨6, "<=".toList⟩, ⟨8, "5".toList⟩⟩ := rfl
  refine ⟨?_, ?_⟩
  · exact (tellsSides context).condition htrigger hclause ⟨rfl, .inl (by decide +kernel)⟩ hfirst
      hsecond
  · exact (tellsSides context).operator hmoney rfl hone ⟨"<=", by decide, rfl⟩ rfl

end NpcScript
