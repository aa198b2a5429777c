import NpcScript.Proofs.Script.Line
import NpcScript.Proofs.Statement.Kind

/-!
Dialogue lines in a document. Every clause of a line comes to one condition, one consequence or one
issue, and to which of them is decided by the clause and its side of the arrow alone. The line that
is added and the issues that are reported are put together from these results in the order of the
clauses, so that no clause is lost and none counts twice.
-/

namespace NpcScript

open Grammar (Clause DialogueForm)

namespace Meaning

def conditionOf? (result : Except Issue Meaning) : Option Condition :=
  result.toOption.bind condition?

def consequenceOf? (result : Except Issue Meaning) : Option Consequence :=
  result.toOption.bind consequence?

/-- A clause comes to a condition, to a consequence or to an issue, and to one of these only. -/
theorem counts_once (result : Except Issue Meaning) :
    (conditionOf? result).toList.length + (consequenceOf? result).toList.length +
      (issue? result).toList.length = 1 := by
  cases result with
  | error issue => rfl
  | ok found =>
      cases found with
      | condition found => rfl
      | consequence found => rfl

theorem length_filterMap_add (results : List (Except Issue Meaning)) :
    (results.filterMap conditionOf?).length + (results.filterMap consequenceOf?).length +
      (results.filterMap issue?).length = results.length := by
  have hlength {α β : Type} (f : α → Option β) (a : α) (as : List α) :
      ((a :: as).filterMap f).length = (f a).toList.length + (as.filterMap f).length := by
    cases h : f a <;> simp [h, Nat.add_comm]
  induction results with
  | nil => rfl
  | cons result results ih =>
      have honce := counts_once result
      rw [hlength, hlength, hlength, List.length_cons]
      omega

/-- No consequence comes of a clause before the arrow. -/
theorem consequenceOf?_before (context : Context) (clause : Clause) :
    consequenceOf? (before context clause) = none := by
  cases clause with
  | answer source => rfl
  | keyword clause =>
      simp only [before]
      split
      · rename_i keyword hkeyword
        cases Condition.ofClause context keyword clause <;> rfl
      · split <;> rfl

end Meaning

namespace Grammar.DialogueForm

variable {form : DialogueForm} {context : Context}

theorem line_eq_filterMap (form : DialogueForm) (context : Context) :
    form.line context =
      ⟨String.ofList (Text.unquote form.trigger.text),
        (form.meanings context).filterMap Meaning.conditionOf?,
        (form.meanings context).filterMap Meaning.consequenceOf?⟩ := by
  rw [line, List.filterMap_filterMap, List.filterMap_filterMap]
  rfl

theorem conditions_line :
    (form.line context).conditions =
      (form.before.map (Meaning.before context)).filterMap Meaning.conditionOf? ++
        (form.after.map (Meaning.after context)).filterMap Meaning.conditionOf? := by
  rw [line_eq_filterMap, ← List.filterMap_append]
  rfl

theorem consequences_line :
    (form.line context).consequences =
      (form.after.map (Meaning.after context)).filterMap Meaning.consequenceOf? := by
  have hbefore :
      (form.before.map (Meaning.before context)).filterMap Meaning.consequenceOf? = [] := by
    rw [List.filterMap_map, List.filterMap_eq_nil_iff]
    intro clause hclause
    exact Meaning.consequenceOf?_before context clause
  calc (form.line context).consequences
      = (form.meanings context).filterMap Meaning.consequenceOf? := by rw [line_eq_filterMap]
    _ = _ := by rw [meanings, List.filterMap_append, hbefore, List.nil_append]

theorem ofLine?_of_ofLine {text : List Char} (h : ofLine text = .ok form) :
    StatementKind.ofLine? text = some .dialogue :=
  StatementKind.ofLine?_of_dialogue (isWritten_of_ofLine h)

end Grammar.DialogueForm

/-- A dialogue line that is read is added whatever its clauses come to, and wherever the scanner is.
-/
theorem Scanner.feed_of_ofLine {context : Context} {line : SourceLine} {form : DialogueForm}
    (h : DialogueForm.ofLine line.text.toList = .ok form) (document : Document)
    (state : ScanState) :
    feed context ⟨document, state⟩ line =
      ⟨(document.reportAll context line.number (form.issues context)).add line.number
        (.dialogue (form.line context)), .scanning⟩ := by
  let scope : LineScope := { context, line, document }
  have hform : DialogueForm.ofLine scope.text = .ok form := h
  have hkind := DialogueForm.ofLine?_of_ofLine h
  simp only [feed, hkind, ScanState.read, ScanState.dialogue]
  rw [hform]
  simp only [ScanState.attach, LineScope.foldl_attach, ScanState.close, LineScope.foldl_report]
  rfl

/-- Each clause of a dialogue line counts once. The result of a clause is a function of the clause
and of its side of the arrow. The line gets the conditions from before the arrow and then those from
behind it, and the consequences from behind it; one error is reported for each clause that failed;
all in the order of the clauses. -/
theorem Scanner.feed_dialogue (context : Context) {line : SourceLine} {form : DialogueForm}
    (h : DialogueForm.ofLine line.text.toList = .ok form) (document : Document)
    (state : ScanState) :
    let before := form.before.map (Meaning.before context)
    let after := form.after.map (Meaning.after context)
    let conditions :=
      before.filterMap Meaning.conditionOf? ++ after.filterMap Meaning.conditionOf?
    let consequences := after.filterMap Meaning.consequenceOf?
    let issues := before.filterMap Meaning.issue? ++ after.filterMap Meaning.issue?
    feed context ⟨document, state⟩ line =
      ⟨(document.reportAll context line.number issues).add line.number
        (.dialogue ⟨String.ofList (Text.unquote form.trigger.text), conditions, consequences⟩),
        .scanning⟩ ∧
    (∀ issue ∈ issues, issue.cause.isWarning = false) ∧
    (∀ result, (Meaning.conditionOf? result).toList.length +
      (Meaning.consequenceOf? result).toList.length + (Meaning.issue? result).toList.length = 1) ∧
    conditions.length + consequences.length + issues.length =
      form.before.length + form.after.length := by
  intro before after conditions consequences issues
  have hissues : issues = form.issues context := List.filterMap_append.symm
  have hconditions : (form.line context).conditions = conditions := DialogueForm.conditions_line
  have hconsequences : (form.line context).consequences = consequences :=
    DialogueForm.consequences_line
  have hline : form.line context =
      ⟨String.ofList (Text.unquote form.trigger.text), conditions, consequences⟩ := by
    rw [← hconditions, ← hconsequences]
    rfl
  refine ⟨?_, ?_, Meaning.counts_once, ?_⟩
  · rw [feed_of_ofLine h, hline, hissues]
  · rw [hissues]
    intro issue hissue
    exact (DialogueForm.isFault_of_mem_issues context
      (DialogueForm.isFormed_of_ofLine h) hissue).isWarning_eq_false
  · calc conditions.length + consequences.length + issues.length
        = ((form.meanings context).filterMap Meaning.conditionOf?).length +
            ((form.meanings context).filterMap Meaning.consequenceOf?).length +
            ((form.meanings context).filterMap Meaning.issue?).length := by
          rw [← hconditions, ← hconsequences, hissues, form.line_eq_filterMap]
          rfl
      _ = (form.meanings context).length := Meaning.length_filterMap_add _
      _ = form.before.length + form.after.length := by simp [DialogueForm.meanings]

/-- A line with conditions on both sides, an answer, and a clause on each side that fails. -/
theorem Scanner.feed_dialogue_greeting :
    let context : Context := { items := .ofList [⟨42, "helmet"⟩], skills := {} }
    let line : SourceLine := ⟨3, "\"hello\", isadmin, \"x\" -> item(42) > 2 \"Hi\" bye"⟩
    let document := (feed context {} line).document
    document.statements =
      [.dialogue ⟨"hello", [.isAdmin, .item ⟨42, "helmet"⟩ .all .greater (.literal 2)],
        [.answer "Hi"]⟩] ∧
      document.diagnostics.toList.map (·.column) = [some 19, some 44] := by
  intro context line document
  let isAdmin : Clause := .keyword ⟨⟨10, "isadmin".toList⟩, none, none⟩
  let item : Clause := .keyword
    ⟨⟨26, "item".toList⟩, some [.operand ⟨31, "42".toList⟩],
      some ⟨⟨35, ">".toList⟩, ⟨37, "2".toList⟩⟩⟩
  let bye : Clause := .keyword ⟨⟨44, "bye".toList⟩, none, none⟩
  let form : DialogueForm :=
    ⟨⟨1, "\"hello\"".toList⟩, [isAdmin, .answer ⟨19, "\"x\"".toList⟩],
      [item, .answer ⟨39, "\"Hi\"".toList⟩, bye]⟩
  have hform : DialogueForm.ofLine line.text.toList = .ok form := by decide +kernel
  have hfeed := (feed_dialogue context hform {} .scanning).1
  have hdocument : document = _ := congrArg Scanner.document hfeed
  rw [hdocument]
  decide +kernel

end NpcScript
