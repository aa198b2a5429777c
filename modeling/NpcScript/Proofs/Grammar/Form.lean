import NpcScript.Clause.Form
import NpcScript.Grammar.Assignment
import NpcScript.Proofs.Grammar.Operand
import NpcScript.Proofs.Grammar.Reader

/-!
What the grammar grants of the lines it accepts: an assignment has at least one value, and whatever
stands in a dialogue line as an operand is the text of one.
-/

namespace NpcScript.Grammar

open Reader

def Comparison.IsFormed (comparison : Comparison) : Prop :=
  Operand comparison.operand.text

def Argument.IsFormed : Argument → Prop
  | .quoted _ => True
  | .operand source => Operand source.text
  | .comparison _ found => found.IsFormed

structure KeywordClause.IsFormed (clause : KeywordClause) : Prop where
  argumentList : ∀ argument ∈ clause.argumentList, argument.IsFormed
  comparison : ∀ comparison, clause.comparison = some comparison → comparison.IsFormed

def Clause.IsFormed : Clause → Prop
  | .answer _ => True
  | .keyword clause => clause.IsFormed

structure DialogueForm.IsFormed (form : DialogueForm) : Prop where
  before : ∀ clause ∈ form.before, clause.IsFormed
  after : ∀ clause ∈ form.after, clause.IsFormed

theorem comparison_yields : Yields comparison Comparison.IsFormed := by
  refine .skip fun operator => ?_
  refine .skip fun _ => ?_
  refine .bind (.lexeme fun _ _ => operandLexer_sound) fun operand hoperand => ?_
  exact .pure hoperand

theorem argument_yields : Yields argument Argument.IsFormed := by
  refine .orElse ?_ (.orElse ?_ ?_)
  · refine .skip fun subject => ?_
    refine .skip fun _ => ?_
    exact .bind comparison_yields fun comparison hcomparison => .pure hcomparison
  · exact .skip fun source => .pure True.intro
  · exact .bind (.lexeme fun _ _ => operandLexer_sound) fun source hsource => .pure hsource

theorem keywordClause_yields : Yields keywordClause KeywordClause.IsFormed := by
  refine .skip fun keyword => ?_
  refine .skip fun _ => ?_
  refine .bind (.maybe (.marked (.parenthesised argument_yields))) fun arguments harguments => ?_
  refine .skip fun _ => ?_
  refine .bind (.maybe comparison_yields) fun comparison hcomparison => .pure ⟨?_, hcomparison⟩
  cases arguments with
  | none => simp [KeywordClause.argumentList]
  | some arguments => exact harguments arguments rfl

theorem clause_yields : Yields clause Clause.IsFormed := by
  refine .orElse ?_ ?_
  · exact .skip fun source => .pure True.intro
  · exact .bind keywordClause_yields fun clause hclause => .pure hclause

theorem clausesBefore_yields :
    Yields clausesBefore fun clauses => ∀ clause ∈ clauses, clause.IsFormed := by
  refine .many ?_
  refine .skip fun _ => ?_
  refine .skip fun _ => ?_
  exact .skip fun _ => clause_yields

theorem clausesAfter_yields :
    Yields clausesAfter fun clauses => ∀ clause ∈ clauses, clause.IsFormed := by
  refine .bind clause_yields fun first hfirst => ?_
  have hother : Yields (do blanks; let _ ← maybe (mark ','); blanks; clause) Clause.IsFormed := by
    refine .skip fun _ => ?_
    refine .skip fun _ => ?_
    exact .skip fun _ => clause_yields
  refine .bind (.many hother) fun others hothers => .pure ?_
  intro clause hclause
  rcases List.mem_cons.mp hclause with rfl | hclause
  · exact hfirst
  · exact hothers clause hclause

theorem dialogueForm_yields : Yields dialogueForm DialogueForm.IsFormed := by
  refine .skip fun _ => ?_
  refine .skip fun trigger => ?_
  refine .bind clausesBefore_yields fun before hbefore => ?_
  refine .skip fun _ => ?_
  refine .skip fun _ => ?_
  refine .skip fun _ => ?_
  refine .bind (.maybe clausesAfter_yields) fun after hafter => ?_
  refine .skip fun _ => ?_
  refine .skip fun _ => ?_
  refine .skip fun _ => ?_
  refine .skip fun _ => .pure ⟨hbefore, ?_⟩
  cases after with
  | none => simp
  | some after => exact hafter after rfl

theorem DialogueForm.isFormed_of_ofLine {line : List Char} {form : DialogueForm}
    (h : ofLine line = .ok form) : form.IsFormed :=
  dialogueForm_yields.run h

theorem assignment_yields : Yields assignment fun assignment => assignment.values ≠ [] := by
  refine .skip fun _ => ?_
  refine .skip fun key => ?_
  refine .skip fun _ => ?_
  refine .skip fun _ => ?_
  refine .skip fun _ => ?_
  refine .bind (.commaSeparated (.trivial value)) fun values hvalues => ?_
  refine .skip fun _ => ?_
  refine .skip fun _ => ?_
  refine .skip fun _ => ?_
  exact .skip fun _ => .pure hvalues.1

theorem Assignment.values_ne_nil {line : List Char} {assignment : Assignment}
    (h : ofLine line = .ok assignment) : assignment.values ≠ [] :=
  assignment_yields.run h

end NpcScript.Grammar
