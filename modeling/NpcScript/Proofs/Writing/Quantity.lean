import NpcScript.Proofs.Clause.Quantity
import NpcScript.Proofs.Grammar.Dialogue
import NpcScript.Proofs.Writing.Number
import NpcScript.Proofs.Writing.Vocabulary

/-!
Writing quantities. A literal is written as its numeral, the number that was said as `%NUMBER`, and
an expression in `expr(…)`, which keeps it as it is whatever it looks like.
-/

namespace NpcScript

open Text Grammar

namespace Quantity

def plainTexts : Quantity → List String
  | expression text => [text]
  | _ => []

structure IsWritable (quantity : Quantity) : Prop where
  isValid : quantity.IsValid
  not_mem : ∀ text ∈ quantity.plainTexts, '\n' ∉ text.toList

variable {quantity : Quantity}

theorem toList_render_expression (text : String) :
    (expression text).render.toList = "expr".toList ++ '(' :: (text.toList ++ [')']) := by
  simp [render]

theorem operand_render (h : quantity.IsValid) : Operand quantity.render.toList := by
  cases quantity with
  | literal value => exact operand_numeral value
  | saidNumber => exact .sum (.single (.plain (.percent (.intro rfl (List.all_eq_true.mp rfl)))))
  | expression text =>
      rw [toList_render_expression]
      exact .expr rfl h.isBalanced

theorem fitsLine_render (h : quantity.IsWritable) : FitsLine quantity.render.toList := by
  have htrimmed := (operand_render h.isValid).isTrimmed
  refine htrimmed.fitsLine ?_
  cases quantity with
  | literal value => exact (fitsLine_numeral value).not_mem
  | saidNumber => decide
  | expression text =>
      rw [toList_render_expression]
      have htext := h.not_mem text (by simp [plainTexts])
      simp [htext]

/-! ### Reading quantities back -/

theorem literalOfText?_numeral {value : Int} (h : (literal value).IsValid) :
    literalOfText? (numeral value) = some value := by
  have hdigits : ∀ c ∈ Nat.toDigits 10 value.natAbs, c.isDigit = true :=
    fun c => isDigit_of_mem_digits _
  simp only [literalOfText?, dropMinus_numeral, integerOfDigits_numeral]
  rw [if_pos]
  obtain ⟨hlow, hhigh⟩ := h
  simpa [Nat.toDigits_ne_nil, isLiteral, hlow, hhigh] using hdigits

theorem expressionBody?_expr (body : List Char) :
    expressionBody? ("expr".toList ++ '(' :: (body ++ [')'])) = some body := by
  have hlast : ("expr".toList ++ '(' :: (body ++ [')'])).getLast? = some ')' := by
    rw [← List.cons_append, ← List.append_assoc, List.getLast?_concat]
  have htake : sameLetters (("expr".toList ++ '(' :: (body ++ [')'])).take 5) "expr(".toList =
      true := rfl
  have hdrop : ("expr".toList ++ '(' :: (body ++ [')'])).drop 5 = body ++ [')'] := rfl
  rw [expressionBody?, htake, hlast, hdrop, List.dropLast_concat]
  rfl

theorem ofOperand?_render (h : quantity.IsValid) :
    ofOperand? quantity.render.toList = some quantity := by
  have htrimmed := (operand_render h).isTrimmed
  rw [ofOperand?, trim_eq_self htrimmed]
  cases quantity with
  | literal value =>
      have hliteral : literalOfText? (literal value).render.toList = some value :=
        literalOfText?_numeral h
      rw [hliteral]
  | saidNumber => rfl
  | expression text =>
      have hne : text.toList ≠ [] := h.ne_nil
      have hliteral : literalOfText? ("expr".toList ++ '(' :: (text.toList ++ [')'])) = none := rfl
      have hword : sameLetters ("expr".toList ++ '(' :: (text.toList ++ [')'])) "%number".toList =
          false := rfl
      rw [toList_render_expression, hliteral, hword, expressionBody?_expr]
      simp [trim_eq_self h.isTrimmed, hne]

theorem read_render (h : quantity.IsValid) (field : String) (column : Nat) :
    read field column quantity.render.toList = .ok quantity := by
  rw [read, ofOperand?_render h]

/-- Whatever an operand is read as, the form in which it is printed is an operand again and is read
as the same. -/
theorem render_of_read {operand : List Char} (hoperand : operandLexer operand = some [])
    {field : String} {column : Nat} (h : read field column operand = .ok quantity) :
    operandLexer quantity.render.toList = some [] ∧ ∀ (field : String) (column : Nat),
      read field column quantity.render.toList = .ok quantity := by
  have hvalid : quantity.IsValid :=
    (read_ends (Operand.iff_operandLexer.mpr hoperand) field column).value h
  exact ⟨Operand.iff_operandLexer.mp (operand_render hvalid), read_render hvalid⟩

/-- A sum is printed with `expr(…)` around it, and so read in another way than it was written. -/
theorem render_of_read_sum :
    operandLexer "(%A+1) / -2".toList = some [] ∧
      read "value" 7 "(%A+1) / -2".toList = .ok (expression "(%A+1) / -2") ∧
      operandLexer "expr((%A+1) / -2)".toList = some [] ∧
      read "value" 7 "expr((%A+1) / -2)".toList = .ok (expression "(%A+1) / -2") := by
  have hoperand : operandLexer "(%A+1) / -2".toList = some [] := by decide +kernel
  have hread : read "value" 7 "(%A+1) / -2".toList = .ok (expression "(%A+1) / -2") := by
    decide +kernel
  obtain ⟨hagain, hsame⟩ := render_of_read hoperand hread
  exact ⟨hoperand, hread, hagain, hsame "value" 7⟩

end Quantity

/-! ### Comparisons -/

namespace Grammar

structure ComparisonDraft where
  operator : List Char
  operand : List Char

namespace ComparisonDraft

def write (draft : ComparisonDraft) : List Char :=
  draft.operator ++ ' ' :: draft.operand

structure IsWritable (draft : ComparisonDraft) : Prop where
  isOperator : IsOperator draft.operator
  operand : Operand draft.operand
  fitsLine : FitsLine draft.operand

structure Describes (draft : ComparisonDraft) (found : Comparison) : Prop where
  operator : found.operator.text = draft.operator
  operand : found.operand.text = draft.operand

theorem expresses {draft : ComparisonDraft} (h : draft.IsWritable) :
    Expresses Comparison.IsWritten draft.write draft.Describes := by
  have hspace : FitsLine [' '] := Text.fitsLine_of_forall (by simp)
  refine ⟨h.isOperator.fitsLine.append (hspace.append h.fitsLine), fun offset => ?_⟩
  exact ⟨_, .intro h.isOperator isGap_space h.operand, rfl, rfl⟩

variable {quantity : Quantity} {found : Comparison}

def compare (op : CompareOperator) (quantity : Quantity) : ComparisonDraft :=
  ⟨(Vocabulary.token op).toList, quantity.render.toList⟩

def calculate (op : CalculationOperator) (quantity : Quantity) : ComparisonDraft :=
  ⟨(Vocabulary.token op).toList, quantity.render.toList⟩

theorem isWritable_compare (op : CompareOperator) (h : quantity.IsWritable) :
    (compare op quantity).IsWritable :=
  ⟨op.isOperator_token, Quantity.operand_render h.isValid, Quantity.fitsLine_render h⟩

theorem isWritable_calculate (op : CalculationOperator) (h : quantity.IsWritable) :
    (calculate op quantity).IsWritable :=
  ⟨op.isOperator_token, Quantity.operand_render h.isValid, Quantity.fitsLine_render h⟩

theorem compare_eq {op : CompareOperator} (h : quantity.IsValid)
    (hfound : (compare op quantity).Describes found) : found.compare = .ok (op, quantity) := by
  obtain ⟨hoperator, hoperand⟩ := hfound
  simp only [Comparison.compare, hoperator, hoperand, compare, op.resolve_token,
    Quantity.read_render h]
  rfl

theorem calculate_eq {op : CalculationOperator} (h : quantity.IsValid)
    (hfound : (calculate op quantity).Describes found) (keyword : List Char) :
    found.calculate keyword = .ok (op, quantity) := by
  obtain ⟨hoperator, hoperand⟩ := hfound
  simp only [Comparison.calculate, hoperator, hoperand, calculate, op.ofToken?_token,
    Quantity.read_render h]
  rfl

/-- A clause that changes a number is never taken for a condition. -/
theorem isCompareOnly_calculate (op : CalculationOperator) (quantity : Quantity) :
    isCompareOnly (calculate op quantity).operator = false :=
  op.isCompareOnly_token

section Members

variable {α : Type} [Vocabulary α]

/-- A member of a vocabulary is said to hold, or denied. -/
def equality (a : α) (negated : Bool) : ComparisonDraft :=
  ⟨if negated then ['!', '='] else ['='], (Vocabulary.token a).toList⟩

theorem equality?_eq {a : α} {negated : Bool} (hfound : (equality a negated).Describes found) :
    found.equality? = some !negated := by
  have hoperator := hfound.operator
  cases negated <;> simp [Comparison.equality?, hoperator, equality]

theorem isCompareOnly_equality (a : α) : isCompareOnly (equality a false).operator = false := by
  have hequals : isCompareOnly ['='] = false := by decide
  exact hequals

variable [LegibleVocabulary α]

theorem isWritable_equality (a : α) (negated : Bool) : (equality a negated).IsWritable where
  isOperator := by
    cases negated with
    | false => exact ⟨"=", by decide, rfl⟩
    | true => exact ⟨"!=", by decide, rfl⟩
  operand := (Vocabulary.isWord_token a).operand
  fitsLine := (Vocabulary.isWord_token a).fitsLine

theorem member_eq {a : α} {negated : Bool} (hfound : (equality a negated).Describes found)
    (field : String) : found.member α field = .ok a := by
  rw [Comparison.member, hfound.operand]
  exact Vocabulary.resolve_token a field _

theorem equation_eq {a : α} (hfound : (equality a false).Describes found) (keyword : List Char)
    (field : String) : found.equation keyword α field = .ok a := by
  rw [Comparison.equation, equality?_eq hfound]
  exact member_eq hfound field

theorem equationOrDenial_eq {a : α} {negated : Bool}
    (hfound : (equality a negated).Describes found) (keyword : List Char) (field : String) :
    found.equationOrDenial keyword α field = .ok (a, negated) := by
  rw [Comparison.equationOrDenial, equality?_eq hfound]
  dsimp only
  rw [member_eq hfound, Bool.not_not]
  rfl

end Members

end ComparisonDraft

end Grammar

end NpcScript
