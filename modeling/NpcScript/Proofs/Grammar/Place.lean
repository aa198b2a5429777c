import NpcScript.Proofs.Grammar.Assignment
import NpcScript.Proofs.Grammar.Dialogue
import NpcScript.Proofs.Grammar.Recasing

/-!
Where the parts of a line stand. Each part carries the column of its first character, and from that
column on the line begins with the text of the part: `StandsIn` says so of a lexeme, and here of
everything that is made of lexemes, together with what kind of text each of them is. A text stands
at an offset if its first half does, and its second half as much further on; this is all that has to
be known of offsets.
-/

namespace NpcScript.Grammar

open Text (IsLiteral)

/-- The line goes on with the text behind so many characters. -/
def StandsAt (line s : List Char) (offset : Nat) : Prop :=
  s <+: line.drop offset

section StandsAt

variable {line s t : List Char} {offset : Nat}

theorem standsAt_self (line : List Char) : StandsAt line line 0 :=
  List.prefix_rfl

theorem StandsAt.left (h : StandsAt line (s ++ t) offset) : StandsAt line s offset :=
  (List.prefix_append s t).trans h

theorem StandsAt.right (h : StandsAt line (s ++ t) offset) :
    StandsAt line t (offset + s.length) := by
  obtain ⟨rest, hrest⟩ := h
  refine ⟨rest, ?_⟩
  rw [← List.drop_drop, ← hrest, List.append_assoc, List.drop_left]

theorem StandsAt.tail {c : Char} (h : StandsAt line (c :: s) offset) :
    StandsAt line s (offset + 1) :=
  StandsAt.right (s := [c]) h

theorem StandsAt.lexeme (h : StandsAt line s offset) :
    (⟨offset + 1, s⟩ : Lexeme).StandsIn line :=
  h

end StandsAt

/-! ### Members of lists -/

section Lists

variable {α : Type} {separator : List Char → Prop} {item : List Char → Nat → α → Prop}
  {line s : List Char} {offset : Nat} {a : α} {as : List α}

theorem IsChain.exists_standsAt (h : IsChain separator item s offset as)
    (hs : StandsAt line s offset) (ha : a ∈ as) :
    ∃ t offset', item t offset' a ∧ StandsAt line t offset' := by
  induction h with
  | nil => cases ha
  | cons hsep hfirst hothers ih =>
      rcases List.mem_cons.mp ha with rfl | ha
      · exact ⟨_, _, hfirst, hs.right.left⟩
      · exact ih hs.right.right ha

theorem IsRow.exists_standsAt (h : IsRow separator item s offset as)
    (hs : StandsAt line s offset) (ha : a ∈ as) :
    ∃ t offset', item t offset' a ∧ StandsAt line t offset' := by
  cases h with
  | nil => cases ha
  | cons hfirst hothers =>
      rcases List.mem_cons.mp ha with rfl | ha
      · exact ⟨_, _, hfirst, hs.left⟩
      · exact hothers.exists_standsAt hs.right ha

theorem IsParenthesised.exists_standsAt (h : IsParenthesised item s offset as)
    (hs : StandsAt line s offset) (ha : a ∈ as) :
    ∃ t offset', item t offset' a ∧ StandsAt line t offset' := by
  obtain ⟨hbefore, hinside, hafter⟩ := h
  exact hinside.exists_standsAt hs.tail.right.left ha

end Lists

/-! ### Values -/

/-- The value and the arguments inside it stand where they say that they stand. The name of a call
stands at the column of the call. -/
inductive Value.StandsIn (line : List Char) : Value → Prop
  | quoted {source : Lexeme} (hs : IsLiteral source.text) (h : source.StandsIn line) :
      StandsIn line (.quoted source)
  | number {source : Lexeme} (hs : IsNumber source.text) (h : source.StandsIn line) :
      StandsIn line (.number source)
  | word {source : Lexeme} (hs : IsWord source.text) (h : source.StandsIn line) :
      StandsIn line (.word source)
  | call {source : Lexeme} {name : List Char} {arguments : List Value} (hname : IsWord name)
      (h : source.StandsIn line) (hstands : (⟨source.column, name⟩ : Lexeme).StandsIn line)
      (harguments : ∀ argument ∈ arguments, StandsIn line argument) :
      StandsIn line (.call source name arguments)

namespace Value

variable {line : List Char}

theorem StandsIn.source {value : Value} (h : value.StandsIn line) :
    value.source.StandsIn line := by
  cases h with
  | quoted hs h => exact h
  | number hs h => exact h
  | word hs h => exact h
  | call hname h hstands harguments => exact h

theorem IsWritten.standsIn (value : Value) {s : List Char} {offset : Nat}
    (h : value.IsWritten s offset) (hs : StandsAt line s offset) : value.StandsIn line := by
  cases h with
  | quoted hliteral => exact .quoted hliteral hs.lexeme
  | number hnumber => exact .number hnumber hs.lexeme
  | word hword => exact .word hword hs.lexeme
  | call hname hgap harguments =>
      refine .call hname hs.lexeme hs.left.lexeme fun argument hargument => ?_
      obtain ⟨t, offset', ht, hstands⟩ := harguments.exists_standsAt hs.right.right hargument
      exact IsWritten.standsIn argument ht hstands
termination_by sizeOf value

end Value

theorem Assignment.IsWritten.standsIn {line : List Char} {assignment : Assignment}
    (h : assignment.IsWritten line) : ∀ value ∈ assignment.values, value.StandsIn line := by
  have hline := standsAt_self line
  obtain ⟨hstart, hkey, hlink, hvalues, hne, hending⟩ := h
  intro value hvalue
  have hstands := hline.right.right.right.left
  rw [Nat.zero_add] at hstands
  obtain ⟨t, offset, ht, hstands⟩ := hvalues.exists_standsAt hstands hvalue
  exact ht.standsIn value hstands

/-! ### Clauses -/

variable {line s : List Char} {offset : Nat}

structure Comparison.StandsIn (line : List Char) (comparison : Comparison) : Prop where
  isOperator : IsOperator comparison.operator.text
  operator : comparison.operator.StandsIn line
  isOperand : Operand comparison.operand.text
  operand : comparison.operand.StandsIn line

inductive Argument.StandsIn (line : List Char) : Argument → Prop
  | quoted {source : Lexeme} (hs : IsLiteral source.text) (h : source.StandsIn line) :
      StandsIn line (.quoted source)
  | operand {source : Lexeme} (hs : Operand source.text) (h : source.StandsIn line) :
      StandsIn line (.operand source)
  | comparison {subject : Lexeme} {found : Comparison} (hs : IsWord subject.text)
      (h : subject.StandsIn line) (hfound : found.StandsIn line) :
      StandsIn line (.comparison subject found)

structure KeywordClause.StandsIn (line : List Char) (clause : KeywordClause) : Prop where
  keyword : clause.keyword.StandsIn line
  argumentList : ∀ argument ∈ clause.argumentList, argument.StandsIn line
  comparison : ∀ comparison, clause.comparison = some comparison → comparison.StandsIn line

inductive Clause.StandsIn (line : List Char) : Clause → Prop
  | answer {source : Lexeme} (h : source.StandsIn line) : StandsIn line (.answer source)
  | keyword {clause : KeywordClause} (h : clause.StandsIn line) : StandsIn line (.keyword clause)

theorem Comparison.IsWritten.standsIn {found : Comparison} (h : found.IsWritten s offset)
    (hs : StandsAt line s offset) : found.StandsIn line := by
  obtain ⟨hoperator, hgap, hoperand⟩ := h
  exact ⟨hoperator, hs.left.lexeme, hoperand, hs.right.right.lexeme⟩

theorem Argument.IsWritten.standsIn {argument : Argument} (h : argument.IsWritten s offset)
    (hs : StandsAt line s offset) : argument.StandsIn line := by
  cases h with
  | quoted hliteral => exact .quoted hliteral hs.lexeme
  | operand hoperand => exact .operand hoperand hs.lexeme
  | comparison hsubject hgap hfound =>
      exact .comparison hsubject hs.left.lexeme (hfound.standsIn hs.right.right)

theorem KeywordClause.IsWritten.standsIn {clause : KeywordClause} (h : clause.IsWritten s offset)
    (hs : StandsAt line s offset) : clause.StandsIn line := by
  obtain ⟨hkeyword, harguments, hfound⟩ := h
  refine ⟨hs.left.lexeme, ?_, ?_⟩
  · cases harguments with
    | none => simp [KeywordClause.argumentList]
    | some hgap harguments =>
        intro argument hargument
        obtain ⟨t, offset', ht, hstands⟩ :=
          harguments.exists_standsAt hs.right.left.right hargument
        exact ht.standsIn hstands
  · cases hfound with
    | none => simp
    | some hgap hfound =>
        rintro comparison ⟨⟩
        exact hfound.standsIn hs.right.right.right

theorem Clause.IsWritten.standsIn {clause : Clause} (h : clause.IsWritten s offset)
    (hs : StandsAt line s offset) : clause.StandsIn line := by
  cases h with
  | answer hliteral => exact .answer hs.lexeme
  | keyword hclause => exact .keyword (hclause.standsIn hs)

theorem DialogueForm.IsWritten.standsIn {separator : List Char → Prop} {form : DialogueForm}
    (h : form.IsWritten separator line) :
    ∀ clause ∈ form.before ++ form.after, clause.StandsIn line := by
  have hline := standsAt_self line
  obtain ⟨hstart, htrigger, hbefore, hgap, hgap', hafter, hending⟩ := h
  intro clause hclause
  rcases List.mem_append.mp hclause with hclause | hclause
  · have hstands := hline.right.right.left
    rw [Nat.zero_add] at hstands
    obtain ⟨t, offset, ht, hstands⟩ := hbefore.exists_standsAt hstands hclause
    exact ht.standsIn hstands
  · have hstands := hline.right.right.right.right.tail.tail.right.left
    rw [Nat.zero_add] at hstands
    obtain ⟨t, offset, ht, hstands⟩ := hafter.exists_standsAt hstands hclause
    exact ht.standsIn hstands

end NpcScript.Grammar
