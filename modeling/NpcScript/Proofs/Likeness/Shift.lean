import NpcScript.Proofs.Grammar.Dialogue
import NpcScript.Proofs.Likeness.Form

/-!
Clauses at another place of a line. A clause that is moved keeps its text, and its lexemes are found
at columns that are moved with it; it is like the clause that it was up to the columns.
-/

namespace NpcScript

/-- What is read at two places is alike if only the columns differ. -/
def Likeness.anywhere : Likeness where
  column := fun _ _ => True
  fold := id
  isRecasing := .id
  literal := fun source source' => source.text = source'.text

theorem Likeness.anywhere_keepsLiterals : Likeness.anywhere.KeepsLiterals :=
  fun _ _ h => h

namespace Grammar

/-! ### Moving -/

def Lexeme.shift (k : Nat) (source : Lexeme) : Lexeme :=
  ⟨source.column + k, source.text⟩

def Comparison.shift (k : Nat) (comparison : Comparison) : Comparison :=
  ⟨comparison.operator.shift k, comparison.operand.shift k⟩

def Argument.shift (k : Nat) : Argument → Argument
  | .quoted source => .quoted (source.shift k)
  | .operand source => .operand (source.shift k)
  | .comparison subject found => .comparison (subject.shift k) (found.shift k)

def KeywordClause.shift (k : Nat) (clause : KeywordClause) : KeywordClause :=
  ⟨clause.keyword.shift k, clause.arguments.map (List.map (Argument.shift k)),
    clause.comparison.map (Comparison.shift k)⟩

def Clause.shift (k : Nat) : Clause → Clause
  | .answer source => .answer (source.shift k)
  | .keyword clause => .keyword (clause.shift k)

/-! ### A clause that is moved is written at its new place -/

section Lists

variable {α : Type} {separator : List Char → Prop} {item : List Char → Nat → α → Prop} {k : Nat}
  {f : α → α} {s : List Char} {offset : Nat} {as : List α}

theorem IsChain.shift (hitem : ∀ s offset a, item s offset a → item s (offset + k) (f a))
    (h : IsChain separator item s offset as) :
    IsChain separator item s (offset + k) (as.map f) := by
  induction h with
  | nil => exact .nil
  | @cons offset sep s others a as hsep ha has ih =>
      have ha := hitem _ _ _ ha
      rw [Nat.add_right_comm] at ha
      rw [Nat.add_right_comm _ s.length, Nat.add_right_comm _ sep.length] at ih
      exact .cons hsep ha ih

theorem IsRow.shift (hitem : ∀ s offset a, item s offset a → item s (offset + k) (f a))
    (h : IsRow separator item s offset as) : IsRow separator item s (offset + k) (as.map f) := by
  cases h with
  | nil => exact .nil
  | cons ha has =>
      have has := has.shift hitem
      rw [Nat.add_right_comm] at has
      exact .cons (hitem _ _ _ ha) has

theorem IsParenthesised.shift (hitem : ∀ s offset a, item s offset a → item s (offset + k) (f a))
    (h : IsParenthesised item s offset as) : IsParenthesised item s (offset + k) (as.map f) := by
  obtain ⟨hbefore, hinside, hafter⟩ := h
  have hinside := hinside.shift hitem
  rw [Nat.add_right_comm _ _ k, Nat.add_right_comm _ _ k] at hinside
  exact .intro hbefore hinside hafter

theorem IsOptional.shift {found : Option α}
    (hitem : ∀ s offset a, item s offset a → item s (offset + k) (f a))
    (h : IsOptional item s offset found) : IsOptional item s (offset + k) (found.map f) := by
  cases h with
  | none => exact .none
  | some hgap ha =>
      have ha := hitem _ _ _ ha
      rw [Nat.add_right_comm] at ha
      exact .some hgap ha

end Lists

variable {s : List Char} {offset : Nat}

theorem Comparison.IsWritten.shift {found : Comparison} (k : Nat) (h : found.IsWritten s offset) :
    (found.shift k).IsWritten s (offset + k) := by
  obtain ⟨hoperator, hgap, hoperand⟩ := h
  have hshifted := @Comparison.IsWritten.intro (offset + k) _ _ _ hoperator hgap hoperand
  simp only [Nat.add_right_comm _ k] at hshifted
  exact hshifted

theorem Argument.IsWritten.shift {argument : Argument} (k : Nat)
    (h : argument.IsWritten s offset) : (argument.shift k).IsWritten s (offset + k) := by
  cases h with
  | quoted hs =>
      have hshifted := @Argument.IsWritten.quoted (offset + k) _ hs
      rwa [Nat.add_right_comm] at hshifted
  | operand hs =>
      have hshifted := @Argument.IsWritten.operand (offset + k) _ hs
      rwa [Nat.add_right_comm] at hshifted
  | comparison hsubject hgap hfound =>
      have hfound := hfound.shift k
      rw [Nat.add_right_comm _ _ k, Nat.add_right_comm _ _ k] at hfound
      have hshifted := @Argument.IsWritten.comparison (offset + k) _ _ _ _ hsubject hgap hfound
      rwa [Nat.add_right_comm _ _ 1] at hshifted

theorem KeywordClause.IsWritten.shift {clause : KeywordClause} (k : Nat)
    (h : clause.IsWritten s offset) : (clause.shift k).IsWritten s (offset + k) := by
  obtain ⟨hkeyword, harguments, hfound⟩ := h
  have harguments := harguments.shift fun _ _ _ ha => ha.shift fun _ _ _ hb => hb.shift k
  have hfound := hfound.shift fun _ _ _ ha => ha.shift k
  rw [Nat.add_right_comm] at harguments
  rw [Nat.add_right_comm _ _ k, Nat.add_right_comm _ _ k] at hfound
  have hshifted := KeywordClause.IsWritten.intro hkeyword harguments hfound
  rwa [Nat.add_right_comm _ _ 1] at hshifted

theorem Clause.IsWritten.shift {clause : Clause} (k : Nat) (h : clause.IsWritten s offset) :
    (clause.shift k).IsWritten s (offset + k) := by
  cases h with
  | answer hs =>
      have hshifted := @Clause.IsWritten.answer (offset + k) _ hs
      rwa [Nat.add_right_comm] at hshifted
  | keyword hclause => exact .keyword (hclause.shift k)

/-! ### A clause is alike wherever it is moved -/

section Alike

variable (k k' : Nat)

theorem Lexeme.alike_shift (source : Lexeme) :
    (source.shift k).AlikeLiteral .anywhere (source.shift k') :=
  ⟨⟨True.intro, .refl _⟩, rfl⟩

theorem Comparison.alike_shift (comparison : Comparison) :
    (comparison.shift k).Alike .anywhere (comparison.shift k') :=
  ⟨(comparison.operator.alike_shift k k').toAlike, (comparison.operand.alike_shift k k').toAlike⟩

theorem Argument.alike_shift (argument : Argument) :
    (argument.shift k).Alike .anywhere (argument.shift k') := by
  cases argument with
  | quoted source => exact .quoted (source.alike_shift k k')
  | operand source => exact .operand (source.alike_shift k k').toAlike
  | comparison subject found =>
      exact .comparison (subject.alike_shift k k').toAlike (found.alike_shift k k')

theorem KeywordClause.alike_shift (clause : KeywordClause) :
    (clause.shift k).Alike .anywhere (clause.shift k') := by
  obtain ⟨keyword, arguments, comparison⟩ := clause
  refine ⟨(keyword.alike_shift k k').toAlike, ?_, ?_⟩
  · cases arguments with
    | none => exact .none
    | some arguments =>
        refine .some ?_
        simpa using fun argument _ => argument.alike_shift k k'
  · cases comparison with
    | none => exact .none
    | some comparison => exact .some (comparison.alike_shift k k')

theorem Clause.alike_shift (clause : Clause) :
    (clause.shift k).Alike .anywhere (clause.shift k') := by
  cases clause with
  | answer source => exact .answer (source.alike_shift k k')
  | keyword clause => exact .keyword (clause.alike_shift k k')

end Alike

/-! ### What is not moved stays as it is -/

theorem Argument.shift_zero (argument : Argument) : argument.shift 0 = argument := by
  cases argument <;> rfl

theorem KeywordClause.shift_zero (clause : KeywordClause) : clause.shift 0 = clause := by
  obtain ⟨keyword, arguments, comparison⟩ := clause
  cases arguments <;> cases comparison <;>
    simp [shift, Lexeme.shift, Comparison.shift, funext Argument.shift_zero]

theorem Clause.shift_zero (clause : Clause) : clause.shift 0 = clause := by
  cases clause with
  | answer source => rfl
  | keyword clause => exact congrArg Clause.keyword clause.shift_zero

end Grammar

end NpcScript
