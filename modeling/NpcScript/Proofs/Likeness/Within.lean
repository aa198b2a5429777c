import NpcScript.Proofs.Grammar.Assignment
import NpcScript.Proofs.Grammar.Dialogue
import NpcScript.Proofs.Likeness.Clause
import NpcScript.Proofs.Likeness.Statement

/-!
Pieces of a line and the stretch they stand in. All columns of a piece lie between its beginning and
its end. Likeness says this of a single piece, too: a piece stands in a stretch if it is like itself
where only columns in the stretch stand for each other. Readers keep to what is alike, and so the
issues of a piece lie where the piece stands.
-/

namespace NpcScript

/-- Only the columns behind `lo` and not behind `hi` stand for anything. -/
def Likeness.within (lo hi : Nat) : Likeness where
  column := fun c _ => lo < c ∧ c ≤ hi
  fold := id
  isRecasing := .id
  literal := fun source source' => source.text = source'.text

theorem Likeness.within_keepsLiterals (lo hi : Nat) : (Likeness.within lo hi).KeepsLiterals :=
  fun _ _ h => h

namespace Grammar

variable {s : List Char} {offset lo hi : Nat}

/-! ### Members of lists -/

section Lists

variable {α : Type} {separator : List Char → Prop} {item : List Char → Nat → α → Prop} {a : α}
  {as : List α}

theorem IsChain.exists_of_mem (h : IsChain separator item s offset as) (ha : a ∈ as) :
    ∃ t offset', item t offset' a ∧ offset ≤ offset' ∧
      offset' + t.length ≤ offset + s.length := by
  induction h with
  | nil => cases ha
  | cons hsep hfirst hothers ih =>
      simp only [List.length_append]
      rcases List.mem_cons.mp ha with rfl | ha
      · exact ⟨_, _, hfirst, by omega, by omega⟩
      · obtain ⟨t, offset', ht, hle, hend⟩ := ih ha
        exact ⟨t, offset', ht, by omega, by omega⟩

theorem IsRow.exists_of_mem (h : IsRow separator item s offset as) (ha : a ∈ as) :
    ∃ t offset', item t offset' a ∧ offset ≤ offset' ∧
      offset' + t.length ≤ offset + s.length := by
  cases h with
  | nil => cases ha
  | cons hfirst hothers =>
      simp only [List.length_append]
      rcases List.mem_cons.mp ha with rfl | ha
      · exact ⟨_, _, hfirst, by omega, by omega⟩
      · obtain ⟨t, offset', ht, hle, hend⟩ := hothers.exists_of_mem ha
        exact ⟨t, offset', ht, by omega, by omega⟩

theorem IsParenthesised.exists_of_mem (h : IsParenthesised item s offset as) (ha : a ∈ as) :
    ∃ t offset', item t offset' a ∧ offset < offset' ∧
      offset' + t.length < offset + s.length := by
  obtain ⟨hbefore, hinside, hafter⟩ := h
  obtain ⟨t, offset', ht, hle, hend⟩ := hinside.exists_of_mem ha
  refine ⟨t, offset', ht, by omega, ?_⟩
  simp only [List.length_append, List.length_cons, List.length_nil]
  omega

end Lists

/-! ### Values and clauses -/

variable (hlo : lo ≤ offset) (hhi : offset + s.length ≤ hi)

include hlo hhi

/-- No lexeme is empty, so its first character is still in the stretch. -/
theorem Lexeme.alike_within (hs : s ≠ []) :
    (⟨offset + 1, s⟩ : Lexeme).AlikeLiteral (.within lo hi) ⟨offset + 1, s⟩ := by
  have hpos := List.length_pos_iff.mpr hs
  have hcolumn : lo < offset + 1 ∧ offset + 1 ≤ hi := by omega
  exact ⟨⟨hcolumn, rfl⟩, rfl⟩

theorem Value.IsWritten.alike_within {value : Value} (h : value.IsWritten s offset) :
    value.Alike (.within lo hi) value := by
  -- The arguments of a call stand inside its text.
  induction hn : s.length using Nat.strong_induction_on generalizing s offset value with
  | _ n ih =>
      have hsource := Lexeme.alike_within hlo hhi h.startsPiece.ne_nil
      cases h with
      | quoted hs => exact .quoted hsource
      | number hs => exact .number hsource.toAlike
      | word hs => exact .word hsource.toAlike
      | call hname hgap harguments =>
          refine .call hsource.toAlike rfl (List.forall₂_same.mpr fun argument hargument => ?_)
          obtain ⟨t, offset', ht, hle, hend⟩ := harguments.exists_of_mem hargument
          simp only [List.length_append] at hhi hn
          exact ih t.length (by omega) (by omega) (by omega) ht rfl

theorem Comparison.IsWritten.alike_within {found : Comparison} (h : found.IsWritten s offset) :
    found.Alike (.within lo hi) found := by
  obtain ⟨hoperator, hgap, hoperand⟩ := h
  obtain ⟨c, t, rfl, -⟩ := hoperator.exists_cons
  have hne := hoperand.startsPiece.ne_nil
  simp only [List.length_append] at hhi
  refine ⟨(Lexeme.alike_within hlo (by omega) (by simp)).toAlike, ?_⟩
  exact (Lexeme.alike_within (by omega) (by omega) hne).toAlike

theorem Argument.IsWritten.alike_within {argument : Argument} (h : argument.IsWritten s offset) :
    argument.Alike (.within lo hi) argument := by
  cases h with
  | quoted hs => exact .quoted (Lexeme.alike_within hlo hhi (IsLiteral.startsPiece hs).ne_nil)
  | operand hs => exact .operand (Lexeme.alike_within hlo hhi hs.startsPiece.ne_nil).toAlike
  | comparison hsubject hgap hfound =>
      simp only [List.length_append] at hhi
      have hne := hsubject.ne_nil
      refine .comparison (Lexeme.alike_within hlo (by omega) hne).toAlike ?_
      exact hfound.alike_within (by omega) (by omega)

theorem KeywordClause.IsWritten.alike_within {clause : KeywordClause}
    (h : clause.IsWritten s offset) : clause.Alike (.within lo hi) clause := by
  obtain ⟨hkeyword, harguments, hfound⟩ := h
  simp only [List.length_append] at hhi
  refine ⟨(Lexeme.alike_within hlo (by omega) hkeyword.startsPiece.ne_nil).toAlike, ?_, ?_⟩
  · cases harguments with
    | none => exact .none
    | some hgap harguments =>
        refine .some (List.forall₂_same.mpr fun argument hargument => ?_)
        obtain ⟨t, offset', ht, hle, hend⟩ := harguments.exists_of_mem hargument
        simp only [List.length_append] at hhi
        exact ht.alike_within (by omega) (by omega)
  · cases hfound with
    | none => exact .none
    | some hgap hfound =>
        simp only [List.length_append] at hhi
        exact .some (hfound.alike_within (by omega) (by omega))

theorem Clause.IsWritten.alike_within {clause : Clause} (h : clause.IsWritten s offset) :
    clause.Alike (.within lo hi) clause := by
  cases h with
  | answer hs => exact .answer (Lexeme.alike_within hlo hhi (IsLiteral.startsPiece hs).ne_nil)
  | keyword hs => exact .keyword (hs.alike_within hlo hhi)

end Grammar

end NpcScript
