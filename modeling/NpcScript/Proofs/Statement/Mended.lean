import NpcScript.Proofs.Script.Exchanged
import NpcScript.Proofs.Statement.Choice

/-!
Assignments in which a suggestion is taken up. The text that is not taken for one of a choice is a
value, or the name in front of the parentheses of one. A word of the choice may be written instead:
the line is an assignment again, with the same key, and what it is asked for in this place is taken.
-/

namespace NpcScript

open Grammar (Assignment IsColumn IsWord Spares Value continuesWord)

theorem Grammar.IsWord.not_spares {w : List Char} (h : IsWord w) (rest : List Char) :
    ¬ Spares Grammar.continuesWord (w ++ rest) := by
  obtain ⟨hc, -⟩ := h
  simp [Grammar.continuesWord_of_beginsWord hc]

namespace Grammar.Value

variable {value : Value} {v text : List Char} {offset : Nat}

theorem isColumn : IsColumn (fun s offset value => Value.IsWritten s offset value) column := by
  intro s offset value h
  refine ⟨?_, h.startsPiece.ne_nil⟩
  cases h <;> rfl

/-- Where a value is taken as a word, another word may be written, with quotes or without. -/
theorem IsWritten.exists_token {keyword : List Char} {expected : String}
    (h : value.IsWritten v offset) (htoken : value.token keyword expected = .ok text) :
    IsWrittenFor text v ∧ ∀ word, IsWord word →
      (Spares continuesWord v → Spares continuesWord (mended v word)) ∧
      ∃ value' : Value, value'.IsWritten (mended v word) offset ∧
        value'.token keyword expected = .ok word := by
  cases h with
  | number _ | call _ _ _ => cases htoken
  | quoted hs =>
      cases htoken
      refine ⟨.literal hs, fun word hword => ?_⟩
      rw [mended_of_isLiteral hs]
      refine ⟨fun _ => spares_cons_iff.mpr (by decide), _, .quoted hword.isLiteral, ?_⟩
      simp [token, hword.unquote_eq]
  | word hs =>
      cases htoken
      refine ⟨.operand hs.operand, fun word hword => ?_⟩
      rw [mended_of_isBare hs.isBare]
      have hnot : ¬ Spares continuesWord v := by simpa using hs.not_spares []
      exact ⟨fun hspares => absurd hspares hnot, _, .word hword, rfl⟩

end Grammar.Value

/-- Another name may be written in front of the parentheses of a call. No other value begins where
the call does. -/
theorem Grammar.Assignment.IsValueCut.exists_named {assignment : Assignment}
    {before after arguments : List Value} {source : Grammar.Lexeme} {name u v w : List Char}
    (hcut : assignment.IsValueCut before (.call source name arguments) after u v w) :
    ∃ t, v = name ++ t ∧ IsWord name ∧ source.column = u.length + 1 ∧
      ∀ word, IsWord word → ∃ source' arguments' after',
        Assignment.IsWritten (u ++ (word ++ (t ++ w)))
          ⟨assignment.key, before ++ .call source' word arguments' :: after'⟩ ∧
        ∀ other ∈ before ++ after', other.column ≠ u.length + 1 := by
  have hcall := hcut.written
  generalize hoffset : u.length = offset at hcall
  cases hcall with
  | @call _ _ gap t _ hname hgap harguments =>
      subst hoffset
      refine ⟨gap ++ t, rfl, hname, rfl, fun word hword => ?_⟩
      have hbehind : u.length + name.length + gap.length + word.length =
          u.length + word.length + gap.length + name.length := by omega
      obtain ⟨arguments', harguments', -⟩ :=
        harguments.exists_moved (fun argument _ => argument.exists_moved) hbehind
      obtain ⟨after', hput⟩ := hcut.exchange (word ++ (gap ++ t)) fun hspares =>
        absurd hspares (hname.not_spares _)
      obtain ⟨hwritten, hothers⟩ := hput _ (.call hword hgap harguments')
      refine ⟨_, arguments', after', by simpa using hwritten, fun other hother => ?_⟩
      rcases hothers other hother with hend | hbegin
      · have hle := hend.column_le Value.isColumn
        omega
      · have hlt := hbegin.lt_column Value.isColumn
        have hpos := List.length_pos_iff.mpr hword.ne_nil
        simp only [List.length_append] at hlt
        omega

namespace AssignmentKey

variable {assignment : Assignment} {line : List Char} {column : Nat} {text : List Char}
  {choice : Choice}

/-- For `v`, any word of the choice may be written. Then the assignment has what it is asked for in
this place. -/
def IsMendable (key : AssignmentKey) (assignment : Assignment) (choice : Choice)
    (u v w : List Char) : Prop :=
  ∀ word, IsWord word → choice.takes word = true → ∃ assignment' : Assignment,
    assignment'.IsWritten (u ++ (mended v word ++ w)) ∧ assignment'.key = assignment.key ∧
      ∀ column' text' choice', key.Asks assignment' column' text' choice' →
        column' = u.length + 1 → choice'.takes text' = true

theorem Asks.exists_isMendable {key : AssignmentKey}
    (h : key.Asks assignment column text choice) (hwritten : assignment.IsWritten line) :
    ∃ u v w, line = u ++ (v ++ w) ∧ column = u.length + 1 ∧ IsWrittenFor text v ∧
      key.IsMendable assignment choice u v w := by
  cases h with
  | @member key value _ _ hchoice hvalues htoken =>
      have hvalues : assignment.values = [] ++ value :: [] := hvalues
      obtain ⟨u, v, w, rfl, hcut⟩ := hwritten.exists_isValueCut hvalues
      obtain ⟨hfor, hmend⟩ := hcut.written.exists_token htoken
      refine ⟨u, v, w, rfl, (Value.isColumn hcut.written).1, hfor, fun word hword htakes => ?_⟩
      obtain ⟨hspares, value', hvalue', htoken'⟩ := hmend word hword
      obtain ⟨after', hput⟩ := hcut.exchange (mended v word) hspares
      refine ⟨_, (hput value' hvalue').1, rfl, ?_⟩
      rintro column' text' choice' (⟨hchoice', hvalues', htoken''⟩ | _) -
      cases hvalues'
      cases hchoice.symm.trans hchoice'
      cases htoken'.symm.trans htoken''
      exact htakes
  | @property key mode first others arguments source _ hform hvalues hmem =>
      obtain ⟨before, after, rfl⟩ := List.append_of_mem hmem
      have hvalues : assignment.values =
          (first :: before) ++ .call source text arguments :: after := hvalues
      obtain ⟨u, v, w, rfl, hcut⟩ := hwritten.exists_isValueCut hvalues
      obtain ⟨t, rfl, hname, hcolumn, hmend⟩ := hcut.exists_named
      refine ⟨u, text, t ++ w, by simp, hcolumn, .operand hname.operand,
        fun word hword htakes => ?_⟩
      rw [mended_of_isBare hname.isBare]
      obtain ⟨source', arguments', after', hwritten', hout⟩ := hmend word hword
      refine ⟨_, hwritten', rfl, ?_⟩
      rintro column' text' choice' (_ | ⟨hform', hvalues', hmem'⟩) hcolumn'
      cases hvalues'
      rcases List.mem_append.mp hmem' with hmem' | hmem'
      · have hother := List.mem_append_left after' (List.mem_cons_of_mem first hmem')
        exact (hout _ hother hcolumn').elim
      · rcases List.mem_cons.mp hmem' with hsame | hmem'
        · cases hsame
          exact htakes
        · exact (hout _ (List.mem_append_right (first :: before) hmem') hcolumn').elim

end AssignmentKey

end NpcScript
