import NpcScript.Proofs.Clause.Quoting
import NpcScript.Proofs.Script.Order
import NpcScript.Proofs.Statement.Quoting

/-!
Diagnostics point at what they quote. The parts of every line stand at their columns, every reader
reports at the column of the part it was given, and no diagnostic changes its column on the way into
the document.
-/

namespace NpcScript

open Grammar (Assignment DialogueForm)

theorem LineReading.issues_ofLine_quote (context : Context) (line : List Char) :
    Quoting line (ofLine context line).issues := by
  unfold ofLine
  split
  · refine quoting_singleton _ ?_
    rintro column ⟨⟩
  · simp [Quoting]
  · simp [Quoting]
  · rename_i key hkind
    split
    · exact quoting_singleton _ (malformed_quotes line _ _ _)
    · rename_i assignment hline
      have hstands := (Assignment.isWritten_of_ofLine hline).standsIn
      split
      · rename_i issues hissues
        exact (key.statement_quotes hstands context line).error hissues
      · exact key.warnings_quote hstands
  · split
    · exact quoting_singleton _ (malformed_quotes line _ _ _)
    · rename_i form hform
      exact form.issues_quote (DialogueForm.isWritten_of_ofLine hform).standsIn context

/-- From the column of a diagnostic on, its line begins with what the diagnostic quotes: with the
number, the text or the keyword as it is quoted, and with the word that names nothing. If that word
was written as a string literal, the literal begins at the column and stands for the word. -/
theorem Document.isQuotedFrom_of_mem_diagnostics (context : Context) (script : String)
    {diagnostic : Diagnostic}
    (h : diagnostic ∈ (ofScript context script).diagnostics.toList) {column : Nat}
    (hcolumn : diagnostic.column = some column) :
    1 ≤ diagnostic.line ∧ 1 ≤ column ∧
      ∃ line, (SourceLine.ofText script)[diagnostic.line - 1]? = some line ∧
        diagnostic.cause.IsQuotedFrom (line.text.toList.drop (column - 1)) := by
  rw [ofScript, toList_diagnostics_ofLines, List.mem_flatMap] at h
  obtain ⟨line, hline, hdiagnostic⟩ := h
  obtain ⟨hpos, hget⟩ := SourceLine.getElem?_ofText_number hline
  have hnumber := SourceLine.line_of_mem_diagnostics context line hdiagnostic
  rw [hnumber]
  refine ⟨hpos, ?_, line, hget, ?_⟩
  · rcases SourceLine.exists_column context line hdiagnostic with ⟨hnone, -⟩ | ⟨c, hc, hle, -⟩
    · rw [hcolumn] at hnone
      cases hnone
    · obtain rfl := Option.some.inj (hcolumn.symm.trans hc)
      exact hle
  · obtain ⟨issue, hissue, rfl⟩ := List.mem_map.mp hdiagnostic
    exact LineReading.issues_ofLine_quote context line.text.toList issue hissue column hcolumn

/-- Blanks inside the quotes are not quoted, but the column is still that of the literal. -/
theorem Document.isQuotedFrom_of_mem_diagnostics_hobbit :
    let context : Context := { items := {}, skills := {}, describe := fun _ => "" }
    let script := "hairID = 3\nrace = \" hobbit \""
    let cause : Cause := .unknownToken "race" "hobbit" (Vocabulary.listing Race)
    ⟨2, some 8, cause, ""⟩ ∈ (ofScript context script).diagnostics.toList ∧
      ∃ line, (SourceLine.ofText script)[1]? = some line ∧
        cause.IsQuotedFrom (line.text.toList.drop 7) := by
  intro context script cause
  have hmem : ⟨2, some 8, cause, ""⟩ ∈ (ofScript context script).diagnostics.toList := by
    decide +kernel
  obtain ⟨-, -, hline⟩ := isQuotedFrom_of_mem_diagnostics context script hmem rfl
  exact ⟨hmem, hline⟩

end NpcScript
