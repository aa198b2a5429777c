import NpcScript.Proofs.Grammar.Completion
import NpcScript.Proofs.Script.Accepted

/-!
Lines that a grammar rejects. The column that is reported with such a line is that of the furthest
lexeme that was missed. What stands in front of it is well formed so far: something can be put
behind it that makes a line which the grammar accepts.
-/

namespace NpcScript

open Grammar (Assignment DialogueForm IsAssignment IsDialogueLine)

theorem Grammar.IsAssignment.exists_ofLine {line : List Char} (h : IsAssignment line) :
    ∃ assignment, Assignment.ofLine line = .ok assignment := by
  obtain ⟨assignment, hwritten⟩ := h
  exact ⟨assignment, hwritten.ofLine⟩

theorem Grammar.IsDialogueLine.exists_ofLine {line : List Char} (h : IsDialogueLine line) :
    ∃ form, DialogueForm.ofLine line = .ok form := by
  obtain ⟨form, hspelt⟩ := h
  exact ⟨form, DialogueForm.ofLine_iff_isSpelt.mpr hspelt⟩

namespace StatementKind

variable {text : List Char} {column : Nat} {kind : StatementKind}

/-- What stands in front of the column of a rejected line can be completed to an accepted one. -/
theorem Rejects.exists_accepts (h : kind.Rejects text column) (htext : '\n' ∉ text) :
    (1 ≤ column ∧ column ≤ text.length + 1) ∧
      ∃ more, kind.Accepts (text.take (column - 1) ++ more) := by
  cases kind with
  | empty | comment => cases h
  | assignment key =>
      obtain ⟨hcolumn, more, hmore⟩ := (Grammar.assignment_avoidsDeadEnds text).run
        Grammar.isGap_nil.isBeginning_isAssignment htext h
      exact ⟨hcolumn, more, hmore.exists_ofLine⟩
  | dialogue =>
      obtain ⟨hcolumn, more, hmore⟩ := (Grammar.dialogueForm_avoidsDeadEnds text).run
        Grammar.isGap_nil.isBeginning_isDialogueLine htext h
      exact ⟨hcolumn, more, hmore.exists_ofLine⟩

/-- A line that its grammar rejects is reported once, at the column where it is found to be wrong.
-/
theorem Rejects.exists_isRejected (h : kind.Rejects text column) (hkind : ofLine? text = some kind)
    (context : Context) :
    ∃ keyword, (LineReading.ofLine context text).IsRejected keyword column := by
  have houtcome := (LineReading.ofLine_isOutcome context hkind).1
  cases kind with
  | empty | comment => cases h
  | assignment key => exact ⟨_, houtcome.2 column h⟩
  | dialogue =>
      have h : DialogueForm.ofLine text = .error column := h
      rw [LineReading.IsOutcome, h] at houtcome
      exact ⟨_, houtcome⟩

end StatementKind

/-- The column of a syntax error never lies beyond a dead end. Where a line without a line break is
claimed by a kind of statement and rejected by its grammar, the line comes to nothing but the report
of it, at a column inside the line or right behind it; and whatever the line goes on with there,
what stands in front of this column can be completed to a text that the same grammar accepts. -/
theorem Scanner.feed_rejected (context : Context) {line : SourceLine} {kind : StatementKind}
    {column : Nat} (hline : '\n' ∉ line.text.toList)
    (hkind : StatementKind.ofLine? line.text.toList = some kind)
    (hrejects : kind.Rejects line.text.toList column) :
    (∃ reading : LineReading, (∃ keyword, reading.IsRejected keyword column) ∧ ∀ document,
      feed context ⟨document, .scanning⟩ line =
        ⟨document.addReading context line.number reading, .scanning⟩) ∧
    (1 ≤ column ∧ column ≤ line.text.toList.length + 1) ∧
    ∃ more, kind.Accepts (line.text.toList.take (column - 1) ++ more) :=
  ⟨⟨_, hrejects.exists_isRejected hkind context, fun document =>
    feed_scanning context document line⟩, hrejects.exists_accepts hline⟩

/-- The operator of a comparison inside the parentheses is missed farthest, though the parentheses
are given up in the end because they are not closed. -/
theorem Scanner.feed_rejected_skill :
    let line : SourceLine := ⟨1, "\"hi\", skill(a -> bye"⟩
    StatementKind.Rejects line.text.toList 15 .dialogue ∧
      ∃ more, StatementKind.Accepts ("\"hi\", skill(a ".toList ++ more) .dialogue := by
  intro line
  have hrejects : StatementKind.Rejects line.text.toList 15 .dialogue := by
    show DialogueForm.ofLine line.text.toList = .error 15
    decide +kernel
  have htext : line.text.toList.take (15 - 1) = "\"hi\", skill(a ".toList := by decide +kernel
  rw [← htext]
  exact ⟨hrejects, (feed_rejected { items := {}, skills := {} } (by decide +kernel)
    (by decide +kernel) hrejects).2.2⟩

end NpcScript
