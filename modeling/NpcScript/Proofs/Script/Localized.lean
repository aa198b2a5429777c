import NpcScript.Proofs.Script.Line
import NpcScript.Proofs.Statement.Localized

/-!
Lines with texts for players. Such a line is dropped with its faults, or its statement is kept and
warned about field by field.
-/

namespace NpcScript

open Grammar (Assignment)
open Text (HoldsPair)

/-- A kept statement with texts for players is warned about once for each field whose text holds a
quote or ends in a backslash, at the column of the field and in the order of the fields, and about
nothing else. The text of a field holds a quote exactly if a quote is escaped in its literal. -/
theorem Scanner.feed_localized (context : Context) {line : SourceLine} {key : AssignmentKey}
    (hkind : StatementKind.ofLine? line.text.toList = some (.assignment key))
    (hkey : key.isLocalized = true) :
    (∃ issues, Faults issues ∧ ∀ document,
      feed context ⟨document, .scanning⟩ line =
        ⟨document.reportAll context line.number issues, .scanning⟩) ∨
    ∃ assignment statement, ∃ fields : List TextField,
      Assignment.ofLine line.text.toList = .ok assignment ∧
      assignment.values = fields.map TextField.value ∧
      statement.localizedTexts = fields.map (String.ofList ·.text) ∧ fields ≠ [] ∧
      (∀ field ∈ fields, HoldsPair '"' field.body ↔ '"' ∈ field.text) ∧ ∀ document,
        feed context ⟨document, .scanning⟩ line =
          ⟨(document.reportAll context line.number
            ((fields.filter (·.IsSuspicious)).map TextField.warning)).add line.number statement,
            .scanning⟩ := by
  simp only [feed_scanning, LineReading.ofLine, hkind]
  cases hline : Assignment.ofLine line.text.toList with
  | error column => exact .inl ⟨_, faults_malformed key.expected_ne _ _, fun document => rfl⟩
  | ok assignment =>
      have hfaults := key.statement_ends context line.text.toList (Assignment.values_ne_nil hline)
      have hfields := AssignmentKey.statement_fields
        (fun value hvalue => Assignment.exists_isWritten_of_mem hline hvalue) hkey context
        line.text.toList
      dsimp only
      cases hstatement : key.statement context line.text.toList assignment with
      | error issues => exact .inl ⟨_, hfaults.error hstatement, fun document => rfl⟩
      | ok statement =>
          obtain ⟨fields, hne, hvalues, htexts⟩ := hfields.value hstatement
          have hwarnings : key.warnings assignment =
              (fields.filter (·.IsSuspicious)).map TextField.warning := by
            rw [AssignmentKey.warnings, if_pos hkey, hvalues, TextField.filterMap_quoteWarning?]
          refine .inr ⟨assignment, statement, fields, rfl, hvalues, htexts, hne, ?_, ?_⟩
          · intro field _
            exact field.standsFor.holdsPair_iff
          · intro document
            rw [hwarnings]
            rfl

/-- One of two texts holds a quote. -/
theorem Scanner.feed_localized_cycleText :
    let context : Context := { items := {}, skills := {} }
    let line : SourceLine := ⟨2, "cycletext \"Sag \\\"Hallo\\\"\", \"Hi\""⟩
    ∃ statement, ∃ fields : List TextField,
      fields.map (fun field => (field.column, field.literal)) =
        [(11, "\"Sag \\\"Hallo\\\"\"".toList), (28, "\"Hi\"".toList)] ∧
      (∀ field ∈ fields, HoldsPair '"' field.body ↔ '"' ∈ field.text) ∧ ∀ document,
        feed context ⟨document, .scanning⟩ line =
          ⟨(document.reportAll context 2
            ((fields.filter (·.IsSuspicious)).map TextField.warning)).add 2 statement,
            .scanning⟩ := by
  intro context line
  have hkind : StatementKind.ofLine? line.text.toList = some (.assignment .cycleText) := by
    decide +kernel
  rcases feed_localized context hkind rfl with
    ⟨issues, -, hfeed⟩ | ⟨assignment, statement, fields, hline, hvalues, -, -, hpairs, hfeed⟩
  · have hkept : (feed context {} line).document.statements =
        [.cycleText ⟨"Sag \"Hallo\"", "Hi"⟩] := by
      decide +kernel
    have hdropped : (feed context {} line).document.statements = [] :=
      congrArg (fun scanner : Scanner => scanner.document.statements) (hfeed {})
    rw [hdropped] at hkept
    cases hkept
  · have hread : (Assignment.ofLine line.text.toList).toOption.map
          (fun found => found.values.map fun value => (value.column, value.text)) =
        some [(11, "\"Sag \\\"Hallo\\\"\"".toList), (28, "\"Hi\"".toList)] := by
      decide +kernel
    rw [hline] at hread
    refine ⟨statement, fields, ?_, hpairs, hfeed⟩
    calc fields.map (fun field => (field.column, field.literal))
        = (fields.map TextField.value).map fun value => (value.column, value.text) := by
          rw [List.map_map]
          rfl
      _ = _ := by
          rw [← hvalues]
          exact Option.some.inj hread

/-- The closing quote of a literal counts as escaped if a pair of backslashes stands before it: a
text without a quote is warned about. -/
theorem Scanner.feed_localized_backslash :
    let context : Context := { items := {}, skills := {} }
    let line : SourceLine := ⟨1, "lookatDE = \"a\\\\\""⟩
    let text : List Char := ['a', '\\']
    (feed context {} line).document.statements =
        [.identity (.lookAt .german (String.ofList text))] ∧
      '"' ∉ text ∧ ¬ HoldsPair '"' "a\\\\".toList ∧
      (feed context {} line).document.diagnostics.toList.map
          (fun diagnostic => (diagnostic.column, diagnostic.cause)) =
        [(some 12, .suspiciousQuote "localized text" "\"a\\\\\"")] := by
  intro context line text
  have hstands : Text.StandsFor "a\\\\".toList text :=
    .plain (by decide) (by decide) (.pair '\\' .nil)
  have htext : '"' ∉ text := by decide
  refine ⟨by decide +kernel, htext, ?_, by decide +kernel⟩
  rw [hstands.holdsPair_iff]
  exact htext

end NpcScript
