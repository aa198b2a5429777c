import NpcScript.Proofs.Script.Locality
import NpcScript.Proofs.Writing.Dialogue
import NpcScript.Proofs.Writing.Trade

/-!
Writing scripts. Every valid statement has a line that is read as this statement and no other, and
one such line after another makes a script for any list of statements in which no slot occurs twice.
Texts in quotes may hold any character, since a newline in them is written as a pair; what is
written as it is, a comment or an expression, must not hold a newline.
-/

namespace NpcScript

open Grammar (Assignment AssignmentDraft DialogueForm)
open Text (FitsLine IsTrimmed)

namespace Statement

def write : Statement → List Char
  | .identity fact => fact.draft.write
  | .appearance fact => fact.draft.write
  | .equipment slot item => (slot.draft item).write
  | .trade fact => fact.draft.write
  | .guard fact => fact.draft.write
  | .cycleText text => text.draft.write
  | .dialogue line => line.write
  | .comment text => "-- ".toList ++ text.toList
  | .emptyLine => []

/-- The texts of a statement that are written as they are, not in quotes. -/
def plainTexts : Statement → List String
  | .dialogue line => line.plainTexts
  | .comment text => [text]
  | _ => []

end Statement

/-! ### Lines -/

/-- The line fits in a script and is read as the statement, with warnings at most. -/
structure IsLineOf (context : Context) (line : List Char) (statement : Statement) : Prop where
  fitsLine : FitsLine line
  exists_issues : ∃ issues, LineReading.ofLine context line = ⟨some statement, issues⟩ ∧
    ∀ issue ∈ issues, issue.cause.isWarning = true

section Lines

variable {context : Context}

theorem Grammar.AssignmentDraft.States.isLineOf {draft : AssignmentDraft} {statement : Statement}
    (h : draft.States context statement) : IsLineOf context draft.write statement := by
  obtain ⟨values, hwritten, hvalues⟩ := AssignmentDraft.exists_isWritten h.isWritable
  have hline := hwritten.ofLine
  have hkind : StatementKind.ofLine? draft.write = some (.assignment draft.key) := by
    rw [StatementKind.ofLine?_of_assignment hwritten, draft.key.isLegible.2]
    rfl
  refine ⟨AssignmentDraft.fitsLine_write h.isWritable,
    draft.key.warnings ⟨draft.key.token, values⟩, ?_,
    fun issue => AssignmentKey.isWarning_of_mem_warnings⟩
  simp only [LineReading.ofLine, hkind, hline, h.statement_eq _ _ values hvalues]

theorem DialogueLine.IsWritable.isLineOf {line : DialogueLine} (h : line.IsWritable context) :
    IsLineOf context line.write (.dialogue line) := by
  obtain ⟨form, hwritten, hform⟩ := DialogueLine.exists_isWritten h
  have hline := hwritten.ofLine
  refine ⟨DialogueLine.fitsLine_write h, [], ?_, by simp⟩
  simp only [LineReading.ofLine, StatementKind.ofLine?_of_dialogue hwritten, hline,
    DialogueLine.line_eq h.isValid hform, DialogueLine.issues_eq_nil h.isValid hform]

/-- The text of a comment is found behind the two minus signs and the space, even if it begins with
minus signs itself. -/
theorem commentText_write {text : List Char} (h : IsTrimmed text) :
    commentText (Text.trim ("-- ".toList ++ text)) = text := by
  cases htext : text with
  | nil => decide
  | cons c rest =>
      rw [htext] at h
      have hminus : IsTrimmed ['-', '-'] := Text.isTrimmed_of_forall (by simp [Text.isBlank])
      have hwhole : IsTrimmed (['-', '-'] ++ ([' '] ++ c :: rest)) :=
        hminus.enclose (by simp) h (by simp) [' ']
      have hspace : Text.trim (' ' :: c :: rest) = Text.trim (c :: rest) := by
        rw [Text.trim, Text.trimStart, List.dropWhile_cons_of_pos (by decide)]
        rfl
      calc commentText (Text.trim ("-- ".toList ++ c :: rest))
          = commentText ('-' :: '-' :: ' ' :: c :: rest) :=
            congrArg commentText (Text.trim_eq_self hwhole)
        _ = Text.trim (' ' :: c :: rest) := by rw [commentText, commentText]; simp
        _ = c :: rest := hspace.trans (Text.trim_eq_self h)

theorem isLineOf_comment {text : String} (htrimmed : IsTrimmed text.toList)
    (h : '\n' ∉ text.toList) :
    IsLineOf context (Statement.comment text).write (.comment text) := by
  have hminus : FitsLine "-- ".toList := Text.fitsLine_of_forall (by simp)
  refine ⟨hminus.append (htrimmed.fitsLine h), [], ?_, by simp⟩
  have hkind : StatementKind.ofLine? ("-- ".toList ++ text.toList) = some .comment :=
    StatementKind.ofLine?_of_minus (' ' :: text.toList)
  simp only [Statement.write, LineReading.ofLine, hkind, commentText_write htrimmed,
    String.ofList_toList]

/-- Every valid statement has a line. -/
theorem Statement.isLineOf_write {statement : Statement} (hvalid : statement.IsValid context)
    (hplain : ∀ text ∈ statement.plainTexts, '\n' ∉ text.toList) :
    IsLineOf context statement.write statement := by
  cases statement with
  | identity fact => exact (fact.states_draft context hvalid).isLineOf
  | appearance fact => exact (fact.states_draft context hvalid).isLineOf
  | equipment slot item => exact (slot.states_draft context hvalid).isLineOf
  | trade fact => exact (fact.states_draft hvalid).isLineOf
  | guard fact => exact (fact.states_draft context hvalid).isLineOf
  | cycleText text => exact (text.states_draft context).isLineOf
  | dialogue line => exact DialogueLine.IsWritable.isLineOf ⟨hvalid, hplain⟩
  | comment text => exact isLineOf_comment hvalid (hplain text (by simp [plainTexts]))
  | emptyLine => exact ⟨Text.fitsLine_nil, [], rfl, by simp⟩

end Lines

namespace IsLineOf

variable {context : Context} {line : List Char} {statement : Statement}

theorem entry?_eq (h : IsLineOf context line statement) (number : Nat) :
    SourceLine.entry? context ⟨number, String.ofList line⟩ = some ⟨number, statement⟩ := by
  obtain ⟨issues, hreading, -⟩ := h.exists_issues
  rw [SourceLine.entry?, String.toList_ofList, hreading]
  rfl

theorem isWarning_of_mem (h : IsLineOf context line statement) {number : Nat}
    {diagnostic : Diagnostic}
    (hmem : diagnostic ∈ SourceLine.diagnostics context ⟨number, String.ofList line⟩) :
    diagnostic.isWarning = true := by
  obtain ⟨issues, hreading, hwarning⟩ := h.exists_issues
  rw [SourceLine.diagnostics, String.toList_ofList, hreading] at hmem
  obtain ⟨issue, hissue, rfl⟩ := List.mem_map.mp hmem
  exact hwarning issue hissue

end IsLineOf

/-! ### Scripts -/

/-- Where no slot occurs twice, nothing is overwritten. -/
theorem merge_eq_self {entries : List Entry} (h : IsDistinct entries) :
    merge [] entries = entries := by
  induction entries using List.reverseRecOn with
  | nil => rfl
  | append_singleton entries entry ih =>
      obtain ⟨hentries, -, hbetween⟩ := List.pairwise_append.mp h
      rw [merge_concat, ih hentries, put_of_not_isTaken]
      rintro ⟨hsome, hmem⟩
      obtain ⟨other, hother, hsame⟩ := List.mem_map.mp hmem
      have hnone := hbetween other hother entry (by simp) hsame
      exact hsome (hsame ▸ hnone)

namespace Document

variable {context : Context} {statements : List Statement}

def numbered (statements : List Statement) : List Entry :=
  statements.zipIdx.map fun (statement, index) => ⟨index + 1, statement⟩

theorem isDistinct_numbered
    (h : statements.Pairwise fun first second => first.slot = second.slot → first.slot = none) :
    IsDistinct (numbered statements) := by
  have hstatements : (numbered statements).map Entry.statement = statements := by
    rw [numbered, List.map_map]
    exact List.zipIdx_map_fst 0 statements
  rw [← hstatements, List.pairwise_map] at h
  exact h

theorem ofText_eq {lines : List (List Char)} (h : ∀ line ∈ lines, FitsLine line) :
    SourceLine.ofText (String.ofList (lines.flatMap (· ++ ['\n']))) =
      lines.zipIdx.map fun (line, index) => ⟨index + 1, String.ofList line⟩ := by
  rw [SourceLine.ofText, String.toList_ofList, Text.lines_flatMap h]

/-- Every list of valid statements in which no slot occurs twice can be written as a script, one
line for each statement, and reading the script gives the statements back in their order, with
warnings at most. A text that is written as it is, and so must not hold a newline, is the text of a
comment or an expression. -/
theorem ofScript_write (context : Context)
    (hvalid : ∀ statement ∈ statements, statement.IsValid context)
    (hplain : ∀ statement ∈ statements, ∀ text ∈ statement.plainTexts, '\n' ∉ text.toList)
    (hslots : statements.Pairwise fun first second =>
      first.slot = second.slot → first.slot = none) :
    let lines := statements.map Statement.write
    let document := ofScript context (String.ofList (lines.flatMap (· ++ ['\n'])))
    (∀ line ∈ lines, '\n' ∉ line) ∧ document.entries.toList = numbered statements ∧
      ∀ diagnostic ∈ document.diagnostics, diagnostic.isWarning = true := by
  intro lines document
  have hline : ∀ statement ∈ statements, IsLineOf context statement.write statement :=
    fun statement hmem => statement.isLineOf_write (hvalid statement hmem) (hplain statement hmem)
  have hfits : ∀ line ∈ lines, FitsLine line := by
    intro line hmem
    obtain ⟨statement, hstatement, rfl⟩ := List.mem_map.mp hmem
    exact (hline statement hstatement).fitsLine
  have hsource : SourceLine.ofText (String.ofList (lines.flatMap (· ++ ['\n']))) =
      statements.zipIdx.map fun (statement, index) =>
        ⟨index + 1, String.ofList statement.write⟩ := by
    rw [ofText_eq hfits, List.zipIdx_map, List.map_map]
    rfl
  have hdocument : document = ofLines context (statements.zipIdx.map fun (statement, index) =>
      ⟨index + 1, String.ofList statement.write⟩) := congrArg (ofLines context) hsource
  refine ⟨fun line hmem => (hfits line hmem).not_mem, ?_, ?_⟩
  · have hentries : (statements.zipIdx.map fun (statement, index) =>
        (⟨index + 1, String.ofList statement.write⟩ : SourceLine)).filterMap
          (SourceLine.entry? context) = numbered statements := by
      rw [List.filterMap_map, numbered, ← List.filterMap_eq_map]
      refine List.filterMap_congr fun pair hpair => ?_
      have hmem := List.fst_mem_of_mem_zipIdx hpair
      exact (hline pair.1 hmem).entry?_eq (pair.2 + 1)
    rw [hdocument, toList_entries_ofLines, hentries, merge_eq_self (isDistinct_numbered hslots)]
  · intro diagnostic hmem
    rw [hdocument, ← Array.mem_toList_iff, toList_diagnostics_ofLines] at hmem
    obtain ⟨source, hsource, hdiagnostic⟩ := List.mem_flatMap.mp hmem
    obtain ⟨pair, hpair, rfl⟩ := List.mem_map.mp hsource
    have hmem := List.fst_mem_of_mem_zipIdx hpair
    exact (hline pair.1 hmem).isWarning_of_mem hdiagnostic

/-- A script with quotes, arrows, commas and minus signs where they must not count. -/
theorem ofScript_write_guard :
    let context : Context :=
      { items := .ofList [⟨42, "helmet"⟩], skills := .ofList [⟨"mining", none⟩] }
    let line : DialogueLine :=
      ⟨"hi, -- \\", [.item ⟨42, "helmet"⟩ .body .notEqual (.expression "a, (b) -> c"),
        .skill "mining" .less (.literal (-3))], [.answer "x -> y", .questStatus 1 .add .saidNumber]⟩
    let statements : List Statement :=
      [.identity (.name "Bob \"the guard\""), .equipment .head (some ⟨42, "helmet"⟩),
        .dialogue line, .comment "-- \"end\"", .emptyLine]
    let script :=
      "name = \"Bob \\\"the guard\\\"\"\nitemhead = 42\n" ++
        "\"hi, -- \\\\\", item(42, body) != expr(a, (b) -> c), skill(\"mining\") < -3" ++
        " -> \"x -> y\", queststatus(1) += %NUMBER\n-- -- \"end\"\n\n"
    (∀ statement ∈ statements, statement.IsValid context) ∧
      (∀ statement ∈ statements, ∀ text ∈ statement.plainTexts, '\n' ∉ text.toList) ∧
      (statements.Pairwise fun first second => first.slot = second.slot → first.slot = none) ∧
      (ofScript context script).entries.toList = numbered statements := by
  intro context line statements script
  have hitem : Item.IsValid context ⟨42, "helmet"⟩ := ⟨by decide, by decide +kernel⟩
  have hskill : Skill.IsValidName context "mining" := by
    refine ⟨⟨"mining", none⟩, ?_, rfl⟩
    show (SkillCatalog.insert {} _).find? _ = _
    rw [SkillCatalog.find?_insert, if_pos]
    decide
  have hexpression : IsExpression "a, (b) -> c".toList := by
    have htrim : Text.trim "a, (b) -> c".toList = "a, (b) -> c".toList := by decide
    have hbalanced : Text.nesting 0 "a, (b) -> c".toList = some 0 := by decide
    exact ⟨by decide, htrim ▸ Text.isTrimmed_trim _, hbalanced⟩
  have hline : line.IsValid context := by
    refine ⟨?_, ?_⟩
    · simp only [line, List.forall_mem_cons]
      exact ⟨⟨hitem, hexpression⟩, ⟨hskill, by decide, by decide⟩, by simp⟩
    · simp only [line, List.forall_mem_cons]
      exact ⟨True.intro, ⟨by decide, True.intro⟩, by simp⟩
  have hvalid : ∀ statement ∈ statements, statement.IsValid context := by
    simp only [statements, List.forall_mem_cons]
    refine ⟨True.intro, ?_, hline, ?_, True.intro, by simp⟩
    · rintro worn ⟨⟩
      exact ⟨hitem, by decide⟩
    · have htrim : Text.trim "-- \"end\"".toList = "-- \"end\"".toList := by decide
      show IsTrimmed "-- \"end\"".toList
      exact htrim ▸ Text.isTrimmed_trim _
  have hplain : ∀ statement ∈ statements, ∀ text ∈ statement.plainTexts, '\n' ∉ text.toList := by
    decide
  have hslots : statements.Pairwise fun first second =>
      first.slot = second.slot → first.slot = none := by decide
  have hscript : script =
      String.ofList ((statements.map Statement.write).flatMap (· ++ ['\n'])) := by decide +kernel
  obtain ⟨-, hentries, -⟩ := ofScript_write context hvalid hplain hslots
  rw [← hscript] at hentries
  exact ⟨hvalid, hplain, hslots, hentries⟩

end Document

end NpcScript
