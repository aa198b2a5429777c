import NpcScript.Proofs.Clause.Line
import NpcScript.Proofs.Document.Slots
import NpcScript.Proofs.Statement.Assigned

/-!
What a line comes to. Feeding a line to a scanner between statements adds a reading of the line to
the document, and this reading depends on nothing but the line and the context: a statement or none,
and the issues that are reported on the way. The scanner is then between statements again.
-/

namespace NpcScript

open Grammar (Assignment DialogueForm)

structure LineReading where
  statement : Option Statement
  issues : List Issue

def LineReading.ofLine (context : Context) (text : List Char) : LineReading :=
  match StatementKind.ofLine? text with
  | none => ⟨none, [⟨none, .unparseableLine (String.ofList (Text.trim text))⟩]⟩
  | some .empty => ⟨some .emptyLine, []⟩
  | some .comment => ⟨some (.comment (String.ofList (commentText (Text.trim text)))), []⟩
  | some (.assignment key) =>
    match Assignment.ofLine text with
    | .error column => ⟨none, [malformed (leadingWord text) key.expected column]⟩
    | .ok assignment =>
      match key.statement context text assignment with
      | .error issues => ⟨none, issues⟩
      | .ok statement => ⟨some statement, key.warnings assignment⟩
  | some .dialogue =>
    match DialogueForm.ofLine text with
    | .error column => ⟨none, [malformed "dialogue".toList DialogueLine.expected column]⟩
    | .ok form => ⟨some (.dialogue (form.line context)), form.issues context⟩

def Issue.diagnostic (context : Context) (number : Nat) (issue : Issue) : Diagnostic :=
  ⟨number, issue.column, issue.cause, context.describe issue.cause⟩

namespace Document

def reportAll (document : Document) (context : Context) (number : Nat) (issues : List Issue) :
    Document :=
  { document with
    diagnostics := document.diagnostics ++ (issues.map (Issue.diagnostic context number)).toArray }

def addReading (document : Document) (context : Context) (number : Nat) (reading : LineReading) :
    Document :=
  match reading.statement with
  | none => document.reportAll context number reading.issues
  | some statement => (document.reportAll context number reading.issues).add number statement

end Document

theorem DialogueLine.expected_ne : DialogueLine.expected ≠ completeStatement := by
  decide

theorem faults_malformed {expected : String} (h : expected ≠ completeStatement)
    (keyword : List Char) (column : Nat) : Faults [malformed keyword expected column] :=
  Faults.singleton h

/-! ### Reporting -/

namespace LineScope

/-- Issues that are reported one after another are appended; those that are no warnings count. -/
theorem foldl_report (scope : LineScope) (issues : List Issue) :
    issues.foldl report scope =
      { scope with
        document := scope.document.reportAll scope.context scope.line.number issues
        failures := scope.failures + issues.countP (!·.cause.isWarning) } := by
  induction issues generalizing scope with
  | nil => simp [Document.reportAll]
  | cons issue issues ih =>
      rw [List.foldl_cons, ih, List.countP_cons]
      cases hwarning : issue.cause.isWarning <;>
        simp [report, hwarning, Document.reportAll, Document.report, Issue.diagnostic,
          Nat.add_assoc, Nat.add_comm]

theorem commit_of_failures_ne_zero {scope : LineScope} (h : scope.failures ≠ 0)
    (keyword : List Char) : scope.commit keyword none = scope.document :=
  if_neg h

/-- After a fault nothing stands in. -/
theorem commit_foldl_report {issues : List Issue} (h : Faults issues) (scope : LineScope)
    (keyword : List Char) :
    (issues.foldl report scope).commit keyword none =
      scope.document.reportAll scope.context scope.line.number issues := by
  rw [foldl_report]
  refine commit_of_failures_ne_zero ?_ keyword
  -- One of the issues is no warning, and that one was counted.
  have hpos : 0 < issues.countP (!·.cause.isWarning) := by
    obtain ⟨issue, hissue⟩ := List.exists_mem_of_ne_nil issues h.ne_nil
    refine List.countP_pos_iff.mpr ⟨issue, hissue, ?_⟩
    simp [(h.isFault issue hissue).isWarning_eq_false]
  simp only
  omega

/-- Attached clauses are kept in order, and the others are reported in order. -/
theorem foldl_attach (line : DialogueLine) (scope : LineScope)
    (meanings : List (Except Issue Meaning)) :
    meanings.foldl attach (line, scope) =
      (⟨line.trigger,
        line.conditions ++ (meanings.filterMap Except.toOption).filterMap Meaning.condition?,
        line.consequences ++ (meanings.filterMap Except.toOption).filterMap Meaning.consequence?⟩,
        (meanings.filterMap Meaning.issue?).foldl report scope) := by
  induction meanings generalizing line scope with
  | nil => simp
  | cons meaning meanings ih =>
      cases meaning with
      | error issue => simp [attach, ih, List.filterMap_cons, Meaning.issue?, Except.toOption]
      | ok found =>
          cases found <;>
            simp [attach, ih, List.filterMap_cons, Meaning.issue?, Except.toOption,
              DialogueLine.attach, Meaning.condition?, Meaning.consequence?]

theorem commit_assignment (scope : LineScope) (key : AssignmentKey) (keyword : List Char)
    (hkey : StatementKind.ofLine? scope.text = some (.assignment key)) :
    (scope.assignment key).2.commit keyword (scope.assignment key).1 =
      scope.document.addReading scope.context scope.line.number
        (LineReading.ofLine scope.context scope.text) := by
  simp only [LineReading.ofLine, hkey, assignment]
  cases hline : Assignment.ofLine scope.text with
  | error column =>
      exact commit_foldl_report (faults_malformed key.expected_ne _ _) scope keyword
  | ok assignment =>
      have hends := key.statement_ends scope.context scope.text (Assignment.values_ne_nil hline)
      dsimp only
      cases hstatement : key.statement scope.context scope.text assignment with
      | error issues => exact commit_foldl_report (hends.error hstatement) scope keyword
      | ok statement =>
          dsimp only
          rw [foldl_report]
          rfl

theorem commit_dialogue (scope : LineScope) (keyword : List Char)
    (hkind : StatementKind.ofLine? scope.text = some .dialogue) :
    (ScanState.scanning.dialogue scope).2.2.commit keyword (ScanState.scanning.dialogue scope).1 =
      scope.document.addReading scope.context scope.line.number
        (LineReading.ofLine scope.context scope.text) := by
  simp only [LineReading.ofLine, hkind, ScanState.dialogue]
  cases hline : DialogueForm.ofLine scope.text with
  | error column =>
      exact commit_foldl_report (faults_malformed DialogueLine.expected_ne _ _) scope keyword
  | ok form =>
      -- The line is made whatever its clauses come to, so nothing can stand in here.
      simp only [ScanState.attach, foldl_attach, ScanState.close]
      rw [foldl_report]
      rfl

/-- Dialogue lines are closed before the line ends, whatever becomes of them. -/
theorem state_dialogue (scope : LineScope) :
    (ScanState.scanning.dialogue scope).2.1 = .scanning := by
  unfold ScanState.dialogue
  cases DialogueForm.ofLine scope.text with
  | error column => rfl
  | ok form => rfl

theorem state_read (scope : LineScope) (kind : StatementKind) :
    (ScanState.scanning.read scope kind).2.1 = .scanning := by
  cases kind with
  | dialogue => exact state_dialogue scope
  | empty | comment | assignment key => rfl

theorem commit_read (scope : LineScope) (keyword : List Char) {kind : StatementKind}
    (hkind : StatementKind.ofLine? scope.text = some kind) :
    (ScanState.scanning.read scope kind).2.2.commit keyword (ScanState.scanning.read scope kind).1 =
      scope.document.addReading scope.context scope.line.number
        (LineReading.ofLine scope.context scope.text) := by
  cases kind with
  | empty | comment =>
      simp [ScanState.read, commit, LineReading.ofLine, hkind, Document.addReading,
        Document.reportAll]
  | assignment key => exact scope.commit_assignment key keyword hkind
  | dialogue => exact scope.commit_dialogue keyword hkind

end LineScope

/-- Between statements, a line adds its reading to the document, and leaves the scanner there. -/
theorem Scanner.feed_scanning (context : Context) (document : Document) (line : SourceLine) :
    Scanner.feed context ⟨document, .scanning⟩ line =
      ⟨document.addReading context line.number (LineReading.ofLine context line.text.toList),
        .scanning⟩ := by
  let scope : LineScope := { context, line, document }
  cases hkind : StatementKind.ofLine? line.text.toList with
  | none =>
      simp [feed, hkind, LineReading.ofLine, Document.addReading, Document.reportAll,
        Document.report, Issue.diagnostic]
  | some kind =>
      have hcommit := scope.commit_read (leadingWord line.text.toList) hkind
      have hstate := scope.state_read kind
      simp only [feed, hkind]
      exact congrArg₂ Scanner.mk hcommit hstate

/-! ### What a document gains -/

namespace Document

/-- The second document holds what the first one holds and what a line came to: its statement is put
in among the entries, and its issues stand behind the diagnostics. -/
structure Gains (document : Document) (context : Context) (number : Nat) (reading : LineReading)
    (next : Document) : Prop where
  entries : next.entries.toList =
    merge document.entries.toList (reading.statement.map (⟨number, ·⟩)).toList
  diagnostics : next.diagnostics.toList =
    document.diagnostics.toList ++ reading.issues.map (Issue.diagnostic context number)

variable {document next : Document} {context : Context} {number : Nat} {reading : LineReading}

theorem toList_diagnostics_reportAll (document : Document) (context : Context) (number : Nat)
    (issues : List Issue) :
    (document.reportAll context number issues).diagnostics.toList =
      document.diagnostics.toList ++ issues.map (Issue.diagnostic context number) := by
  simp [reportAll]

theorem toList_diagnostics_addReading (document : Document) (context : Context) (number : Nat)
    (reading : LineReading) :
    (document.addReading context number reading).diagnostics.toList =
      document.diagnostics.toList ++ reading.issues.map (Issue.diagnostic context number) := by
  unfold addReading
  split
  · exact document.toList_diagnostics_reportAll context number reading.issues
  · rw [diagnostics_add]
    exact document.toList_diagnostics_reportAll context number reading.issues

theorem IsIndexed.reportAll (h : document.IsIndexed) (context : Context) (number : Nat)
    (issues : List Issue) : (document.reportAll context number issues).IsIndexed :=
  ⟨h.slots_eq, h.isDistinct⟩

theorem IsIndexed.addReading (h : document.IsIndexed) (context : Context) (number : Nat)
    (reading : LineReading) : (document.addReading context number reading).IsIndexed := by
  unfold Document.addReading
  split
  · exact h.reportAll context number reading.issues
  · exact (h.reportAll context number reading.issues).add number _

theorem IsIndexed.gains_addReading (h : document.IsIndexed) (context : Context) (number : Nat)
    (reading : LineReading) :
    document.Gains context number reading (document.addReading context number reading) := by
  refine ⟨?_, document.toList_diagnostics_addReading context number reading⟩
  obtain ⟨statement, issues⟩ := reading
  cases statement with
  | none => rfl
  | some statement => exact (h.reportAll context number issues).toList_entries_add number statement

/-- Dialogue lines have no slot, so one more stands at the end. -/
theorem put_dialogue (entries : List Entry) (number : Nat) (found : DialogueLine) :
    put entries ⟨number, .dialogue found⟩ = entries ++ [⟨number, .dialogue found⟩] :=
  put_of_not_isTaken fun htaken => htaken.1 rfl

theorem gains_dialogue (document : Document) (context : Context) (number : Nat)
    (found : DialogueLine) (issues : List Issue) :
    document.Gains context number ⟨some (.dialogue found), issues⟩
      ((document.reportAll context number issues).add number (.dialogue found)) :=
  ⟨Array.toList_push.trans (put_dialogue _ number found).symm,
    document.toList_diagnostics_reportAll context number issues⟩

theorem Gains.entries_eq_push {found : DialogueLine} {issues : List Issue}
    (h : document.Gains context number ⟨some (.dialogue found), issues⟩ next) :
    next.entries = document.entries.push ⟨number, .dialogue found⟩ := by
  rw [← Array.toList_inj, Array.toList_push, ← put_dialogue]
  exact h.entries

theorem Gains.entries_eq (h : document.Gains context number reading next)
    (hnone : reading.statement = none) : next.entries = document.entries := by
  have hentries := h.entries
  rw [hnone] at hentries
  exact Array.toList_inj.mp hentries

theorem Gains.mem_entries (h : document.Gains context number reading next) {statement : Statement}
    (hsome : reading.statement = some statement) : ⟨number, statement⟩ ∈ next.entries := by
  have hentries := h.entries
  rw [hsome] at hentries
  rw [← Array.mem_toList_iff, hentries]
  exact mem_put_self _ _

end Document

end NpcScript
