import NpcScript.Proofs.Script.Line

/-!
The outcomes of a line. A line either makes its statement or says why it does not: no reader gives
up without an issue, and none reports a fault of a statement that is kept. The issue that would
stand in for a silent failure is therefore never reported.
-/

namespace NpcScript

open Grammar (Assignment DialogueForm)

namespace LineReading

/-- No kind of statement claims the line. -/
structure IsUnclaimed (reading : LineReading) (text : List Char) : Prop where
  statement : reading.statement = none
  issues : reading.issues = [⟨none, .unparseableLine (String.ofList (Text.trim text))⟩]

/-- The grammar does not accept the line as a statement with this keyword. -/
structure IsRejected (reading : LineReading) (keyword : List Char) (column : Nat) : Prop where
  statement : reading.statement = none
  issues : ∃ expected,
    reading.issues = [⟨some column, .malformedStatement (String.ofList keyword) expected⟩]

/-- There is a statement, and at most warnings about it. -/
structure IsKept (reading : LineReading) : Prop where
  statement : reading.statement.isSome
  issues : ∀ issue ∈ reading.issues, ∃ field text, issue.cause = .suspiciousQuote field text

/-- There is no statement, and the reasons are no warnings. -/
structure IsDropped (reading : LineReading) : Prop where
  statement : reading.statement = none
  ne_nil : reading.issues ≠ []
  isWarning : ∀ issue ∈ reading.issues, issue.cause.isWarning = false

def IsOutcome (reading : LineReading) (text : List Char) : StatementKind → Prop
  | .empty | .comment => reading.IsKept
  | .assignment _ =>
    (reading.IsKept ∨ reading.IsDropped) ∧
      ∀ column, Assignment.ofLine text = .error column →
        reading.IsRejected (leadingWord text) column
  | .dialogue =>
    match DialogueForm.ofLine text with
    | .error column => reading.IsRejected "dialogue".toList column
    | .ok _ => ∃ line, reading.statement = some (.dialogue line)

def SparesLine (reading : LineReading) : Prop :=
  ∀ issue ∈ reading.issues, ∀ text, issue.cause ≠ .unparseableLine text

/-- No issue stands in for another one. -/
def HasNoStandIn (reading : LineReading) : Prop :=
  ∀ issue ∈ reading.issues, ∀ keyword, issue.cause ≠ .malformedStatement keyword completeStatement

/-- All issues are about parts of the line: they are faults of parts, or warnings. -/
def ConcernsParts (reading : LineReading) : Prop :=
  ∀ issue ∈ reading.issues, issue.IsFault ∨ issue.cause.isWarning = true

variable {reading : LineReading}

theorem ConcernsParts.sparesLine (h : reading.ConcernsParts) : reading.SparesLine := by
  intro issue hissue text hcause
  rcases h issue hissue with hfault | hwarning
  · rw [Issue.IsFault, hcause] at hfault
    exact hfault
  · rw [hcause] at hwarning
    cases hwarning

theorem ConcernsParts.hasNoStandIn (h : reading.ConcernsParts) : reading.HasNoStandIn := by
  intro issue hissue keyword hcause
  rcases h issue hissue with hfault | hwarning
  · rw [Issue.IsFault, hcause] at hfault
    exact hfault rfl
  · rw [hcause] at hwarning
    cases hwarning

/-! ### The outcome of each kind -/

theorem exists_eq_suspiciousQuote {cause : Cause} (h : cause.isWarning = true) :
    ∃ field text, cause = .suspiciousQuote field text := by
  cases cause with
  | suspiciousQuote field text => exact ⟨field, text, rfl⟩
  | _ => cases h

theorem isKept_of_isWarning {statement : Statement} {issues : List Issue}
    (h : ∀ issue ∈ issues, issue.cause.isWarning = true) : IsKept ⟨some statement, issues⟩ :=
  ⟨rfl, fun issue hissue => exists_eq_suspiciousQuote (h issue hissue)⟩

theorem isDropped_of_faults {issues : List Issue} (h : Faults issues) :
    IsDropped ⟨none, issues⟩ :=
  ⟨rfl, h.ne_nil, fun issue hissue => (h.isFault issue hissue).isWarning_eq_false⟩

variable (context : Context) {text : List Char}

theorem ofLine_assignment {key : AssignmentKey}
    (hkind : StatementKind.ofLine? text = some (.assignment key)) :
    (ofLine context text).IsOutcome text (.assignment key) ∧
      (ofLine context text).ConcernsParts := by
  simp only [ofLine, hkind, IsOutcome]
  cases hline : Assignment.ofLine text with
  | error column =>
      have hfaults := faults_malformed key.expected_ne (leadingWord text) column
      refine ⟨⟨.inr (isDropped_of_faults hfaults), ?_⟩, ?_⟩
      · intro column' hcolumn
        cases hcolumn
        exact ⟨rfl, key.expected, rfl⟩
      · intro issue hissue
        exact .inl (hfaults.isFault issue hissue)
  | ok assignment =>
      have hends := key.statement_ends context text (Assignment.values_ne_nil hline)
      dsimp only
      cases hstatement : key.statement context text assignment with
      | error issues =>
          have hfaults := hends.error hstatement
          refine ⟨⟨.inr (isDropped_of_faults hfaults), ?_⟩, ?_⟩
          · intro column hcolumn
            cases hcolumn
          · intro issue hissue
            exact .inl (hfaults.isFault issue hissue)
      | ok statement =>
          have hwarnings : ∀ issue ∈ key.warnings assignment, issue.cause.isWarning = true :=
            fun issue hissue => AssignmentKey.isWarning_of_mem_warnings hissue
          refine ⟨⟨.inl (isKept_of_isWarning hwarnings), ?_⟩, ?_⟩
          · intro column hcolumn
            cases hcolumn
          · intro issue hissue
            exact .inr (hwarnings issue hissue)

theorem ofLine_dialogue (hkind : StatementKind.ofLine? text = some .dialogue) :
    (ofLine context text).IsOutcome text .dialogue ∧ (ofLine context text).ConcernsParts := by
  simp only [ofLine, hkind, IsOutcome]
  cases hline : DialogueForm.ofLine text with
  | error column =>
      have hfaults := faults_malformed DialogueLine.expected_ne "dialogue".toList column
      refine ⟨⟨rfl, DialogueLine.expected, rfl⟩, ?_⟩
      intro issue hissue
      exact .inl (hfaults.isFault issue hissue)
  | ok form =>
      have hformed := DialogueForm.isFormed_of_ofLine hline
      refine ⟨⟨form.line context, rfl⟩, ?_⟩
      intro issue hissue
      exact .inl (form.isFault_of_mem_issues context hformed hissue)

/-- The reading of a line that is claimed is an outcome of its kind. -/
theorem ofLine_isOutcome {kind : StatementKind} (hkind : StatementKind.ofLine? text = some kind) :
    (ofLine context text).IsOutcome text kind ∧ (ofLine context text).ConcernsParts := by
  cases kind with
  | empty | comment =>
      simp only [ofLine, hkind]
      exact ⟨isKept_of_isWarning (by simp), by simp [ConcernsParts]⟩
  | assignment key => exact ofLine_assignment context hkind
  | dialogue => exact ofLine_dialogue context hkind

/-- Whatever the line, its reading is one of the outcomes of its kind, and nothing stands in. -/
theorem ofLine_outcome (text : List Char) :
    let reading := ofLine context text
    reading.HasNoStandIn ∧
      match StatementKind.ofLine? text with
      | none => reading.IsUnclaimed text
      | some kind => reading.IsOutcome text kind ∧ reading.SparesLine := by
  intro reading
  cases hkind : StatementKind.ofLine? text with
  | none =>
      -- The one issue is about the line as a whole, so it is no fault and no warning.
      simp only [reading, ofLine, hkind]
      refine ⟨?_, rfl, rfl⟩
      intro issue hissue keyword hcause
      rw [List.mem_singleton.mp hissue] at hcause
      cases hcause
  | some kind =>
      obtain ⟨houtcome, hparts⟩ := ofLine_isOutcome context hkind
      exact ⟨hparts.hasNoStandIn, houtcome, hparts.sparesLine⟩

end LineReading

/-- Feeding a line to a document has exactly one of the outcomes of the line's kind. -/
theorem Scanner.feed_outcome (context : Context) (document : Document) (line : SourceLine) :
    ∃ reading : LineReading,
      Scanner.feed context ⟨document, .scanning⟩ line =
        ⟨document.addReading context line.number reading, .scanning⟩ ∧
      reading.HasNoStandIn ∧
      match StatementKind.ofLine? line.text.toList with
      | none => reading.IsUnclaimed line.text.toList
      | some kind => reading.IsOutcome line.text.toList kind ∧ reading.SparesLine :=
  ⟨_, feed_scanning context document line, LineReading.ofLine_outcome context line.text.toList⟩

/-- What the document then holds. The statement of the line is one of its entries, and without a
statement the entries are what they were; the diagnostics of the line stand behind the others. -/
theorem Scanner.exists_gains_outcome (context : Context) {document : Document}
    (h : document.IsIndexed) (line : SourceLine) :
    ∃ (reading : LineReading) (next : Document),
      feed context ⟨document, .scanning⟩ line = ⟨next, .scanning⟩ ∧ next.IsIndexed ∧
      document.Gains context line.number reading next ∧
      (reading.statement = none → next.entries = document.entries) ∧
      (∀ statement, reading.statement = some statement →
        ⟨line.number, statement⟩ ∈ next.entries) ∧
      reading.HasNoStandIn ∧
      match StatementKind.ofLine? line.text.toList with
      | none => reading.IsUnclaimed line.text.toList
      | some kind => reading.IsOutcome line.text.toList kind ∧ reading.SparesLine := by
  have hgains := h.gains_addReading context line.number
    (LineReading.ofLine context line.text.toList)
  exact ⟨_, _, feed_scanning context document line, h.addReading context line.number _, hgains,
    hgains.entries_eq, fun _ => hgains.mem_entries,
    LineReading.ofLine_outcome context line.text.toList⟩

end NpcScript
