import NpcScript.Proofs.Likeness.Result
import NpcScript.Proofs.Script.Accepted

/-!
Comments behind statements. Two minus signs begin a comment wherever a statement could end, also
right behind its last word or number, and whatever stands behind them. A line that is accepted stays
accepted when a comment is added to it, and comes to the same. Only where an issue quotes the line
as a whole the comment is quoted with it.
-/

namespace NpcScript

open Grammar (Assignment DialogueForm Value)

/-! ### What is quoted of the line -/

/-- The cause, quoting this line if it quotes a line with an unknown item. -/
def Cause.requoted (line : List Char) : Cause → Cause
  | .unknownItem id _ => .unknownItem id (String.ofList (Text.trim line))
  | other => other

def Issue.requoted (line : List Char) (issue : Issue) : Issue :=
  ⟨issue.column, issue.cause.requoted line⟩

def LineReading.requoted (line : List Char) (reading : LineReading) : LineReading :=
  ⟨reading.statement, reading.issues.map (Issue.requoted line)⟩

/-- Whether an issue about an unknown item quotes the line as a whole. In dialogue lines it quotes
the argument that names the item. -/
def StatementKind.quotesLine : StatementKind → Bool
  | .assignment (.equipment _) | .assignment (.trade _) => true
  | _ => false

def Issue.SparesItem (issue : Issue) : Prop :=
  ∀ id text, issue.cause ≠ .unknownItem id text

theorem Issue.SparesItem.requoted {issue : Issue} (h : issue.SparesItem) (line : List Char) :
    issue.requoted line = issue := by
  obtain ⟨column, cause⟩ := issue
  cases cause with
  | unknownItem id text => exact absurd rfl (h id text)
  | _ => rfl

theorem malformed_sparesItem (keyword : List Char) (expected : String) (column : Nat) :
    (malformed keyword expected column).SparesItem := by
  rintro id text ⟨⟩

/-! ### Parts in which no item is looked up -/

section SparesItem

theorem NumericPlace.read_sparesItem (place : NumericPlace) (column : Nat) (text : List Char) :
    Ends (place.read column text) (fun _ => True) Issue.SparesItem := by
  simp only [read]
  split
  · rintro id text' ⟨⟩
  · split
    · exact True.intro
    · rintro id text' ⟨⟩

theorem Vocabulary.resolve_sparesItem (α : Type) [Vocabulary α] (field : String) (column : Nat)
    (token : List Char) :
    Ends (resolve α field column token) (fun _ => True) Issue.SparesItem := by
  unfold resolve
  split
  · exact True.intro
  · rintro id text ⟨⟩

theorem Grammar.Value.integer_sparesItem (place : NumericPlace) (value : Value) :
    Ends (value.integer place) (fun _ => True) Issue.SparesItem := by
  unfold integer
  split
  · exact place.read_sparesItem _ _
  · rintro id text ⟨⟩

theorem Grammar.Value.natural_sparesItem (place : NumericPlace) (value : Value) :
    Ends (value.natural place) (fun _ => True) Issue.SparesItem :=
  (integer_sparesItem place value).map fun _ _ => True.intro

theorem Grammar.Value.quotedText_sparesItem (keyword : List Char) (expected : String)
    (value : Value) :
    Ends (value.quotedText keyword expected) (fun _ => True) Issue.SparesItem := by
  unfold quotedText
  split
  · exact True.intro
  · exact malformed_sparesItem _ _ _

theorem Grammar.Assignment.single_sparesItem (assignment : Assignment) (expected : String) :
    Ends (assignment.single expected) (fun _ => True) Issue.SparesItem := by
  unfold single
  split
  · exact True.intro
  · exact malformed_sparesItem _ _ _

theorem Grammar.Assignment.localizedText_sparesItem (assignment : Assignment)
    (expected : String) :
    Ends (assignment.localizedText expected) (fun _ => True) Issue.SparesItem := by
  unfold localizedText
  split
  · refine (Value.quotedText_sparesItem _ _ _).bind fun german _ => ?_
    exact (Value.quotedText_sparesItem _ _ _).bind fun english _ => True.intro
  · exact malformed_sparesItem _ _ _

theorem TradeTerm.onlyArgument_sparesItem (name : List Char) (column : Nat)
    (arguments : List Value) :
    Ends (onlyArgument name column arguments) (fun _ => True) Issue.SparesItem := by
  unfold onlyArgument
  split
  · exact True.intro
  · exact malformed_sparesItem _ _ _

theorem TradeTerm.ofValue_sparesItem (keyword : List Char) (expected : String) (value : Value) :
    Ends (ofValue keyword expected value) (fun _ => True) Issue.SparesItem := by
  cases value with
  | quoted source | number source | word source => exact malformed_sparesItem _ _ _
  | call source name arguments =>
      refine (Vocabulary.resolve_sparesItem _ _ _ _).bind fun property _ => ?_
      have hsingle := onlyArgument_sparesItem name source.column arguments
      cases property with
      | de | us =>
          refine hsingle.bind fun value _ => ?_
          exact (value.quotedText_sparesItem _ _).bind fun text _ => True.intro
      | price | stack | quality =>
          refine hsingle.bind fun value _ => ?_
          exact (value.natural_sparesItem _).bind fun number _ => True.intro
      | data =>
          dsimp only
          split
          · refine (Value.quotedText_sparesItem _ _ _).bind fun key _ => ?_
            exact (Value.quotedText_sparesItem _ _ _).bind fun value _ => True.intro
          · exact malformed_sparesItem _ _ _

end SparesItem

/-- The warnings of a statement are about quotes. -/
theorem sparesItem_of_mem_warnings {key : AssignmentKey} {assignment : Assignment} {issue : Issue}
    (h : issue ∈ key.warnings assignment) : issue.SparesItem := by
  intro id text hcause
  have hwarning := AssignmentKey.isWarning_of_mem_warnings h
  rw [hcause] at hwarning
  cases hwarning

/-! ### Statements that quote another line -/

def Issue.IsRequoted (line : List Char) (issue issue' : Issue) : Prop :=
  issue.requoted line = issue'

theorem Agree.of_sparesItem {α : Type} {result : Except Issue α}
    (h : Ends result (fun _ => True) Issue.SparesItem) (line : List Char) :
    Agree Eq (Issue.IsRequoted line) result result := by
  cases result with
  | ok a => exact .ok rfl
  | error issue => exact .error (h.requoted line)

section Requoted

variable (context : Context) (line line' : List Char)

theorem Context.item_requoted (column : Nat) (text : List Char) :
    Agree Eq (Issue.IsRequoted line') (context.item line column text)
      (context.item line' column text) := by
  refine (Agree.of_sparesItem (NumericPlace.itemId.read_sparesItem column text) line').bindEq
    fun value => ?_
  dsimp only
  split
  · exact .ok rfl
  · exact .error rfl

theorem EquipmentSlot.itemOfAssignment_requoted (assignment : Assignment) :
    Agree Eq (Issue.IsRequoted line') (itemOfAssignment context line assignment)
      (itemOfAssignment context line' assignment) := by
  refine (Agree.of_sparesItem (assignment.single_sparesItem _) line').bindEq fun value => ?_
  refine (Agree.of_sparesItem (value.integer_sparesItem _) line').bindEq fun id => ?_
  split
  · exact .ok rfl
  · exact (context.item_requoted line line' _ _).bindEq fun item => .ok rfl

theorem tradedItemOfValue_requoted (keyword : List Char) (expected : String) (value : Value) :
    Agree Eq (Issue.IsRequoted line') (tradedItemOfValue context line keyword expected value)
      (tradedItemOfValue context line' keyword expected value) := by
  cases value with
  | number source => exact context.item_requoted line line' _ _
  | quoted source | word source | call source name arguments =>
      exact .error ((malformed_sparesItem _ _ _).requoted line')

theorem Trade.ofAssignment_requoted (form : TradeForm) (assignment : Assignment) :
    Agree Eq (List.Forall₂ (Issue.IsRequoted line')) (ofAssignment context line form assignment)
      (ofAssignment context line' form assignment) := by
  have hitem := tradedItemOfValue_requoted context line line' assignment.key form.expected
  cases form with
  | list mode => exact (Agree.eachEq hitem assignment.values).mapEq _
  | single mode =>
      simp only [ofAssignment]
      split
      · exact .error (.cons ((malformed_sparesItem _ _ _).requoted line') .nil)
      · rename_i first others hvalues
        have hterms := Agree.eachEq (fun value => Agree.of_sparesItem
          (TradeTerm.ofValue_sparesItem assignment.key (TradeForm.single mode).expected value)
          line') others
        refine ((Agree.ofPart (hitem first)).both hterms).map ?_
        rintro ⟨item, terms⟩ ⟨item', terms'⟩ ⟨rfl, rfl⟩
        rfl
  | message kind =>
      exact (Agree.of_sparesItem (assignment.localizedText_sparesItem _) line').ofPart.mapEq _

/-- The line takes part in a statement only as what is quoted of it. -/
theorem AssignmentKey.statement_requoted {key : AssignmentKey} (assignment : Assignment)
    (hquotes : (StatementKind.assignment key).quotesLine = true) :
    Agree Eq (List.Forall₂ (Issue.IsRequoted line')) (key.statement context line assignment)
      (key.statement context line' assignment) := by
  cases key with
  | equipment slot =>
      exact (EquipmentSlot.itemOfAssignment_requoted context line line' assignment).ofPart.mapEq _
  | trade key => exact (Trade.ofAssignment_requoted context line line' _ assignment).mapEq _
  | identity key | appearance key | guard key | cycleText => cases hquotes

theorem AssignmentKey.statement_eq {key : AssignmentKey} (assignment : Assignment)
    (hquotes : (StatementKind.assignment key).quotesLine = false) :
    key.statement context line' assignment = key.statement context line assignment := by
  cases key with
  | equipment slot | trade key => cases hquotes
  | identity key | appearance key | guard key | cycleText => rfl

/-- What an assignment comes to in another line: the same, quoting the other line. -/
theorem LineReading.ofAssignment_eq (key : AssignmentKey) (assignment : Assignment) :
    ofAssignment context line' key assignment =
      if (StatementKind.assignment key).quotesLine then
        (ofAssignment context line key assignment).requoted line'
      else ofAssignment context line key assignment := by
  cases hquotes : (StatementKind.assignment key).quotesLine with
  | false =>
      simp only [ofAssignment, AssignmentKey.statement_eq context line line' assignment hquotes]
      rfl
  | true =>
      have hstatement := AssignmentKey.statement_requoted context line line' assignment hquotes
      have hwarnings : (key.warnings assignment).map (Issue.requoted line') =
          key.warnings assignment := by
        refine (List.map_congr_left fun issue hissue => ?_).trans (List.map_id _)
        exact Issue.SparesItem.requoted (sparesItem_of_mem_warnings hissue) line'
      simp only [ofAssignment, if_true]
      generalize key.statement context line assignment = result at hstatement
      generalize key.statement context line' assignment = result' at hstatement
      cases hstatement with
      | ok h =>
          subst h
          exact congrArg (LineReading.mk _) hwarnings.symm
      | @error issues issues' h =>
          have hissues : List.Forall₂ Eq (issues.map (Issue.requoted line')) issues' :=
            List.forall₂_map_left_iff.mpr h
          rw [List.forall₂_eq_eq_eq] at hissues
          exact congrArg (LineReading.mk none) hissues.symm

end Requoted

/-- A comment behind a statement changes nothing. When two minus signs and any text are added to a
line that its kind accepts, the line is sorted as the same kind and accepted as well; it adds the
same statement and reports the same issues at the same columns. Only where a statement about
equipment or trade has an issue that quotes the line as a whole, it quotes the longer line. -/
theorem Scanner.feed_commented (context : Context) {line line' : SourceLine} {text : List Char}
    {kind : StatementKind} (hline' : line'.text.toList = line.text.toList ++ '-' :: '-' :: text)
    (hkind : StatementKind.ofLine? line.text.toList = some kind)
    (haccepts : kind.Accepts line.text.toList) :
    StatementKind.ofLine? line'.text.toList = some kind ∧ kind.Accepts line'.text.toList ∧
      ∃ reading : LineReading, ∀ document,
        feed context ⟨document, .scanning⟩ line =
          ⟨document.addReading context line.number reading, .scanning⟩ ∧
        feed context ⟨document, .scanning⟩ line' =
          ⟨document.addReading context line'.number
            (if kind.quotesLine then reading.requoted line'.text.toList else reading),
            .scanning⟩ := by
  suffices hlater : StatementKind.ofLine? line'.text.toList = some kind ∧
      kind.Accepts line'.text.toList ∧
      LineReading.ofLine context line'.text.toList =
        if kind.quotesLine then
          (LineReading.ofLine context line.text.toList).requoted line'.text.toList
        else LineReading.ofLine context line.text.toList by
    obtain ⟨hkind', haccepts', hreading⟩ := hlater
    refine ⟨hkind', haccepts', _, fun document => ⟨feed_scanning context document line, ?_⟩⟩
    rw [feed_scanning, hreading]
  have hcomment : Grammar.IsEnding ('-' :: '-' :: text) := .comment Grammar.isGap_nil text
  cases kind with
  | empty | comment => exact haccepts.elim
  | assignment key =>
      obtain ⟨assignment, hassignment⟩ := haccepts
      have hwritten := Assignment.isWritten_of_ofLine hassignment
      have hwritten' := hwritten.append_ending hcomment
      rw [← hline'] at hwritten'
      have hassignment' := hwritten'.ofLine
      have hkind' : StatementKind.ofLine? line'.text.toList = some (.assignment key) := by
        rw [StatementKind.ofLine?_of_assignment hwritten',
          ← StatementKind.ofLine?_of_assignment hwritten, hkind]
      refine ⟨hkind', ⟨assignment, hassignment'⟩, ?_⟩
      rw [LineReading.ofLine_of_assignment context hkind' hassignment',
        LineReading.ofLine_of_assignment context hkind hassignment]
      exact LineReading.ofAssignment_eq context _ _ key assignment
  | dialogue =>
      obtain ⟨form, hform⟩ := haccepts
      have hform' : DialogueForm.ofLine line'.text.toList = .ok form := by
        rw [DialogueForm.ofLine_iff_isSpelt] at hform ⊢
        rw [hline']
        exact hform.append_ending hcomment
      refine ⟨DialogueForm.ofLine?_of_ofLine hform', ⟨form, hform'⟩, ?_⟩
      rw [LineReading.ofLine_of_form context hform', LineReading.ofLine_of_form context hform]
      rfl

/-- The comment stands right behind a number, and is quoted with the line. -/
theorem Scanner.feed_commented_itemHead :
    let context : Context := { items := {}, skills := {} }
    let line : SourceLine := ⟨1, "itemHead = 7"⟩
    let line' : SourceLine := ⟨1, "itemHead = 7-->\"hi\", -5 = "⟩
    (feed context {} line).document.diagnostics.toList.map
        (fun diagnostic => (diagnostic.column, diagnostic.cause)) =
      [(some 12, .unknownItem 7 "itemHead = 7")] ∧
    (feed context {} line').document.diagnostics.toList.map
        (fun diagnostic => (diagnostic.column, diagnostic.cause)) =
      [(some 12, .unknownItem 7 "itemHead = 7-->\"hi\", -5 =")] ∧
    ∃ reading : LineReading, ∀ document,
      feed context ⟨document, .scanning⟩ line =
        ⟨document.addReading context 1 reading, .scanning⟩ ∧
      feed context ⟨document, .scanning⟩ line' =
        ⟨document.addReading context 1 (reading.requoted line'.text.toList), .scanning⟩ := by
  intro context line line'
  have haccepts : (StatementKind.assignment (.equipment .head)).Accepts line.text.toList := by
    have hsome : (Assignment.ofLine line.text.toList).toOption.isSome = true := by decide +kernel
    cases hline : Assignment.ofLine line.text.toList with
    | error column =>
        rw [hline] at hsome
        cases hsome
    | ok assignment => exact ⟨assignment, hline⟩
  have hline' : line'.text.toList =
      line.text.toList ++ '-' :: '-' :: ">\"hi\", -5 = ".toList := by decide +kernel
  have hkind : StatementKind.ofLine? line.text.toList = some (.assignment (.equipment .head)) := by
    decide +kernel
  obtain ⟨-, -, hreading⟩ := feed_commented context hline' hkind haccepts
  exact ⟨by decide +kernel, by decide +kernel, hreading⟩

end NpcScript
