import NpcScript.Proofs.Grammar.Recasing
import NpcScript.Proofs.Likeness.Line
import NpcScript.Proofs.Script.Locality
import NpcScript.Proofs.Statement.Caseless

/-!
Scripts in another letter case. String literals mean what they say letter by letter, and an
expression is kept as it is written; of everything else in a line the letter case is ignored, from
the first keyword to the last operand. So two spellings of a line that share their string literals
come to the same statement and to the same issues, up to the case of what is quoted of the line.
-/

namespace NpcScript

open Text
open Grammar (Lexeme Value Assignment Argument KeywordClause Clause DialogueForm)

/-! ### String literals of a line -/

namespace Grammar

mutual

def Value.literals : Value → List Lexeme
  | .quoted source => [source]
  | .number _ | .word _ => []
  | .call _ _ arguments => Value.literalsOfAll arguments

def Value.literalsOfAll : List Value → List Lexeme
  | [] => []
  | value :: others => value.literals ++ Value.literalsOfAll others

end

def Argument.literals : Argument → List Lexeme
  | .quoted source => [source]
  | .operand _ | .comparison _ _ => []

def Clause.literals : Clause → List Lexeme
  | .answer source => [source]
  | .keyword clause => clause.argumentList.flatMap Argument.literals

def DialogueForm.literals (form : DialogueForm) : List Lexeme :=
  form.trigger :: (form.before.flatMap Clause.literals ++ form.after.flatMap Clause.literals)

end Grammar

def literalsOfLine (line : List Char) : List Lexeme :=
  match StatementKind.ofLine? line with
  | some (.assignment _) =>
    match Assignment.ofLine line with
    | .ok assignment => Value.literalsOfAll assignment.values
    | .error _ => []
  | some .dialogue =>
    match DialogueForm.ofLine line with
    | .ok form => form.literals
    | .error _ => []
  | _ => []

/-! ### Lines that share their literals -/

/-- The columns and the string literals are the same, and other texts are the same up to letter
case. -/
def Likeness.recased : Likeness where
  column := Eq
  fold := Char.toLower
  isRecasing := .toLower
  literal := fun source source' => source.text = source'.text

theorem Likeness.recased_keepsLiterals : Likeness.recased.KeepsLiterals :=
  fun _ _ h => h

namespace Grammar

variable {line' : List Char}

theorem Lexeme.Alike.recased {source source' : Lexeme}
    (h : source.Alike (.spelling line') source') : source.Alike .recased source' :=
  ⟨h.column, h.text⟩

theorem Lexeme.AlikeLiteral.recased {source source' : Lexeme}
    (h : source.AlikeLiteral (.spelling line') source') (hstands : source.StandsIn line') :
    source.AlikeLiteral .recased source' :=
  ⟨h.toAlike.recased, h.literal hstands⟩

mutual

theorem Value.Alike.recased (value : Value) {value' : Value}
    (h : value.Alike (.spelling line') value')
    (hliterals : ∀ source ∈ value.literals, source.StandsIn line') :
    value.Alike .recased value' := by
  cases h with
  | quoted hsource => exact .quoted (hsource.recased (hliterals _ (by simp [literals])))
  | number hsource => exact .number hsource.recased
  | word hsource => exact .word hsource.recased
  | @call source source' name name' arguments arguments' hsource hname harguments =>
      rw [literals] at hliterals
      exact .call hsource.recased hname (Value.recasedAll arguments harguments hliterals)

theorem Value.recasedAll (values : List Value) {values' : List Value}
    (h : List.Forall₂ (Value.Alike (.spelling line')) values values')
    (hliterals : ∀ source ∈ Value.literalsOfAll values, source.StandsIn line') :
    List.Forall₂ (Value.Alike .recased) values values' := by
  cases h with
  | nil => exact .nil
  | @cons value value' others others' hvalue hothers =>
      simp only [literalsOfAll, List.mem_append] at hliterals
      refine .cons (Value.Alike.recased value hvalue fun source h => hliterals source (.inl h)) ?_
      exact Value.recasedAll others hothers fun source h => hliterals source (.inr h)

end

/-- Members of two lists are alike more closely if what they hold allows it. -/
theorem forall₂_recased {α : Type} {related closer : α → α → Prop} {literals : α → List Lexeme}
    (hmember : ∀ a a', related a a' → (∀ source ∈ literals a, source.StandsIn line') → closer a a')
    {as as' : List α} (h : List.Forall₂ related as as')
    (hliterals : ∀ source ∈ as.flatMap literals, source.StandsIn line') :
    List.Forall₂ closer as as' := by
  induction h with
  | nil => exact .nil
  | cons ha hothers ih =>
      simp only [List.flatMap_cons, List.mem_append] at hliterals
      refine .cons (hmember _ _ ha fun source h => hliterals source (.inl h)) ?_
      exact ih fun source h => hliterals source (.inr h)

theorem Comparison.Alike.recased {comparison comparison' : Comparison}
    (h : comparison.Alike (.spelling line') comparison') : comparison.Alike .recased comparison' :=
  ⟨h.operator.recased, h.operand.recased⟩

theorem Argument.Alike.recased (argument argument' : Argument)
    (h : argument.Alike (.spelling line') argument')
    (hliterals : ∀ source ∈ argument.literals, source.StandsIn line') :
    argument.Alike .recased argument' := by
  cases h with
  | quoted hsource => exact .quoted (hsource.recased (hliterals _ (by simp [literals])))
  | operand hsource => exact .operand hsource.recased
  | comparison hsubject hfound => exact .comparison hsubject.recased hfound.recased

theorem Clause.Alike.recased (clause clause' : Clause) (h : clause.Alike (.spelling line') clause')
    (hliterals : ∀ source ∈ clause.literals, source.StandsIn line') :
    clause.Alike .recased clause' := by
  cases h with
  | answer hsource => exact .answer (hsource.recased (hliterals _ (by simp [literals])))
  | @keyword clause clause' hclause =>
      obtain ⟨hkeyword, harguments, hcomparison⟩ := hclause
      obtain ⟨keyword, arguments, comparison⟩ := clause
      obtain ⟨keyword', arguments', comparison'⟩ := clause'
      refine .keyword ⟨hkeyword.recased, ?_, ?_⟩
      · cases harguments with
        | none => exact .none
        | some harguments =>
            exact .some (forall₂_recased Argument.Alike.recased harguments hliterals)
      · cases hcomparison with
        | none => exact .none
        | some hfound => exact .some hfound.recased

theorem DialogueForm.Alike.recased {form form' : DialogueForm}
    (h : form.Alike (.spelling line') form')
    (hliterals : ∀ source ∈ form.literals, source.StandsIn line') :
    form.Alike .recased form' := by
  simp only [literals, List.mem_cons, List.mem_append] at hliterals
  refine ⟨h.trigger.recased (hliterals _ (.inl rfl)), ?_, ?_⟩
  · exact forall₂_recased Clause.Alike.recased h.before
      fun source h => hliterals source (.inr (.inl h))
  · exact forall₂_recased Clause.Alike.recased h.after
      fun source h => hliterals source (.inr (.inr h))

end Grammar

/-! ### Readings up to letter case -/

def Issue.mapText (f : Char → Char) (issue : Issue) : Issue :=
  ⟨issue.column, issue.cause.mapText f⟩

/-- The reading with its expressions, and what its issues quote, rewritten. -/
def LineReading.mapText (f : Char → Char) (reading : LineReading) : LineReading :=
  ⟨reading.statement.map (Statement.mapText f), reading.issues.map (Issue.mapText f)⟩

theorem Issue.mapText_eq {issue issue' : Issue} (h : issue.Alike .recased issue') :
    issue.mapText Char.toLower = issue'.mapText Char.toLower := by
  obtain ⟨⟨c, c', hc, hc', hcolumn⟩, hcause⟩ := h
  obtain rfl : c = c' := hcolumn
  unfold mapText
  rw [hc, hc']
  exact congrArg _ hcause

theorem Issue.map_mapText_eq {issues issues' : List Issue}
    (h : List.Forall₂ (Issue.Alike .recased) issues issues') :
    issues.map (mapText Char.toLower) = issues'.map (mapText Char.toLower) := by
  rw [← List.forall₂_eq_eq_eq]
  exact List.rel_map (fun _ _ hissue => mapText_eq hissue) h

theorem LineReading.mapText_eq {reading reading' : LineReading}
    (h : reading.Alike .recased reading') :
    reading.mapText Char.toLower = reading'.mapText Char.toLower :=
  congrArg₂ LineReading.mk h.statement (Issue.map_mapText_eq h.issues)

/-! ### Lines -/

namespace LineReading

variable {line line' : List Char} (hcase : lower line = lower line')

include hcase

omit hcase in
theorem malformed_recased {keyword keyword' : List Char} (hkeyword : lower keyword = lower keyword')
    (expected : String) (column : Nat) :
    (⟨none, [malformed keyword expected column]⟩ : LineReading).mapText Char.toLower =
      (⟨none, [malformed keyword' expected column]⟩ : LineReading).mapText Char.toLower := by
  have hissue := malformed_alike (L := .recased) hkeyword expected (c := column) rfl
  exact congrArg (LineReading.mk none) (Issue.map_mapText_eq (.cons hissue .nil))

theorem assignment_recased (context : Context) {key : AssignmentKey}
    (hkind : StatementKind.ofLine? line = some (.assignment key))
    (hliterals : ∀ source ∈ literalsOfLine line, source.StandsIn line') :
    (ofLine context line).mapText Char.toLower = (ofLine context line').mapText Char.toLower := by
  have hkind' := (StatementKind.ofLine?_eq hcase).symm.trans hkind
  have hleading : lower (leadingWord line) = lower (leadingWord line') := by
    rw [← leadingWord_lower, hcase, leadingWord_lower]
  have hagree := Assignment.ofLine_recased hcase
  simp only [literalsOfLine, hkind] at hliterals
  simp only [ofLine, hkind, hkind']
  generalize Assignment.ofLine line = result at hagree hliterals
  generalize Assignment.ofLine line' = result' at hagree
  cases hagree with
  | error hcolumn =>
      subst hcolumn
      exact malformed_recased hleading _ _
  | @ok assignment assignment' halike =>
      have halike : assignment.Alike .recased assignment' :=
        ⟨halike.key, Value.recasedAll _ halike.values hliterals, halike.ne_nil⟩
      exact mapText_eq (ofAssignment_alike halike Likeness.recased_keepsLiterals context
        (Likeness.SameText.trim hcase) key)

theorem dialogue_recased (context : Context)
    (hkind : StatementKind.ofLine? line = some .dialogue)
    (hliterals : ∀ source ∈ literalsOfLine line, source.StandsIn line') :
    (ofLine context line).mapText Char.toLower = (ofLine context line').mapText Char.toLower := by
  have hkind' := (StatementKind.ofLine?_eq hcase).symm.trans hkind
  have hagree := DialogueForm.ofLine_recased hcase
  simp only [literalsOfLine, hkind] at hliterals
  simp only [ofLine, hkind, hkind']
  generalize DialogueForm.ofLine line = result at hagree hliterals
  generalize DialogueForm.ofLine line' = result' at hagree
  cases hagree with
  | error hcolumn =>
      subst hcolumn
      rfl
  | ok halike =>
      exact mapText_eq (DialogueForm.ofForm_alike (halike.recased hliterals)
        Likeness.recased_keepsLiterals context)

/-- Comments are kept as they are written. Every other line is read alike in all its spellings that
have its string literals in the same places. -/
theorem ofLine_recased (context : Context)
    (hcomment : StatementKind.ofLine? line ≠ some .comment)
    (hliterals : ∀ source ∈ literalsOfLine line, source.StandsIn line') :
    (ofLine context line).mapText Char.toLower = (ofLine context line').mapText Char.toLower := by
  have hsame := StatementKind.ofLine?_eq hcase
  cases hkind : StatementKind.ofLine? line with
  | none =>
      have htrim : lower (trim line) = lower (trim line') := by
        rw [← trim_lower, hcase, trim_lower]
      have htext := congrArg String.ofList htrim
      simp only [lower, ← string_map_ofList] at htext
      simp only [ofLine, ← hsame, hkind, mapText, Issue.mapText, Cause.mapText, List.map_cons,
        htext]
  | some kind =>
      cases kind with
      | empty => simp only [ofLine, ← hsame, hkind]
      | comment => exact absurd hkind hcomment
      | assignment key => exact assignment_recased hcase context hkind hliterals
      | dialogue => exact dialogue_recased hcase context hkind hliterals

end LineReading

namespace Scanner

/-- No letter case matters from the first keyword of a line to its last operand. A line is sorted as
the same kind of statement in every spelling. In two spellings that have the same string literals it
states the same, up to the case of letters in expressions, and has the same issues at the same
columns in the same order, up to the case of what they quote of the line. -/
theorem feed_recased (context : Context) :
    (∀ text text', lower text = lower text' →
      StatementKind.ofLine? text = StatementKind.ofLine? text') ∧
    ∀ line line' : SourceLine, lower line.text.toList = lower line'.text.toList →
      StatementKind.ofLine? line.text.toList ≠ some .comment →
      (∀ source ∈ literalsOfLine line.text.toList, source.StandsIn line'.text.toList) →
      ∃ reading reading' : LineReading,
        reading.mapText Char.toLower = reading'.mapText Char.toLower ∧ ∀ document,
          feed context ⟨document, .scanning⟩ line =
            ⟨document.addReading context line.number reading, .scanning⟩ ∧
          feed context ⟨document, .scanning⟩ line' =
            ⟨document.addReading context line'.number reading', .scanning⟩ := by
  refine ⟨fun text text' h => StatementKind.ofLine?_eq h, ?_⟩
  intro line line' hcase hcomment hliterals
  refine ⟨_, _, LineReading.ofLine_recased hcase context hcomment hliterals, fun document => ?_⟩
  exact ⟨feed_scanning context document line, feed_scanning context document line'⟩

/-- A line with an expression and a keyword that no clause has. -/
theorem feed_recased_money :
    let context : Context := { items := {}, skills := {} }
    let line : SourceLine := ⟨1, "\"Hi\", MONEY > Expr(A) -> \"Ok\", Bye -- X"⟩
    let line' : SourceLine := ⟨1, "\"Hi\", money > expr(a) -> \"Ok\", bye -- x"⟩
    let document := (feed context {} line).document
    let document' := (feed context {} line').document
    document.statements = [.dialogue ⟨"Hi", [.money .greater (.expression "A")], [.answer "Ok"]⟩] ∧
      document'.statements =
        [.dialogue ⟨"Hi", [.money .greater (.expression "a")], [.answer "Ok"]⟩] ∧
      ∃ reading reading' : LineReading,
        reading.mapText Char.toLower = reading'.mapText Char.toLower ∧
        feed context {} line = ⟨({} : Document).addReading context 1 reading, .scanning⟩ ∧
        feed context {} line' = ⟨({} : Document).addReading context 1 reading', .scanning⟩ := by
  intro context line line' document document'
  obtain ⟨reading, reading', hreadings, hfeed⟩ :=
    (feed_recased context).2 line line' (by decide +kernel) (by decide +kernel) (by decide +kernel)
  exact ⟨by decide +kernel, by decide +kernel, reading, reading', hreadings, hfeed {}⟩

end Scanner

end NpcScript
