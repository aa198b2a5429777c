import NpcScript.Proofs.Grammar.LastCharacter
import NpcScript.Proofs.Likeness.Line
import NpcScript.Proofs.Likeness.Moved

/-!
Blanks around lines. Spaces, tabs and carriage returns around a line do not count. The line is
sorted as it is without them, and the grammar of its kind accepts it with them if and only if it
accepts it without: blanks complete nothing that is unfinished and break nothing that is whole.
What is reported moves by as many columns as there are blanks in front.
-/

namespace NpcScript

open Text
open Grammar (Assignment DialogueForm IsGap)

/-! ### The kind of a line with blanks around it -/

section Kind

variable {before after : List Char} (hbefore : IsGap before) (hafter : IsGap after)
  (line : List Char)

include hbefore

theorem trimStart_surrounded :
    trimStart (before ++ (line ++ after)) = trimStart (line ++ after) :=
  List.dropWhile_append_of_pos fun c hc => isBlank_of_isGap (hbefore c hc)

include hafter

theorem trim_surrounded : trim (before ++ (line ++ after)) = trim line := by
  have hblank : ∀ c ∈ after, isBlank c = true := fun c hc => isBlank_of_isGap (hafter c hc)
  rw [trim, trimStart_surrounded hbefore, trimStart, List.dropWhile_append]
  split
  · rename_i hempty
    rw [trim, trimStart, List.isEmpty_iff.mp hempty, List.dropWhile_eq_nil_iff.mpr hblank]
  · rw [trimEnd, List.reverse_append, List.dropWhile_append_of_pos, trim, trimEnd, trimStart]
    simpa using hblank

theorem leadingWord_surrounded :
    leadingWord (before ++ (line ++ after)) = leadingWord line := by
  have hblank : ∀ c ∈ after, isBlank c = true := fun c hc => isBlank_of_isGap (hafter c hc)
  have hspares : after.takeWhile Grammar.continuesWord = [] := by
    cases after with
    | nil => rfl
    | cons c after =>
        exact List.takeWhile_cons_of_neg
          (by simp [Grammar.not_continuesWord_of_isGap (hafter c (by simp))])
  rw [leadingWord, trimStart_surrounded hbefore, leadingWord, trimStart, trimStart,
    List.dropWhile_append]
  split
  · rename_i hempty
    rw [List.isEmpty_iff.mp hempty, List.dropWhile_eq_nil_iff.mpr hblank]
  · rw [List.takeWhile_append]
    split
    · rename_i hlength
      rw [hspares, List.append_nil]
      exact ((List.takeWhile_prefix _).eq_of_length hlength).symm
    · rfl

theorem StatementKind.ofLine?_surrounded : ofLine? (before ++ (line ++ after)) = ofLine? line := by
  simp only [ofLine?, trim_surrounded hbefore hafter]

end Kind

/-! ### Readings -/

def Issue.shift (k : Nat) (issue : Issue) : Issue :=
  ⟨issue.column.map (· + k), issue.cause⟩

def LineReading.shift (k : Nat) (reading : LineReading) : LineReading :=
  ⟨reading.statement, reading.issues.map (Issue.shift k)⟩

theorem Issue.shift_eq_of_alike {k : Nat} {issue issue' : Issue}
    (h : issue.Alike (.moved 0 k) issue') : issue.shift k = issue' := by
  obtain ⟨⟨c, c', hc, hc', hcolumn⟩, hcause⟩ := h
  have hcolumn : c + k = c' := hcolumn
  have hcause : issue.cause = issue'.cause := by simpa [Likeness.moved] using hcause
  rw [shift, hc, hcause, Option.map_some, hcolumn, ← hc']

theorem LineReading.shift_eq_of_alike {k : Nat} {reading reading' : LineReading}
    (h : reading.Alike (.moved 0 k) reading') : reading.shift k = reading' := by
  have hstatement : reading.statement = reading'.statement := by
    simpa [Likeness.moved, funext Statement.mapText_id] using h.statement
  have hissues : reading.issues.map (Issue.shift k) = reading'.issues := by
    rw [← List.forall₂_eq_eq_eq, List.forall₂_map_left_iff]
    exact h.issues.imp fun _ _ hissue => Issue.shift_eq_of_alike hissue
  rw [shift, hstatement, hissues]

/-! ### Lines -/

/-- The kind of both lines rejects them, each at a column of its own, and the issues are the same
otherwise. -/
def BothRejected (line line' : List Char) (reading reading' : LineReading) : Prop :=
  ∃ kind column column' keyword expected,
    StatementKind.ofLine? line = some kind ∧ kind.Rejects line column ∧
    kind.Rejects line' column' ∧ reading = ⟨none, [malformed keyword expected column]⟩ ∧
    reading' = ⟨none, [malformed keyword expected column']⟩

section Surrounded

variable {before after line : List Char} (hbefore : IsGap before) (hafter : IsGap after)

include hbefore hafter

theorem Grammar.Assignment.ofLine_surrounded {assignment : Assignment}
    (h : Assignment.ofLine line = .ok assignment) :
    ∃ assignment', Assignment.ofLine (before ++ (line ++ after)) = .ok assignment' ∧
      assignment.Alike (.moved 0 before.length) assignment' := by
  have hwritten : assignment.IsWritten ([] ++ (line ++ after)) :=
    (Assignment.isWritten_of_ofLine h).append_ending (.blank hafter)
  obtain ⟨assignment', hwritten', halike⟩ := hwritten.exists_moved isGap_nil hbefore
  exact ⟨assignment', hwritten'.ofLine, halike⟩

theorem Grammar.Assignment.exists_ofLine_of_surrounded {assignment : Assignment}
    (h : Assignment.ofLine (before ++ (line ++ after)) = .ok assignment) :
    ∃ assignment', Assignment.ofLine line = .ok assignment' := by
  obtain ⟨assignment', hwritten, -⟩ :=
    (Assignment.isWritten_of_ofLine h).exists_moved hbefore isGap_nil
  exact ⟨assignment', (hwritten.of_append_gap hafter).ofLine⟩

theorem Grammar.DialogueForm.ofLine_surrounded {form : DialogueForm}
    (h : DialogueForm.ofLine line = .ok form) :
    ∃ form', DialogueForm.ofLine (before ++ (line ++ after)) = .ok form' ∧
      form.Alike (.moved 0 before.length) form' := by
  have hspelt : form.IsSpelt ([] ++ (line ++ after)) :=
    (DialogueForm.ofLine_iff_isSpelt.mp h).append_ending (.blank hafter)
  obtain ⟨form', hspelt', halike⟩ := hspelt.exists_moved isGap_nil hbefore
  exact ⟨form', DialogueForm.ofLine_iff_isSpelt.mpr hspelt', halike⟩

theorem Grammar.DialogueForm.exists_ofLine_of_surrounded {form : DialogueForm}
    (h : DialogueForm.ofLine (before ++ (line ++ after)) = .ok form) :
    ∃ form', DialogueForm.ofLine line = .ok form' := by
  obtain ⟨form', hspelt, -⟩ :=
    (DialogueForm.ofLine_iff_isSpelt.mp h).exists_moved hbefore isGap_nil
  exact ⟨form', DialogueForm.ofLine_iff_isSpelt.mpr (hspelt.of_append_gap hafter)⟩

variable (context : Context)

theorem LineReading.ofLine_surrounded_of_assignment {key : AssignmentKey}
    (hkind : StatementKind.ofLine? line = some (.assignment key)) :
    ofLine context (before ++ (line ++ after)) = (ofLine context line).shift before.length ∨
      BothRejected line (before ++ (line ++ after)) (ofLine context line)
        (ofLine context (before ++ (line ++ after))) := by
  have hkind' := (StatementKind.ofLine?_surrounded hbefore hafter line).trans hkind
  cases hline : Assignment.ofLine line with
  | ok assignment =>
      obtain ⟨assignment', hline', halike⟩ :=
        Assignment.ofLine_surrounded hbefore hafter hline
      rw [ofLine_of_assignment context hkind' hline', ofLine_of_assignment context hkind hline]
      refine .inl (shift_eq_of_alike (ofAssignment_alike halike
        (Likeness.moved_keepsLiterals _ _) context ?_ key)).symm
      rw [trim_surrounded hbefore hafter]
      exact .refl _
  | error column =>
      cases hline' : Assignment.ofLine (before ++ (line ++ after)) with
      | ok assignment =>
          obtain ⟨assignment', hfound⟩ :=
            Assignment.exists_ofLine_of_surrounded hbefore hafter hline'
          rw [hline] at hfound
          cases hfound
      | error column' =>
          refine .inr ⟨.assignment key, column, column', leadingWord line, key.expected, hkind,
            hline, hline', ?_, ?_⟩
          · simp only [ofLine, hkind, hline]
          · simp only [ofLine, hkind', hline', leadingWord_surrounded hbefore hafter]

theorem LineReading.ofLine_surrounded_of_dialogue
    (hkind : StatementKind.ofLine? line = some .dialogue) :
    ofLine context (before ++ (line ++ after)) = (ofLine context line).shift before.length ∨
      BothRejected line (before ++ (line ++ after)) (ofLine context line)
        (ofLine context (before ++ (line ++ after))) := by
  have hkind' := (StatementKind.ofLine?_surrounded hbefore hafter line).trans hkind
  cases hline : DialogueForm.ofLine line with
  | ok form =>
      obtain ⟨form', hline', halike⟩ := DialogueForm.ofLine_surrounded hbefore hafter hline
      rw [ofLine_of_form context hline', ofLine_of_form context hline]
      exact .inl (shift_eq_of_alike (DialogueForm.ofForm_alike halike
        (Likeness.moved_keepsLiterals _ _) context)).symm
  | error column =>
      cases hline' : DialogueForm.ofLine (before ++ (line ++ after)) with
      | ok form =>
          obtain ⟨form', hfound⟩ := DialogueForm.exists_ofLine_of_surrounded hbefore hafter hline'
          rw [hline] at hfound
          cases hfound
      | error column' =>
          refine .inr ⟨.dialogue, column, column', "dialogue".toList, DialogueLine.expected, hkind,
            hline, hline', ?_, ?_⟩
          · simp only [ofLine, hkind, hline]
          · simp only [ofLine, hkind', hline']

theorem LineReading.ofLine_surrounded :
    ofLine context (before ++ (line ++ after)) = (ofLine context line).shift before.length ∨
      BothRejected line (before ++ (line ++ after)) (ofLine context line)
        (ofLine context (before ++ (line ++ after))) := by
  have hkind' := StatementKind.ofLine?_surrounded hbefore hafter line
  have htrim := trim_surrounded hbefore hafter line
  cases hkind : StatementKind.ofLine? line with
  | none =>
      refine .inl ?_
      simp only [ofLine, hkind', hkind, htrim]
      rfl
  | some kind =>
      cases kind with
      | empty | comment =>
          refine .inl ?_
          simp only [ofLine, hkind', hkind, htrim]
          rfl
      | assignment key => exact ofLine_surrounded_of_assignment hbefore hafter context hkind
      | dialogue => exact ofLine_surrounded_of_dialogue hbefore hafter context hkind

end Surrounded

/-- Spaces, tabs and carriage returns around a line do not count, whatever the line is. It is sorted
as the same kind, states the same or nothing in both cases, and has the same issues in the same
order, at columns that are larger by the number of blanks in front. Only where the grammar rejects
the line it may find it to be wrong at another place; it then rejects both lines. -/
theorem Scanner.feed_surrounded (context : Context) {line line' : SourceLine}
    {before after : List Char} (hbefore : IsGap before) (hafter : IsGap after)
    (hline' : line'.text.toList = before ++ (line.text.toList ++ after)) :
    StatementKind.ofLine? line'.text.toList = StatementKind.ofLine? line.text.toList ∧
      ∃ reading reading' : LineReading,
        (reading' = reading.shift before.length ∨
          BothRejected line.text.toList line'.text.toList reading reading') ∧
        ∀ document,
          feed context ⟨document, .scanning⟩ line =
            ⟨document.addReading context line.number reading, .scanning⟩ ∧
          feed context ⟨document, .scanning⟩ line' =
            ⟨document.addReading context line'.number reading', .scanning⟩ := by
  have hkind := StatementKind.ofLine?_surrounded hbefore hafter line.text.toList
  have hreadings :=
    @LineReading.ofLine_surrounded before after line.text.toList hbefore hafter context
  rw [← hline'] at hkind hreadings
  exact ⟨hkind, _, _, hreadings, fun document =>
    ⟨feed_scanning context document line, feed_scanning context document line'⟩⟩

/-- A value is missed behind the blanks at the end of the line, so its column moves farther than the
blanks in front would take it. -/
theorem Scanner.feed_surrounded_name :
    let context : Context := { items := {}, skills := {} }
    let line : SourceLine := ⟨1, "name ="⟩
    let line' : SourceLine := ⟨1, "\tname = \r"⟩
    (feed context {} line).document.diagnostics.toList.map (·.column) = [some 7] ∧
      (feed context {} line').document.diagnostics.toList.map (·.column) = [some 10] ∧
      ∃ reading reading' : LineReading,
        (reading' = reading.shift 1 ∨
          BothRejected line.text.toList line'.text.toList reading reading') ∧
        ∀ document,
          feed context ⟨document, .scanning⟩ line =
            ⟨document.addReading context 1 reading, .scanning⟩ ∧
          feed context ⟨document, .scanning⟩ line' =
            ⟨document.addReading context 1 reading', .scanning⟩ := by
  intro context line line'
  have hbefore : IsGap ['\t'] := by simp [IsGap, Grammar.Reader.isGap]
  have hafter : IsGap [' ', '\r'] := by simp [IsGap, Grammar.Reader.isGap]
  have hline' : line'.text.toList = ['\t'] ++ (line.text.toList ++ [' ', '\r']) := by
    decide +kernel
  obtain ⟨-, hreadings⟩ := feed_surrounded context hbefore hafter hline'
  exact ⟨by decide +kernel, by decide +kernel, hreadings⟩

end NpcScript
