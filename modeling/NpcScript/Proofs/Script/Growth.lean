import NpcScript.Proofs.Checked
import NpcScript.Proofs.Clause.Growth
import NpcScript.Proofs.Script.Clauses
import Mathlib.Data.List.Forall2

/-!
Lines under a growing context. A look-up that succeeds now may uncover another fault of the same
part, but each part still comes to one value or one issue, so no line gets more issues than before.
What a line stated it still states; a dialogue line may have further conditions and consequences
among those that it had.
-/

namespace NpcScript

open Grammar (Assignment Value Clause DialogueForm)

variable {context richer : Context}

/-! ### Checked results -/

namespace Checked

variable {α β : Type}

/-- The second result keeps the value of the first, if there is one, and has no more issues. -/
structure Improves (result result' : Checked α) : Prop where
  persists : Persists result result'
  length_issues_le : result'.issues.length ≤ result.issues.length

namespace Improves

theorem refl (result : Checked α) : Improves result result :=
  ⟨.refl result, Nat.le_refl _⟩

theorem ofPart {result result' : Except Issue α} (h : Persists result result') :
    Improves (Checked.ofPart result) (Checked.ofPart result') := by
  cases result with
  | ok a =>
      rw [h a rfl]
      exact refl _
  | error issue =>
      refine ⟨fun a ha => (by cases ha), ?_⟩
      -- There is one issue at most, whatever it says.
      cases result' <;> simp [Checked.ofPart, issues]

variable {first first' : Checked α} {second second' : Checked β}

theorem both (hfirst : Improves first first') (hsecond : Improves second second') :
    Improves (Checked.both first second) (Checked.both first' second') := by
  refine ⟨?_, ?_⟩
  · rintro ⟨a, b⟩ hab
    obtain ⟨ha, hb⟩ := both_eq_ok_iff.mp hab
    exact both_eq_ok_iff.mpr ⟨hfirst.persists a ha, hsecond.persists b hb⟩
  · rw [issues_both, issues_both, List.length_append, List.length_append]
    exact Nat.add_le_add hfirst.length_issues_le hsecond.length_issues_le

theorem map {f : α → β} (h : Improves first first') : Improves (f <$> first) (f <$> first') := by
  refine ⟨h.persists.map, ?_⟩
  rw [issues_map, issues_map]
  exact h.length_issues_le

theorem each {read read' : α → Except Issue β} (h : ∀ a, Persists (read a) (read' a))
    (parts : List α) : Improves (Checked.each read parts) (Checked.each read' parts) := by
  induction parts with
  | nil => exact refl _
  | cons a others ih => exact map (both (ofPart (h a)) ih)

end Improves

end Checked

open Checked (Improves)

/-! ### Statements -/

theorem tradedItemOfValue_persists (h : context.IsPartOf richer) (line keyword : List Char)
    (expected : String) (value : Value) :
    Persists (tradedItemOfValue context line keyword expected value)
      (tradedItemOfValue richer line keyword expected value) := by
  cases value with
  | number source => exact h.item _ _ _
  | quoted source | word source | call source name arguments => exact Persists.refl _

theorem Trade.ofAssignment_improves (h : context.IsPartOf richer) (line : List Char)
    (form : TradeForm) (assignment : Assignment) :
    Improves (Trade.ofAssignment context line form assignment)
      (Trade.ofAssignment richer line form assignment) := by
  have hitem := tradedItemOfValue_persists h line assignment.key form.expected
  cases form with
  | list mode => exact (Improves.each hitem assignment.values).map
  | single mode =>
      simp only [Trade.ofAssignment]
      split
      · exact Improves.refl _
      · exact ((Improves.ofPart (hitem _)).both (.refl _)).map
  | message kind => exact Improves.refl _

theorem EquipmentSlot.itemOfAssignment_persists (h : context.IsPartOf richer) (line : List Char)
    (assignment : Assignment) :
    Persists (itemOfAssignment context line assignment)
      (itemOfAssignment richer line assignment) := by
  refine Persists.sameBind _ fun value => ?_
  refine Persists.sameBind _ fun id => ?_
  split
  · exact Persists.refl _
  · exact (h.item _ _ _).bindSame _

namespace AssignmentKey

/-- Only statements about items look anything up. -/
theorem statement_improves (h : context.IsPartOf richer) (line : List Char)
    (assignment : Assignment) (key : AssignmentKey) :
    Improves (key.statement context line assignment) (key.statement richer line assignment) := by
  cases key with
  | equipment slot =>
      exact (Improves.ofPart (EquipmentSlot.itemOfAssignment_persists h line assignment)).map
  | trade key => exact (Trade.ofAssignment_improves h line key.form assignment).map
  | identity key | appearance key | guard key | cycleText => exact Improves.refl _

/-- A statement that players read does not depend on the context. -/
theorem statement_eq_of_isLocalized {key : AssignmentKey} (h : key.isLocalized = true)
    (context richer : Context) (line : List Char) (assignment : Assignment) :
    key.statement context line assignment = key.statement richer line assignment := by
  cases key with
  | identity key | appearance key | guard key | cycleText => rfl
  | equipment slot => cases h
  | trade key =>
      cases hform : key.form with
      | message kind =>
          simp only [statement, hform]
          rfl
      | list mode | single mode =>
          rw [isLocalized, hform] at h
          cases h

/-- Where the context matters, nothing is warned of. -/
theorem warnings_eq_nil_of_ne {key : AssignmentKey} {line : List Char} {assignment : Assignment}
    (h : key.statement context line assignment ≠ key.statement richer line assignment) :
    key.warnings assignment = [] := by
  refine if_neg fun hlocalized => h ?_
  exact statement_eq_of_isLocalized hlocalized context richer line assignment

end AssignmentKey

/-! ### Dialogue lines -/

namespace Meaning

theorem conditionOf?_of_persists {result result' : Except Issue Meaning}
    (h : Persists result result') {found : Condition} (hfound : conditionOf? result = some found) :
    conditionOf? result' = some found := by
  cases result with
  | ok meaning =>
      rw [h meaning rfl]
      exact hfound
  | error issue => cases hfound

theorem consequenceOf?_of_persists {result result' : Except Issue Meaning}
    (h : Persists result result') {found : Consequence}
    (hfound : consequenceOf? result = some found) : consequenceOf? result' = some found := by
  cases result with
  | ok meaning =>
      rw [h meaning rfl]
      exact hfound
  | error issue => cases hfound

end Meaning

/-- What a partial function gave of the first members it gives of the second ones, perhaps with more
in between. -/
theorem filterMap_sublist_of_forall₂ {α β γ : Type} {related : α → β → Prop} {as : List α}
    {bs : List β} (h : List.Forall₂ related as bs) {f : α → Option γ} {g : β → Option γ}
    (hfg : ∀ a b, related a b → ∀ c, f a = some c → g b = some c) :
    (as.filterMap f).Sublist (bs.filterMap g) := by
  induction h with
  | nil => exact .refl _
  | @cons a b as bs hab h ih =>
      rw [List.filterMap_cons]
      cases hf : f a with
      | none =>
          refine ih.trans ?_
          rw [List.filterMap_cons]
          split
          · exact .refl _
          · exact .cons _ (.refl _)
      | some c =>
          rw [List.filterMap_cons_some (hfg a b hab c hf)]
          exact ih.cons_cons c

namespace Grammar.DialogueForm

variable (h : context.IsPartOf richer) (form : DialogueForm)

include h

theorem meanings_persist :
    List.Forall₂ Persists (form.meanings context) (form.meanings richer) := by
  refine List.rel_append ?_ ?_
  · simpa using fun clause _ => Meaning.before_persists h clause
  · simpa using fun clause _ => Meaning.after_persists h clause

theorem conditions_sublist :
    (form.line context).conditions.Sublist (form.line richer).conditions := by
  rw [line_eq_filterMap, line_eq_filterMap]
  exact filterMap_sublist_of_forall₂ (form.meanings_persist h)
    fun _ _ hab _ => Meaning.conditionOf?_of_persists hab

theorem consequences_sublist :
    (form.line context).consequences.Sublist (form.line richer).consequences := by
  rw [line_eq_filterMap, line_eq_filterMap]
  exact filterMap_sublist_of_forall₂ (form.meanings_persist h)
    fun _ _ hab _ => Meaning.consequenceOf?_of_persists hab

/-- Every clause counts once, so what the line has gained it has lost in issues. -/
theorem length_issues_le : (form.issues richer).length ≤ (form.issues context).length := by
  have hconditions := (form.conditions_sublist h).length_le
  have hconsequences := (form.consequences_sublist h).length_le
  rw [line_eq_filterMap, line_eq_filterMap] at hconditions hconsequences
  have hcount := Meaning.length_filterMap_add (form.meanings context)
  have hcount' := Meaning.length_filterMap_add (form.meanings richer)
  have hlength := (form.meanings_persist h).length_eq
  dsimp only at hconditions hconsequences
  unfold issues
  omega

end Grammar.DialogueForm

/-! ### Lines -/

namespace LineReading

/-- How a reading changes when more is known: of a dialogue line only more can come, any other
statement stays with the same warnings, and there are no more issues than before. -/
structure Grows (reading reading' : LineReading) : Prop where
  dialogue : ∀ line, reading.statement = some (.dialogue line) →
    ∃ line', reading'.statement = some (.dialogue line') ∧ line'.trigger = line.trigger ∧
      line.conditions.Sublist line'.conditions ∧ line.consequences.Sublist line'.consequences
  other : ∀ statement, reading.statement = some statement → (∀ line, statement ≠ .dialogue line) →
    reading' = reading
  length_issues_le : reading'.issues.length ≤ reading.issues.length

theorem Grows.refl (reading : LineReading) : Grows reading reading :=
  ⟨fun line hline => ⟨line, hline, rfl, .refl _, .refl _⟩, fun _ _ _ => rfl, Nat.le_refl _⟩

theorem ofLine_grows_of_assignment (h : context.IsPartOf richer) {text : List Char}
    {key : AssignmentKey} (hkind : StatementKind.ofLine? text = some (.assignment key)) :
    (ofLine context text).Grows (ofLine richer text) := by
  simp only [ofLine, hkind]
  split
  · exact .refl _
  · rename_i assignment hline
    have himproves := key.statement_improves h text assignment
    cases hstatement : key.statement context text assignment with
    | ok statement =>
        rw [himproves.persists statement hstatement]
        exact .refl _
    | error issues =>
        cases hricher : key.statement richer text assignment with
        | ok statement =>
            have hne : key.statement context text assignment ≠
                key.statement richer text assignment := by
              rw [hstatement, hricher]
              simp
            have hwarnings := AssignmentKey.warnings_eq_nil_of_ne hne
            exact ⟨by simp, by simp, by simp [hwarnings]⟩
        | error issues' =>
            have hle := himproves.length_issues_le
            rw [hstatement, hricher] at hle
            exact ⟨by simp, by simp, hle⟩

theorem ofLine_grows (h : context.IsPartOf richer) (text : List Char) :
    (ofLine context text).Grows (ofLine richer text) := by
  cases hkind : StatementKind.ofLine? text with
  | none =>
      simp only [ofLine, hkind]
      exact .refl _
  | some kind =>
      cases kind with
      | empty | comment =>
          simp only [ofLine, hkind]
          exact .refl _
      | assignment key => exact ofLine_grows_of_assignment h hkind
      | dialogue =>
          simp only [ofLine, hkind]
          split
          · exact .refl _
          · rename_i form hline
            refine ⟨?_, ?_, form.length_issues_le h⟩
            · rintro line ⟨⟩
              exact ⟨_, rfl, rfl, form.conditions_sublist h, form.consequences_sublist h⟩
            · rintro statement ⟨⟩ hother
              exact absurd rfl (hother _)

end LineReading

/-- A context that knows more takes nothing away from any line. A line that is no dialogue line
states what it stated, with the same issues; a dialogue line keeps its conditions and consequences
in their order, whatever joins them; and no line has more issues than before. -/
theorem Scanner.feed_of_isPartOf (h : context.IsPartOf richer) (line : SourceLine) :
    ∃ reading reading' : LineReading, reading.Grows reading' ∧ ∀ document,
      feed context ⟨document, .scanning⟩ line =
        ⟨document.addReading context line.number reading, .scanning⟩ ∧
      feed richer ⟨document, .scanning⟩ line =
        ⟨document.addReading richer line.number reading', .scanning⟩ := by
  refine ⟨_, _, LineReading.ofLine_grows h line.text.toList, fun document => ⟨?_, ?_⟩⟩
  · exact feed_scanning context document line
  · exact feed_scanning richer document line

/-- A line with a condition that needs an item. -/
theorem Scanner.feed_of_isPartOf_helmet :
    let context : Context := { items := {}, skills := {} }
    let richer : Context := { items := .ofList [⟨42, "helmet"⟩], skills := {} }
    let line : SourceLine := ⟨1, "\"hi\", isadmin, item(42) > 2 -> \"Hi\""⟩
    context.IsPartOf richer ∧
      (feed context {} line).document.statements =
        [.dialogue ⟨"hi", [.isAdmin], [.answer "Hi"]⟩] ∧
      ∃ reading reading' : LineReading, reading.Grows reading' ∧
        feed context {} line = ⟨({} : Document).addReading context 1 reading, .scanning⟩ ∧
        feed richer {} line = ⟨({} : Document).addReading richer 1 reading', .scanning⟩ := by
  intro context richer line
  have hpart : context.IsPartOf richer := by
    refine ⟨fun h => ?_, fun h => h⟩
    simp [context] at h
  obtain ⟨reading, reading', hgrows, hfeed⟩ := feed_of_isPartOf hpart line
  exact ⟨hpart, by decide +kernel, reading, reading', hgrows, hfeed {}⟩

end NpcScript
