import NpcScript.Proofs.Likeness.Clause
import NpcScript.Proofs.Likeness.Shift
import NpcScript.Proofs.Script.Clauses

/-!
Dialogue lines put together from the texts of their clauses. What a text of a clause comes to does
not depend on where it stands, columns apart, so a line says what the texts of its clauses say: the
dialogue line that is added and the causes of the issues that are reported are told from them alone.
-/

namespace NpcScript

open Grammar
open Text (IsLiteral)

/-! ### Members by their texts -/

namespace Grammar

section Lists

variable {α β : Type} {separator : List Char → Prop} {item : List Char → Nat → α → Prop}
  {base : List Char → β → Prop} {same : β → α → Prop}
  (hitem : ∀ t b, base t b → ∀ offset, ∃ a, item t offset a ∧ same b a) {s : List Char}
  {texts : List (List Char)} {bases : List β} (hbases : List.Forall₂ base texts bases)

include hitem hbases

/-- A chain of texts is a chain of what the texts are written for, wherever it stands. -/
theorem IsChain.exists_of_texts {start : Nat}
    (h : IsChain separator (fun s _ t => s = t) s start texts) (offset : Nat) :
    ∃ as, IsChain separator item s offset as ∧ List.Forall₂ same bases as := by
  induction h generalizing bases offset with
  | nil =>
      cases hbases with
      | nil => exact ⟨[], .nil, .nil⟩
  | @cons _ sep s others t texts hsep hs hothers ih =>
      subst hs
      cases hbases with
      | cons hbase hbases =>
          obtain ⟨a, ha, hsame⟩ := hitem _ _ hbase (offset + sep.length)
          obtain ⟨as, has, hall⟩ := ih hbases (offset + sep.length + s.length)
          exact ⟨a :: as, .cons hsep ha has, .cons hsame hall⟩

theorem IsRow.exists_of_texts {start : Nat}
    (h : IsRow separator (fun s _ t => s = t) s start texts) (offset : Nat) :
    ∃ as, IsRow separator item s offset as ∧ List.Forall₂ same bases as := by
  cases h with
  | nil =>
      cases hbases with
      | nil => exact ⟨[], .nil, .nil⟩
  | @cons _ s others t texts hs hothers =>
      subst hs
      cases hbases with
      | cons hbase hbases =>
          obtain ⟨a, ha, hsame⟩ := hitem _ _ hbase offset
          obtain ⟨as, has, hall⟩ := hothers.exists_of_texts hitem hbases (offset + s.length)
          exact ⟨a :: as, .cons ha has, .cons hsame hall⟩

theorem IsParenthesised.exists_of_texts {start : Nat}
    (h : IsParenthesised (fun s _ t => s = t) s start texts) (offset : Nat) :
    ∃ as, IsParenthesised item s offset as ∧ List.Forall₂ same bases as := by
  obtain ⟨hbefore, hinside, hafter⟩ := h
  obtain ⟨as, has, hall⟩ := hinside.exists_of_texts hitem hbases _
  exact ⟨as, .intro hbefore has hafter, hall⟩

end Lists

end Grammar

/-- The lines with this trigger and clauses of these texts on either side of the arrow. -/
inductive IsLineOfTexts (trigger : List Char) (texts : Side → List (List Char)) : List Char → Prop
  | intro {start before gap gap' after ending : List Char} (hstart : IsGap start)
      (hbefore : IsChain (IsMark ',') (fun s _ t => s = t) before 0 (texts .before))
      (hgap : IsGap gap) (hgap' : IsGap gap')
      (hafter : IsRow IsBreak (fun s _ t => s = t) after 0 (texts .after))
      (hending : IsEnding ending) :
      IsLineOfTexts trigger texts
        (start ++ (trigger ++ (before ++ (gap ++ '-' :: '>' :: (gap' ++ (after ++ ending))))))

/-! ### What texts of clauses say -/

namespace Meaning

/-- What a clause comes to on a side of the arrow, with the cause only of an issue. -/
def outcome (side : Side) (context : Context) (clause : Clause) : Except Cause Meaning :=
  (on side context clause).mapError Issue.cause

/-- The text is that of a clause that comes to this on the side. -/
def Says (context : Context) (side : Side) (text : List Char) (result : Except Cause Meaning) :
    Prop :=
  ∃ clause : Clause, clause.IsWritten text 0 ∧ outcome side context clause = result

variable {context : Context} {side : Side}

theorem outcome_eq_of_agree {result result' : Except Issue Meaning}
    (h : Agree (fun found found' => found.mapText id = found'.mapText id)
      (Issue.Alike .anywhere) result result') :
    result.mapError Issue.cause = result'.mapError Issue.cause := by
  cases h with
  | ok hfound => simpa [Except.mapError] using hfound
  | error hissue => simpa [Except.mapError, Likeness.anywhere] using hissue.cause

/-- Only its columns do not count for what a clause comes to. -/
theorem outcome_eq_of_alike {clause clause' : Clause} (h : clause.Alike .anywhere clause') :
    outcome side context clause = outcome side context clause' :=
  outcome_eq_of_agree (on_alike side context Likeness.anywhere_keepsLiterals h)

/-- A text says the same wherever it stands. -/
theorem Says.exists_isWritten {text : List Char} {result : Except Cause Meaning}
    (h : Says context side text result) (offset : Nat) :
    ∃ clause : Clause, clause.IsWritten text offset ∧ result = outcome side context clause := by
  obtain ⟨clause, hclause, rfl⟩ := h
  have hshifted := hclause.shift offset
  rw [Nat.zero_add] at hshifted
  have halike := clause.alike_shift 0 offset
  rw [Clause.shift_zero] at halike
  exact ⟨clause.shift offset, hshifted, outcome_eq_of_alike halike⟩

end Meaning

/-! ### What lines say -/

def DialogueLine.ofResults (trigger : List Char) (results : List (Except Cause Meaning)) :
    DialogueLine :=
  { trigger := String.ofList (Text.unquote trigger)
    conditions := results.filterMap fun result => result.toOption.bind Meaning.condition?
    consequences := results.filterMap fun result => result.toOption.bind Meaning.consequence? }

def Meaning.cause? : Except Cause Meaning → Option Cause
  | .error cause => some cause
  | .ok _ => none

namespace Grammar.DialogueForm

variable (form : DialogueForm) (context : Context)

def results : List (Except Cause Meaning) :=
  form.before.map (Meaning.outcome .before context) ++
    form.after.map (Meaning.outcome .after context)

theorem results_eq : form.results context =
    (form.meanings context).map fun result => result.mapError Issue.cause := by
  simp only [results, meanings, List.map_append, List.map_map]
  rfl

theorem line_eq_ofResults :
    form.line context = .ofResults form.trigger.text (form.results context) := by
  have hoption (result : Except Issue Meaning) :
      (result.mapError Issue.cause).toOption = result.toOption := by
    cases result <;> rfl
  rw [line_eq_filterMap, DialogueLine.ofResults, results_eq, List.filterMap_map,
    List.filterMap_map]
  simp only [Function.comp_def, hoption]
  rfl

theorem map_cause_issues :
    (form.issues context).map Issue.cause = (form.results context).filterMap Meaning.cause? := by
  rw [issues, results_eq, List.filterMap_map, List.map_filterMap]
  refine List.filterMap_congr fun result _ => ?_
  cases result <;> rfl

end Grammar.DialogueForm

section Lines

variable {context : Context} {trigger : List Char} {texts : Side → List (List Char)}
  {results : Side → List (Except Cause Meaning)} (htrigger : IsLiteral trigger)
  (htells : ∀ side, List.Forall₂ (Meaning.Says context side) (texts side) (results side))

include htrigger htells

/-- A line of texts is read as a form whose clauses come to what the texts say. -/
theorem IsLineOfTexts.exists_form {line : List Char} (h : IsLineOfTexts trigger texts line) :
    ∃ form, DialogueForm.ofLine line = .ok form ∧ form.trigger.text = trigger ∧
      form.results context = results .before ++ results .after := by
  obtain ⟨hstart, hbefore, hgap, hgap', hafter, hending⟩ := h
  rename_i start before gap gap' after ending
  obtain ⟨conditions, hconditions, hsame⟩ :=
    hbefore.exists_of_texts (fun _ _ h => h.exists_isWritten) (htells .before)
      (start.length + trigger.length)
  obtain ⟨others, hothers, hsame'⟩ :=
    hafter.exists_of_texts (fun _ _ h => h.exists_isWritten) (htells .after)
      (start.length + trigger.length + before.length + gap.length + 2 + gap'.length)
  have hwritten := DialogueForm.IsWritten.intro hstart htrigger hconditions hgap hgap' hothers
    hending
  refine ⟨_, hwritten.ofLine, rfl, ?_⟩
  have hmap {side : Side} {clauses : List Clause}
      (h : List.Forall₂ (fun result clause => result = Meaning.outcome side context clause)
        (results side) clauses) :
      clauses.map (Meaning.outcome side context) = results side := by
    rw [← List.forall₂_eq_eq_eq, List.forall₂_map_left_iff]
    exact h.flip.imp fun _ _ heq => heq.symm
  rw [DialogueForm.results, hmap hsame, hmap hsame']

/-- What a line adds is told from what the texts of its clauses say. -/
theorem Scanner.feed_of_says {line : SourceLine}
    (h : IsLineOfTexts trigger texts line.text.toList) :
    ∃ issues, issues.map Issue.cause =
        (results .before ++ results .after).filterMap Meaning.cause? ∧ ∀ document state,
      feed context ⟨document, state⟩ line =
        ⟨(document.reportAll context line.number issues).add line.number
          (.dialogue (.ofResults trigger (results .before ++ results .after))), .scanning⟩ := by
  obtain ⟨form, hform, rfl, hresults⟩ := h.exists_form htrigger htells
  refine ⟨form.issues context, ?_, fun document state => ?_⟩
  · rw [form.map_cause_issues, hresults]
  · rw [feed_of_ofLine hform, form.line_eq_ofResults, hresults]

end Lines

end NpcScript
