import NpcScript.Proofs.Likeness.Clause
import NpcScript.Proofs.Likeness.Statement
import NpcScript.Proofs.Script.Accepted

/-!
Lines that are alike. What a line comes to is put together from what its parts come to. So lines
with forms that are alike come to the same statement up to its expressions, and their issues are
alike.
-/

namespace NpcScript

open Grammar (Assignment DialogueForm)

def DialogueLine.mapText (f : Char → Char) (line : DialogueLine) : DialogueLine :=
  ⟨line.trigger, line.conditions.map (Condition.mapText f),
    line.consequences.map (Consequence.mapText f)⟩

def Statement.mapText (f : Char → Char) : Statement → Statement
  | .dialogue line => .dialogue (line.mapText f)
  | other => other

@[simp] theorem DialogueLine.mapText_id (line : DialogueLine) : line.mapText id = line := by
  simp [mapText, funext Condition.mapText_id, funext Consequence.mapText_id]

@[simp] theorem Statement.mapText_id (statement : Statement) :
    statement.mapText id = statement := by
  cases statement <;> simp [mapText]

structure LineReading.Alike (L : Likeness) (reading reading' : LineReading) : Prop where
  statement : reading.statement.map (Statement.mapText L.fold) =
    reading'.statement.map (Statement.mapText L.fold)
  issues : List.Forall₂ (Issue.Alike L) reading.issues reading'.issues

variable {L : Likeness}

/-! ### Assignments -/

theorem LineReading.ofAssignment_alike {assignment assignment' : Assignment}
    (h : assignment.Alike L assignment') (hL : L.KeepsLiterals) (context : Context)
    {line line' : List Char} (hline : L.SameText (Text.trim line) (Text.trim line'))
    (key : AssignmentKey) :
    (ofAssignment context line key assignment).Alike L
      (ofAssignment context line' key assignment') := by
  have hstatement := key.statement_alike h hL context hline
  have hwarnings := key.warnings_alike h
  unfold ofAssignment
  generalize key.statement context line assignment = result at hstatement
  generalize key.statement context line' assignment' = result' at hstatement
  cases hstatement with
  | error hissues => exact ⟨rfl, hissues⟩
  | ok hstatement =>
      subst hstatement
      exact ⟨rfl, hwarnings⟩

/-! ### Dialogue lines -/

theorem Meaning.condition?_mapText (f : Char → Char) (found : Meaning) :
    (found.mapText f).condition? = found.condition?.map (Condition.mapText f) := by
  cases found <;> rfl

theorem Meaning.consequence?_mapText (f : Char → Char) (found : Meaning) :
    (found.mapText f).consequence? = found.consequence?.map (Consequence.mapText f) := by
  cases found <;> rfl

/-- Of clauses that agree the same is kept. -/
theorem map_filterMap_eq_of_forall₂ {α β γ : Type} {related : α → α → Prop} {as as' : List α}
    (h : List.Forall₂ related as as') {f : α → Option β} {g : β → γ}
    (hf : ∀ a a', related a a' → (f a).map g = (f a').map g) :
    (as.filterMap f).map g = (as'.filterMap f).map g := by
  rw [List.map_filterMap, List.map_filterMap, ← List.forall₂_eq_eq_eq]
  refine List.rel_filterMap (fun a a' ha => ?_) h
  rw [hf a a' ha]
  cases (f a').map g with
  | none => exact .none
  | some c => exact .some rfl

namespace Grammar.DialogueForm

variable {form form' : DialogueForm} (h : form.Alike L form') (hL : L.KeepsLiterals)
  (context : Context)

include h hL

theorem meanings_alike :
    List.Forall₂ (Agree (fun found found' : Meaning =>
        found.mapText L.fold = found'.mapText L.fold) (Issue.Alike L))
      (form.meanings context) (form'.meanings context) := by
  refine List.rel_append (List.rel_map ?_ h.before) (List.rel_map ?_ h.after)
  · exact fun _ _ hclause => Meaning.before_alike context hL hclause
  · exact fun _ _ hclause => Meaning.after_alike context hL hclause

theorem line_alike :
    (form.line context).mapText L.fold = (form'.line context).mapText L.fold := by
  have hmeanings := meanings_alike h hL context
  have htrigger : form.trigger.text = form'.trigger.text := hL _ _ h.trigger.literal
  rw [line_eq_filterMap, line_eq_filterMap]
  simp only [DialogueLine.mapText, htrigger, DialogueLine.mk.injEq, true_and]
  refine ⟨map_filterMap_eq_of_forall₂ hmeanings ?_, map_filterMap_eq_of_forall₂ hmeanings ?_⟩
  · rintro result result' (@⟨found, found', hfound⟩ | hissue)
    · show found.condition?.map _ = found'.condition?.map _
      rw [← Meaning.condition?_mapText, hfound, Meaning.condition?_mapText]
    · rfl
  · rintro result result' (@⟨found, found', hfound⟩ | hissue)
    · show found.consequence?.map _ = found'.consequence?.map _
      rw [← Meaning.consequence?_mapText, hfound, Meaning.consequence?_mapText]
    · rfl

theorem issues_alike :
    List.Forall₂ (Issue.Alike L) (form.issues context) (form'.issues context) := by
  refine List.rel_filterMap (fun result result' hresult => ?_) (meanings_alike h hL context)
  cases hresult with
  | ok hfound => exact .none
  | error hissue => exact .some hissue

theorem ofForm_alike :
    (LineReading.ofForm context form).Alike L (LineReading.ofForm context form') := by
  refine ⟨?_, issues_alike h hL context⟩
  exact congrArg (some ∘ Statement.dialogue) (line_alike h hL context)

end Grammar.DialogueForm

end NpcScript
