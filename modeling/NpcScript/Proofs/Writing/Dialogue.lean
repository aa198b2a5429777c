import NpcScript.Proofs.Script.Clauses
import NpcScript.Proofs.Writing.Condition
import NpcScript.Proofs.Writing.Consequence

/-!
Writing dialogue lines. The conditions stand before the arrow and the consequences behind it, each
in its order and all with commas between them. No text in quotes and no expression can disturb this
structure, so the line that is read is the line that was written.
-/

namespace NpcScript

open Grammar (Clause DialogueForm Expresses)
open Text (FitsLine quote)

namespace DialogueLine

def write (line : DialogueLine) : List Char :=
  quote line.trigger.toList ++ (Grammar.behindCommas (line.conditions.map Condition.write) ++
    (" -> ".toList ++ Grammar.commas (line.consequences.map Consequence.write)))

def plainTexts (line : DialogueLine) : List String :=
  line.conditions.flatMap Condition.plainTexts ++ line.consequences.flatMap Consequence.plainTexts

structure IsWritable (context : Context) (line : DialogueLine) : Prop where
  isValid : line.IsValid context
  not_mem : ∀ text ∈ line.plainTexts, '\n' ∉ text.toList

variable {context : Context} {line : DialogueLine}

theorem IsWritable.condition (h : line.IsWritable context) {condition : Condition}
    (hmem : condition ∈ line.conditions) : condition.IsWritable context := by
  refine ⟨h.isValid.conditions condition hmem, fun text htext => h.not_mem text ?_⟩
  exact List.mem_append_left _ (List.mem_flatMap.mpr ⟨condition, hmem, htext⟩)

theorem IsWritable.consequence (h : line.IsWritable context) {consequence : Consequence}
    (hmem : consequence ∈ line.consequences) : consequence.IsWritable context := by
  refine ⟨h.isValid.consequences consequence hmem, fun text htext => h.not_mem text ?_⟩
  exact List.mem_append_right _ (List.mem_flatMap.mpr ⟨consequence, hmem, htext⟩)

structure Describes (line : DialogueLine) (form : DialogueForm) : Prop where
  trigger : form.trigger.text = quote line.trigger.toList
  before : List.Forall₂ Condition.Describes line.conditions form.before
  after : List.Forall₂ Consequence.Describes line.consequences form.after

section Writing

variable (h : line.IsWritable context)
include h

theorem expresses_conditions : Expresses (Grammar.IsChain (Grammar.IsMark ',') Clause.IsWritten)
    (Grammar.behindCommas (line.conditions.map Condition.write))
    (List.Forall₂ Condition.Describes line.conditions) :=
  .chain Grammar.isMark_comma fun _ hcondition => Condition.expresses (h.condition hcondition)

theorem expresses_consequences : Expresses (Grammar.IsRow Grammar.IsBreak Clause.IsWritten)
    (Grammar.commas (line.consequences.map Consequence.write))
    (List.Forall₂ Consequence.Describes line.consequences) :=
  .row (.comma Grammar.isMark_comma) fun _ hconsequence =>
    Consequence.expresses (h.consequence hconsequence)

theorem fitsLine_write : FitsLine line.write := by
  have harrow : FitsLine " -> ".toList := Text.fitsLine_of_forall (by simp)
  have hbehind := harrow.append (expresses_consequences h).fitsLine
  exact (Text.fitsLine_quote _).append ((expresses_conditions h).fitsLine.append hbehind)

theorem exists_isWritten :
    ∃ form : DialogueForm, form.IsWritten Grammar.IsBreak line.write ∧ line.Describes form := by
  obtain ⟨before, hbefore, hconditions⟩ := (expresses_conditions h).exists_item _
  obtain ⟨after, hafter, hconsequences⟩ := (expresses_consequences h).exists_item _
  have hwritten := DialogueForm.IsWritten.intro Grammar.isGap_nil
    ⟨_, Text.denotes_quote line.trigger.toList⟩ hbefore Grammar.isGap_space Grammar.isGap_space
    hafter (.blank Grammar.isGap_nil)
  refine ⟨⟨⟨1, quote line.trigger.toList⟩, before, after⟩, ?_, rfl, hconditions, hconsequences⟩
  simpa [write] using hwritten

end Writing

end DialogueLine

/-! ### Reading lines back -/

/-- Two lists that are related member by member have the same images if related members have. -/
theorem map_eq_map_of_forall₂ {α β γ : Type} {related : α → β → Prop} {f : β → γ} {g : α → γ}
    {as : List α} {bs : List β} (h : List.Forall₂ related as bs)
    (himage : ∀ a ∈ as, ∀ b, related a b → f b = g a) : bs.map f = as.map g := by
  induction h with
  | nil => rfl
  | cons hab hothers ih =>
      rw [List.map_cons, List.map_cons, himage _ (by simp) _ hab,
        ih fun a ha => himage a (by simp [ha])]

namespace DialogueLine

section Reading

variable {context : Context} {line : DialogueLine} {form : DialogueForm}
  (hvalid : line.IsValid context) (h : line.Describes form)
include hvalid h

theorem meanings_eq : form.meanings context =
    line.conditions.map (fun condition => .ok (.condition condition)) ++
      line.consequences.map fun consequence => .ok (.consequence consequence) := by
  have hbefore := map_eq_map_of_forall₂ h.before fun condition hcondition found =>
    Meaning.before_eq (hvalid.conditions condition hcondition)
  have hafter := map_eq_map_of_forall₂ h.after fun consequence hconsequence found =>
    Meaning.after_eq (hvalid.consequences consequence hconsequence)
  rw [DialogueForm.meanings, hbefore, hafter]

theorem line_eq : form.line context = line := by
  have hconditions : (form.meanings context).filterMap Meaning.conditionOf? = line.conditions := by
    rw [meanings_eq hvalid h, List.filterMap_append, List.filterMap_map, List.filterMap_map]
    show line.conditions.filterMap some ++ line.consequences.filterMap (fun _ => none) = _
    simp
  have hconsequences : (form.meanings context).filterMap Meaning.consequenceOf? =
      line.consequences := by
    rw [meanings_eq hvalid h, List.filterMap_append, List.filterMap_map, List.filterMap_map]
    show line.conditions.filterMap (fun _ => none) ++ line.consequences.filterMap some = _
    simp
  rw [DialogueForm.line_eq_filterMap, hconditions, hconsequences, h.trigger, Text.unquote_quote,
    String.ofList_toList]

/-- No clause of a line that was written fails. -/
theorem issues_eq_nil : form.issues context = [] := by
  rw [DialogueForm.issues, meanings_eq hvalid h, List.filterMap_append, List.filterMap_map,
    List.filterMap_map]
  show line.conditions.filterMap (fun _ => none) ++ line.consequences.filterMap (fun _ => none) = _
  simp

end Reading

end DialogueLine

end NpcScript
