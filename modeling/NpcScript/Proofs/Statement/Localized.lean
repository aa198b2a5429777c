import NpcScript.Proofs.Ending
import NpcScript.Proofs.Likeness.Within
import NpcScript.Proofs.Text.EscapedQuote

/-!
Statements of texts for players. All values of such a statement are string literals, one for each
text that it states, and the warnings about it are told from these literals one by one: a field is
warned about if its text holds a quote, and also if its text ends in a backslash.
-/

namespace NpcScript

open Grammar (Assignment Value)
open Text (StandsFor)

/-- A string literal among the values of a statement: where it stands, what is between its quotes,
and the text that it stands for. -/
structure TextField where
  column : Nat
  body : List Char
  text : List Char
  standsFor : StandsFor body text

namespace TextField

def literal (field : TextField) : List Char :=
  '"' :: (field.body ++ ['"'])

def value (field : TextField) : Value :=
  .quoted ⟨field.column, field.literal⟩

/-- The text holds a quote or ends in a backslash. -/
def IsSuspicious (field : TextField) : Prop :=
  '"' ∈ field.text ∨ field.text.getLast? = some '\\'

instance : DecidablePred IsSuspicious :=
  fun _ => inferInstanceAs (Decidable (_ ∨ _))

def warning (field : TextField) : Issue :=
  .atColumn field.column (.suspiciousQuote "localized text" (String.ofList field.literal))

theorem unquote_literal (field : TextField) : Text.unquote field.literal = field.text :=
  Text.unquote_of_denotes (.intro field.standsFor)

theorem quoteWarning?_value (field : TextField) :
    field.value.quoteWarning? = if field.IsSuspicious then some field.warning else none := by
  have htest : Text.hasEscapedQuote field.literal = true ↔ field.IsSuspicious := by
    rw [literal, Text.hasEscapedQuote_cons_of_ne (by decide)]
    exact field.standsFor.hasEscapedQuote_iff
  by_cases hfield : field.IsSuspicious
  · rw [if_pos hfield]
    exact if_pos (htest.mpr hfield)
  · rw [if_neg hfield]
    exact if_neg (mt htest.mp hfield)

/-- At most one warning for each field, in the order of the fields. -/
theorem filterMap_quoteWarning? (fields : List TextField) :
    (fields.map value).filterMap Value.quoteWarning? =
      (fields.filter (·.IsSuspicious)).map warning := by
  induction fields with
  | nil => rfl
  | cons field fields ih =>
      rw [List.map_cons, List.filterMap_cons, quoteWarning?_value, ih]
      by_cases hfield : field.IsSuspicious <;> simp [hfield]

end TextField

def Statement.localizedTexts : Statement → List String
  | identity (.lookAt _ text) | identity (.useMessage _ text) | identity (.wrongLanguage _ text) =>
    [text]
  | trade (.message _ text) | guard (.text _ text) | cycleText text => [text.german, text.english]
  | _ => []

def Grammar.Assignment.HoldsTexts (assignment : Assignment) (texts : List String) : Prop :=
  ∃ fields : List TextField, fields ≠ [] ∧ assignment.values = fields.map TextField.value ∧
    texts = fields.map (String.ofList ·.text)

/-! ### Values as fields -/

theorem Grammar.Assignment.exists_isWritten_of_mem {line : List Char} {assignment : Assignment}
    (h : ofLine line = .ok assignment) {value : Value} (hvalue : value ∈ assignment.values) :
    ∃ s offset, value.IsWritten s offset := by
  obtain ⟨hstart, hkey, hlink, hvalues, hne, hending⟩ := isWritten_of_ofLine h
  obtain ⟨s, offset, hwritten, -⟩ := hvalues.exists_of_mem hvalue
  exact ⟨s, offset, hwritten⟩

/-- The text that a value is taken for is the text of a field. -/
theorem Grammar.Value.quotedText_field {value : Value} {s : List Char} {offset : Nat}
    (h : value.IsWritten s offset) (keyword : List Char) (expected : String) :
    Ends (value.quotedText keyword expected)
      (fun text => ∃ field : TextField, value = field.value ∧ text = String.ofList field.text)
      (fun _ => True) := by
  cases h with
  | quoted hs =>
      obtain ⟨text, ⟨hbody⟩⟩ := hs
      let field : TextField := ⟨offset + 1, _, text, hbody⟩
      refine ⟨field, rfl, ?_⟩
      exact congrArg String.ofList field.unquote_literal
  | number hs => exact True.intro
  | word hs => exact True.intro
  | call hname hgap harguments => exact True.intro

section Keys

variable {assignment : Assignment}
  (h : ∀ value ∈ assignment.values, ∃ s offset, value.IsWritten s offset)

include h

theorem Grammar.Assignment.singleText_fields (expected : String) :
    Ends (do (← assignment.single expected).quotedText assignment.key expected)
      (fun text => assignment.HoldsTexts [text]) (fun _ => True) := by
  have hsingle : Ends (assignment.single expected) (fun value => assignment.values = [value])
      (fun _ => True) := by
    unfold single
    split
    · rename_i value hvalues
      exact hvalues
    · exact True.intro
  refine hsingle.bind fun value hvalues => ?_
  obtain ⟨s, offset, hwritten⟩ := h value (by simp [hvalues])
  refine (Value.quotedText_field hwritten _ _).mono ?_
  rintro text ⟨field, rfl, rfl⟩
  exact ⟨[field], by simp, hvalues, rfl⟩

theorem Grammar.Assignment.localizedText_fields (expected : String) :
    Ends (assignment.localizedText expected)
      (fun text => assignment.HoldsTexts [text.german, text.english]) (fun _ => True) := by
  unfold localizedText
  split
  · rename_i german english hvalues
    obtain ⟨s, offset, hgerman⟩ := h german (by simp [hvalues])
    obtain ⟨t, offset', henglish⟩ := h english (by simp [hvalues])
    refine (Value.quotedText_field hgerman _ _).bind ?_
    rintro text ⟨first, rfl, rfl⟩
    refine (Value.quotedText_field henglish _ _).bind ?_
    rintro text ⟨second, rfl, rfl⟩
    exact ⟨[first, second], by simp, hvalues, rfl⟩
  · exact True.intro

/-! ### Statements of fields -/

theorem Identity.ofAssignment_fields {key : IdentityKey} (hkey : key.isLocalized = true) :
    Ends (ofAssignment key assignment)
      (fun fact => assignment.HoldsTexts (Statement.identity fact).localizedTexts)
      (fun _ => True) := by
  have htext := Assignment.singleText_fields h key.expected
  cases key with
  | lookAtDe | lookAtUs | useMsgDe | useMsgUs | wrongLangDe | wrongLangUs =>
      exact htext.map fun _ hfields => hfields
  | _ => cases hkey

theorem Trade.ofAssignment_fields (context : Context) (line : List Char) {form : TradeForm}
    (hform : (form matches .message _) = true) :
    Ends (ofAssignment context line form assignment)
      (fun fact => assignment.HoldsTexts (Statement.trade fact).localizedTexts)
      (fun _ => True) := by
  cases form with
  | message kind =>
      have htexts := Assignment.localizedText_fields h (TradeForm.message kind).expected
      exact (htexts.part fun _ _ => True.intro).map fun _ hfields => hfields
  | list mode => cases hform
  | single mode => cases hform

theorem Guard.ofAssignment_fields {key : GuardKey}
    (hkey : (AssignmentKey.guard key).isLocalized = true) :
    Ends (ofAssignment key assignment)
      (fun fact => assignment.HoldsTexts (Statement.guard fact).localizedTexts)
      (fun _ => True) := by
  have htexts := Assignment.localizedText_fields h key.expected
  cases key with
  | warpedMonsterMsg | warpedPlayerMsg | hitPlayerMsg =>
      exact (htexts.part fun _ _ => True.intro).map fun _ hfields => hfields
  | _ => cases hkey

/-- A statement with a localized key states the texts of its values. -/
theorem AssignmentKey.statement_fields {key : AssignmentKey} (hkey : key.isLocalized = true)
    (context : Context) (line : List Char) :
    Ends (key.statement context line assignment)
      (fun statement => assignment.HoldsTexts statement.localizedTexts) (fun _ => True) := by
  cases key with
  | identity key =>
      have hidentity := Identity.ofAssignment_fields h hkey
      exact (hidentity.part fun _ _ => True.intro).map fun _ hfields => hfields
  | trade key =>
      exact (Trade.ofAssignment_fields h context line hkey).map fun _ hfields => hfields
  | guard key => exact (Guard.ofAssignment_fields h hkey).map fun _ hfields => hfields
  | cycleText =>
      have htexts := Assignment.localizedText_fields h cycleTextExpected
      exact (htexts.part fun _ _ => True.intro).map fun _ hfields => hfields
  | appearance key => cases hkey
  | equipment slot => cases hkey

end Keys

end NpcScript
