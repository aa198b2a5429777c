import NpcScript.Checked
import NpcScript.Clause.Line
import NpcScript.Proofs.Text.Recasing
import Mathlib.Data.List.Forall2

/-!
Readings of scripts that are alike. Two scripts may say the same at different columns or in another
letter case, and what is read of them then differs in the same way and in no other. A `Likeness`
says how columns and letters may differ. Two results agree if both are values or both are errors,
and the values or the errors are alike; the rules below follow the ways in which readers are put
together.
-/

namespace NpcScript

open Grammar (Lexeme)

theorem string_map_ofList (f : Char → Char) (s : List Char) :
    (String.ofList s).map f = String.ofList (s.map f) := by
  apply String.toList_inj.mp
  simp

/-! ### What may be rewritten -/

def Cause.mapText (f : Char → Char) : Cause → Cause
  | unparseableLine text => unparseableLine (text.map f)
  | malformedStatement keyword expected => malformedStatement (keyword.map f) expected
  | valueOutOfRange field value min max => valueOutOfRange field (value.map f) min max
  | malformedNumber field text => malformedNumber field (text.map f)
  | unknownToken field token expected => unknownToken field (token.map f) expected
  | unknownItem id text => unknownItem id (text.map f)
  | unknownSkill name => unknownSkill (name.map f)
  | unknownKeyword keyword => unknownKeyword (keyword.map f)
  | invalidClause keyword reason => invalidClause (keyword.map f) reason
  | suspiciousQuote field text => suspiciousQuote field (text.map f)

/-- The quantity, rewritten if it is an expression. -/
def Quantity.mapText (f : Char → Char) : Quantity → Quantity
  | .expression text => .expression (text.map f)
  | other => other

def Condition.mapText (f : Char → Char) : Condition → Condition
  | attrib stat op value => attrib stat op (value.mapText f)
  | item found location op value => item found location op (value.mapText f)
  | money op value => money op (value.mapText f)
  | number op value => number op (value.mapText f)
  | questStatus quest op value => questStatus quest op (value.mapText f)
  | rank op value => rank op (value.mapText f)
  | skill name op value => skill name op (value.mapText f)
  | state op value => state op (value.mapText f)
  | other => other

def Consequence.mapText (f : Char → Char) : Consequence → Consequence
  | attrib stat op value => attrib stat op (value.mapText f)
  | deleteItem found amount => deleteItem found (amount.mapText f)
  | item found amount quality => item found (amount.mapText f) quality
  | money op value => money op (value.mapText f)
  | questStatus quest op value => questStatus quest op (value.mapText f)
  | rankPoints op value => rankPoints op (value.mapText f)
  | skill name op value => skill name op (value.mapText f)
  | state op value => state op (value.mapText f)
  | other => other

def Meaning.mapText (f : Char → Char) : Meaning → Meaning
  | condition found => condition (found.mapText f)
  | consequence found => consequence (found.mapText f)

section Identity

@[simp] theorem Cause.mapText_id (cause : Cause) : cause.mapText id = cause := by
  cases cause <;> simp [mapText]

@[simp] theorem Quantity.mapText_id (value : Quantity) : value.mapText id = value := by
  cases value <;> simp [mapText]

@[simp] theorem Condition.mapText_id (condition : Condition) :
    condition.mapText id = condition := by
  cases condition <;> simp [mapText]

@[simp] theorem Consequence.mapText_id (consequence : Consequence) :
    consequence.mapText id = consequence := by
  cases consequence <;> simp [mapText]

@[simp] theorem Meaning.mapText_id (meaning : Meaning) : meaning.mapText id = meaning := by
  cases meaning <;> simp [mapText]

end Identity

/-! ### Agreement of results -/

/-- Both results are values that are alike, or both are errors that are alike. -/
inductive Agree {α α' ε ε' : Type} (good : α → α' → Prop) (bad : ε → ε' → Prop) :
    Except ε α → Except ε' α' → Prop
  | ok {a : α} {a' : α'} (h : good a a') : Agree good bad (.ok a) (.ok a')
  | error {e : ε} {e' : ε'} (h : bad e e') : Agree good bad (.error e) (.error e')

namespace Agree

variable {α α' β β' ε ε' : Type} {good : α → α' → Prop} {better : β → β' → Prop}
  {bad : ε → ε' → Prop} {result : Except ε α} {result' : Except ε' α'}

theorem bind {next : α → Except ε β} {next' : α' → Except ε' β'} (h : Agree good bad result result')
    (hnext : ∀ a a', good a a' → Agree better bad (next a) (next' a')) :
    Agree better bad (result >>= next) (result' >>= next') := by
  cases h with
  | ok h => exact hnext _ _ h
  | error h => exact .error h

theorem map {f : α → β} {f' : α' → β'} (h : Agree good bad result result')
    (hf : ∀ a a', good a a' → better (f a) (f' a')) :
    Agree better bad (f <$> result) (f' <$> result') := by
  cases h with
  | ok h => exact .ok (hf _ _ h)
  | error h => exact .error h

/-- Values that agree are the same value, and are used for the same. -/
theorem bindEq {result : Except ε α} {result' : Except ε' α} {next : α → Except ε β}
    {next' : α → Except ε' β'} (h : Agree Eq bad result result')
    (hnext : ∀ a, Agree better bad (next a) (next' a)) :
    Agree better bad (result >>= next) (result' >>= next') :=
  h.bind fun a a' ha => by
    subst ha
    exact hnext a

theorem mapEq {result : Except ε α} {result' : Except ε' α} (f : α → β)
    (h : Agree Eq bad result result') : Agree Eq bad (f <$> result) (f <$> result') :=
  h.map fun _ _ ha => congrArg f ha

theorem mapM_option {read : α → Except ε β} {read' : α' → Except ε' β'} {piece : Option α}
    {piece' : Option α'} (hpiece : Option.Rel good piece piece')
    (h : ∀ a a', good a a' → Agree better bad (read a) (read' a')) :
    Agree (Option.Rel better) bad (piece.mapM read) (piece'.mapM read') := by
  cases hpiece with
  | none => exact .ok .none
  | some ha => exact (h _ _ ha).bind fun _ _ hb => .ok (.some hb)

end Agree

/-! ### Likeness -/

/-- How two scripts may differ: which columns stand for each other, how letters are rewritten before
they are compared, and which string literals stand for each other. -/
structure Likeness where
  column : Nat → Nat → Prop
  fold : Char → Char
  isRecasing : Text.IsRecasing fold
  literal : Lexeme → Lexeme → Prop

namespace Likeness

def SameText (L : Likeness) (s s' : List Char) : Prop :=
  s.map L.fold = s'.map L.fold

def KeepsLiterals (L : Likeness) : Prop :=
  ∀ source source', L.literal source source' → source.text = source'.text

variable {L : Likeness} {s s' : List Char}

namespace SameText

theorem refl (s : List Char) : L.SameText s s :=
  rfl

theorem lower_eq (h : L.SameText s s') : Text.lower s = Text.lower s' :=
  L.isRecasing.lower_eq h

theorem trim (h : L.SameText s s') : L.SameText (Text.trim s) (Text.trim s') := by
  unfold SameText
  rw [← L.isRecasing.trim_map, h, L.isRecasing.trim_map]

theorem map_ofList (h : L.SameText s s') :
    (String.ofList s).map L.fold = (String.ofList s').map L.fold := by
  rw [string_map_ofList, string_map_ofList, h]

end SameText

end Likeness

/-- The issues are at columns that stand for each other, and say the same up to what they quote. -/
structure Issue.Alike (L : Likeness) (issue issue' : Issue) : Prop where
  column : ∃ c c', issue.column = some c ∧ issue'.column = some c' ∧ L.column c c'
  cause : issue.cause.mapText L.fold = issue'.cause.mapText L.fold

variable {L : Likeness}

theorem Issue.alike_atColumn {c c' : Nat} {cause cause' : Cause} (hcolumn : L.column c c')
    (hcause : cause.mapText L.fold = cause'.mapText L.fold) :
    Issue.Alike L (.atColumn c cause) (.atColumn c' cause') :=
  ⟨⟨c, c', rfl, rfl, hcolumn⟩, hcause⟩

/-! ### Checked results -/

namespace Agree

variable {α α' β β' : Type} {good : α → α' → Prop} {better : β → β' → Prop}
  {bad : Issue → Issue → Prop}

theorem ofPart {result : Except Issue α} {result' : Except Issue α'}
    (h : Agree good bad result result') :
    Agree good (List.Forall₂ bad) (Checked.ofPart result) (Checked.ofPart result') := by
  cases h with
  | ok h => exact .ok h
  | error h => exact .error (.cons h .nil)

theorem both {first : Checked α} {first' : Checked α'} {second : Checked β} {second' : Checked β'}
    (hfirst : Agree good (List.Forall₂ bad) first first')
    (hsecond : Agree better (List.Forall₂ bad) second second') :
    Agree (fun pair pair' => good pair.1 pair'.1 ∧ better pair.2 pair'.2) (List.Forall₂ bad)
      (Checked.both first second) (Checked.both first' second') := by
  -- The second part is read even if the first one is wrong, so all four ways come up.
  cases hfirst with
  | ok hfirst =>
      cases hsecond with
      | ok hsecond => exact .ok ⟨hfirst, hsecond⟩
      | error hsecond => exact .error hsecond
  | error hfirst =>
      cases hsecond with
      | ok hsecond => exact .error hfirst
      | error hsecond => exact .error (List.rel_append hfirst hsecond)

theorem each {read : α → Except Issue β} {read' : α' → Except Issue β'} {parts : List α}
    {parts' : List α'} (hparts : List.Forall₂ good parts parts')
    (h : ∀ a a', good a a' → Agree better bad (read a) (read' a')) :
    Agree (List.Forall₂ better) (List.Forall₂ bad) (Checked.each read parts)
      (Checked.each read' parts') := by
  induction hparts with
  | nil => exact .ok .nil
  | cons ha hothers ih =>
      refine map (both (ofPart (h _ _ ha)) ih) ?_
      rintro ⟨b, bs⟩ ⟨b', bs'⟩ ⟨hb, hbs⟩
      exact .cons hb hbs

/-- The same parts are read in two ways. -/
theorem eachEq {read read' : α → Except Issue β} (h : ∀ a, Agree Eq bad (read a) (read' a))
    (parts : List α) :
    Agree Eq (List.Forall₂ bad) (Checked.each read parts) (Checked.each read' parts) := by
  have hparts : List.Forall₂ Eq parts parts := List.forall₂_refl parts
  have hresults : Agree (List.Forall₂ Eq) (List.Forall₂ bad) (Checked.each read parts)
      (Checked.each read' parts) :=
    each hparts fun a a' ha => by
      subst ha
      exact h a
  rwa [List.forall₂_eq_eq_eq] at hresults

end Agree

end NpcScript
