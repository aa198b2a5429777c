import NpcScript.Script

/-!
How a reading ends. Every reader of the library answers a value or an issue, and two questions are
asked of all of them: what is known of the value, and what is known of the issue. `Ends` asks both
at once, so that each reader is taken apart a single time; the rules below follow the ways in which
readers are put together. A part of a statement may only fail with a *fault*: an issue that is no
warning, does not speak of the line as a whole and says what was expected instead.
-/

namespace NpcScript

variable {α β ε : Type}

/-- The result is a value of which `good` holds or an error of which `bad` holds. -/
def Ends (result : Except ε α) (good : α → Prop) (bad : ε → Prop) : Prop :=
  match result with
  | .ok a => good a
  | .error e => bad e

namespace Ends

variable {good good' : α → Prop} {better : β → Prop} {bad : ε → Prop}

/-- Nothing has to be known of the result. -/
theorem of_forall (result : Except ε α) (hgood : ∀ a, good a) (hbad : ∀ e, bad e) :
    Ends result good bad := by
  cases result with
  | ok a => exact hgood a
  | error e => exact hbad e

theorem value {result : Except ε α} {a : α} (h : Ends result good bad) (hr : result = .ok a) :
    good a := by
  subst hr
  exact h

theorem error {result : Except ε α} {e : ε} (h : Ends result good bad)
    (hr : result = .error e) : bad e := by
  subst hr
  exact h

theorem mono {result : Except ε α} (h : Ends result good bad) (hgood : ∀ a, good a → good' a) :
    Ends result good' bad := by
  cases result with
  | ok a => exact hgood a h
  | error e => exact h

theorem bind {result : Except ε α} {next : α → Except ε β} (h : Ends result good bad)
    (hnext : ∀ a, good a → Ends (next a) better bad) : Ends (result >>= next) better bad := by
  cases result with
  | ok a => exact hnext a h
  | error e => exact h

theorem map {result : Except ε α} {f : α → β} (h : Ends result good bad)
    (hf : ∀ a, good a → better (f a)) : Ends (f <$> result) better bad := by
  cases result with
  | ok a => exact hf a h
  | error e => exact h

/-- What is known of the value may refer to the reading it came from. -/
theorem remember {result : Except ε α} (h : Ends result good bad) :
    Ends result (fun a => result = .ok a ∧ good a) bad := by
  cases result with
  | ok a => exact ⟨rfl, h⟩
  | error e => exact h

theorem mapM_option {read : α → Except ε β} {piece : Option α}
    (h : ∀ a, piece = some a → Ends (read a) better bad) :
    Ends (piece.mapM read) (fun found => ∀ b, found = some b → better b) bad := by
  cases piece with
  | none =>
      intro b hb
      cases hb
  | some a =>
      refine bind (h a rfl) fun b hb => ?_
      rintro b' ⟨⟩
      exact hb

end Ends

/-! ### Faults -/

def Cause.IsFault : Cause → Prop
  | .unparseableLine _ | .suspiciousQuote _ _ => False
  | .malformedStatement _ expected => expected ≠ completeStatement
  | _ => True

def Issue.IsFault (issue : Issue) : Prop :=
  issue.cause.IsFault

structure Faults (issues : List Issue) : Prop where
  ne_nil : issues ≠ []
  isFault : ∀ issue ∈ issues, issue.IsFault

theorem Cause.IsFault.isWarning_eq_false {cause : Cause} (h : cause.IsFault) :
    cause.isWarning = false := by
  cases cause with
  | suspiciousQuote field text => exact h.elim
  | _ => rfl

theorem Faults.singleton {issue : Issue} (h : issue.IsFault) : Faults [issue] := by
  refine ⟨by simp, ?_⟩
  intro other hother
  rw [List.mem_singleton.mp hother]
  exact h

theorem Faults.append {issues more : List Issue} (h : Faults issues) (hmore : Faults more) :
    Faults (issues ++ more) := by
  refine ⟨by simp [h.ne_nil], ?_⟩
  intro issue hissue
  rcases List.mem_append.mp hissue with hissue | hissue
  · exact h.isFault issue hissue
  · exact hmore.isFault issue hissue

namespace Ends

variable {good : α → Prop} {better : β → Prop}

theorem part {result : Except Issue α} {bad : Issue → Prop} {worse : List Issue → Prop}
    (h : Ends result good bad) (hbad : ∀ issue, bad issue → worse [issue]) :
    Ends (Checked.ofPart result) good worse := by
  cases result with
  | ok a => exact h
  | error issue => exact hbad issue h

theorem ofPart {result : Except Issue α} (h : Ends result good Issue.IsFault) :
    Ends (Checked.ofPart result) good Faults :=
  h.part fun _ hissue => Faults.singleton hissue

section Parts

variable {bad : Issue → Prop} {worse : List Issue → Prop}
  (happend : ∀ {issues more : List Issue}, worse issues → worse more → worse (issues ++ more))

include happend

theorem bothOf {first : Checked α} {second : Checked β} (hfirst : Ends first good worse)
    (hsecond : Ends second better worse) :
    Ends (Checked.both first second) (fun pair => good pair.1 ∧ better pair.2) worse := by
  -- The second part is read even if the first one is wrong, so all four ways come up.
  cases first with
  | ok a =>
      cases second with
      | ok b => exact ⟨hfirst, hsecond⟩
      | error issues => exact hsecond
  | error issues =>
      cases second with
      | ok b => exact hfirst
      | error more => exact happend hfirst hsecond

/-- Where every part is read, there is one result for each and all are good. -/
theorem eachOf (hsingle : ∀ issue, bad issue → worse [issue]) {read : α → Except Issue β}
    {parts : List α} (h : ∀ a ∈ parts, Ends (read a) better bad) :
    Ends (Checked.each read parts)
      (fun results => results.length = parts.length ∧ ∀ b ∈ results, better b) worse := by
  induction parts with
  | nil => exact ⟨rfl, by simp⟩
  | cons a others ih =>
      have hhead := (h a (by simp)).part hsingle
      have htail := ih fun b hb => h b (by simp [hb])
      refine map (bothOf happend hhead htail) ?_
      rintro ⟨b, bs⟩ ⟨hb, hlength, hbs⟩
      refine ⟨by simpa using hlength, ?_⟩
      intro b' hb'
      rcases List.mem_cons.mp hb' with rfl | hb'
      · exact hb
      · exact hbs b' hb'

end Parts

theorem both {first : Checked α} {second : Checked β} (hfirst : Ends first good Faults)
    (hsecond : Ends second better Faults) :
    Ends (Checked.both first second) (fun pair => good pair.1 ∧ better pair.2) Faults :=
  bothOf Faults.append hfirst hsecond

theorem each {read : α → Except Issue β} {parts : List α}
    (h : ∀ a ∈ parts, Ends (read a) better Issue.IsFault) :
    Ends (Checked.each read parts)
      (fun results => results.length = parts.length ∧ ∀ b ∈ results, better b) Faults :=
  eachOf Faults.append (fun _ => Faults.singleton) h

end Ends

end NpcScript
