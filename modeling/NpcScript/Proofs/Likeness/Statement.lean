import NpcScript.Proofs.Likeness.Form
import NpcScript.Statement.Assigned

/-!
Assignments that are alike. No part of an assignment is kept as it was written save the string
literals, so assignments that are alike make the same statement, or fail with issues that are alike.
-/

namespace NpcScript

open Text
open Grammar (Assignment Value Lexeme)

variable {L : Likeness}

namespace Grammar

/-! ### Forms -/

inductive Value.Alike (L : Likeness) : Value → Value → Prop
  | quoted {source source' : Lexeme} (hsource : source.AlikeLiteral L source') :
      Alike L (.quoted source) (.quoted source')
  | number {source source' : Lexeme} (hsource : source.Alike L source') :
      Alike L (.number source) (.number source')
  | word {source source' : Lexeme} (hsource : source.Alike L source') :
      Alike L (.word source) (.word source')
  | call {source source' : Lexeme} {name name' : List Char} {arguments arguments' : List Value}
      (hsource : source.Alike L source') (hname : L.SameText name name')
      (harguments : List.Forall₂ (Alike L) arguments arguments') :
      Alike L (.call source name arguments) (.call source' name' arguments')

/-- There is at least one value, as the grammar demands. -/
structure Assignment.Alike (L : Likeness) (assignment assignment' : Assignment) : Prop where
  key : L.SameText assignment.key assignment'.key
  values : List.Forall₂ (Value.Alike L) assignment.values assignment'.values
  ne_nil : assignment.values ≠ []

end Grammar

theorem malformed_alike {keyword keyword' : List Char} (hkeyword : L.SameText keyword keyword')
    (expected : String) {c c' : Nat} (hcolumn : L.column c c') :
    Issue.Alike L (malformed keyword expected c) (malformed keyword' expected c') := by
  refine Issue.alike_atColumn hcolumn ?_
  simp only [Cause.mapText, hkeyword.map_ofList]

/-! ### Values -/

theorem hasEscapedQuote_map {f : Char → Char} (hf : IsRecasing f) (s : List Char) :
    hasEscapedQuote (s.map f) = hasEscapedQuote s := by
  have hbackslash (c : Char) : f c = '\\' ↔ c = '\\' := hf.eq_iff (by decide)
  have hquote (c : Char) : f c = '"' ↔ c = '"' := hf.eq_iff (by decide)
  fun_induction hasEscapedQuote s with
  | case1 rest =>
      rw [List.map_cons, List.map_cons, (hbackslash _).mpr rfl, (hquote _).mpr rfl]
      rfl
  | case2 c rest hnot ih =>
      rw [List.map_cons, ← ih, hasEscapedQuote.eq_def]
      split
      · rename_i behind heq
        obtain ⟨hc, hrest⟩ := List.cons.inj heq
        obtain ⟨d, rest', rfl, hd, -⟩ := List.map_eq_cons_iff.mp hrest
        exact (hnot rest' ((hbackslash c).mp hc) (by rw [(hquote d).mp hd])).elim
      · simp_all
      · simp_all
  | case3 => rfl

namespace Grammar.Value

variable {value value' : Value} (h : value.Alike L value')

include h

theorem source_alike : value.source.Alike L value'.source := by
  cases h with
  | quoted hsource => exact hsource.toAlike
  | number hsource => exact hsource
  | word hsource => exact hsource
  | call hsource hname harguments => exact hsource

theorem column_alike : L.column value.column value'.column :=
  (source_alike h).column

theorem text_alike : L.SameText value.text value'.text :=
  (source_alike h).text

theorem integer_alike (place : NumericPlace) :
    Agree Eq (Issue.Alike L) (value.integer place) (value'.integer place) := by
  have hother : Issue.Alike L
      (.atColumn value.column (.malformedNumber place.field (String.ofList value.text)))
      (.atColumn value'.column (.malformedNumber place.field (String.ofList value'.text))) := by
    refine Issue.alike_atColumn (column_alike h) ?_
    simp only [Cause.mapText, (text_alike h).map_ofList]
  cases h with
  | number hsource => exact place.read_alike hsource.column hsource.text
  | quoted hsource => exact .error hother
  | word hsource => exact .error hother
  | call hsource hname harguments => exact .error hother

theorem natural_alike (place : NumericPlace) :
    Agree Eq (Issue.Alike L) (value.natural place) (value'.natural place) :=
  (integer_alike h place).mapEq _

/-- Neither a backslash nor a quote has another spelling. -/
theorem quoteWarning?_alike :
    Option.Rel (Issue.Alike L) value.quoteWarning? value'.quoteWarning? := by
  have hescaped : hasEscapedQuote value.text = hasEscapedQuote value'.text := by
    rw [← hasEscapedQuote_map L.isRecasing, text_alike h, hasEscapedQuote_map L.isRecasing]
  unfold quoteWarning?
  rw [hescaped]
  split
  · refine .some (Issue.alike_atColumn (column_alike h) ?_)
    simp only [Cause.mapText, (text_alike h).map_ofList]
  · exact .none

variable (hL : L.KeepsLiterals) {keyword keyword' : List Char}
  (hkeyword : L.SameText keyword keyword') (expected : String)

include hL hkeyword

theorem quotedText_alike :
    Agree Eq (Issue.Alike L) (value.quotedText keyword expected)
      (value'.quotedText keyword' expected) := by
  have hother := malformed_alike hkeyword expected (column_alike h)
  cases h with
  | quoted hsource =>
      simp only [quotedText, hL _ _ hsource.literal]
      exact .ok rfl
  | number hsource => exact .error hother
  | word hsource => exact .error hother
  | call hsource hname harguments => exact .error hother

theorem token_alike :
    Agree L.SameText (Issue.Alike L) (value.token keyword expected)
      (value'.token keyword' expected) := by
  have hother := malformed_alike hkeyword expected (column_alike h)
  cases h with
  | quoted hsource =>
      simp only [token, hL _ _ hsource.literal]
      exact .ok (.refl _)
  | word hsource => exact .ok hsource.text
  | number hsource => exact .error hother
  | call hsource hname harguments => exact .error hother

end Grammar.Value

theorem Grammar.Value.position_alike {x x' y y' z z' : Value} (hx : x.Alike L x')
    (hy : y.Alike L y') (hz : z.Alike L z') :
    Agree Eq (Issue.Alike L) (position x y z) (position x' y' z') := by
  refine (integer_alike hx _).bindEq fun x => ?_
  refine (integer_alike hy _).bindEq fun y => ?_
  exact (integer_alike hz _).bindEq fun z => .ok rfl

/-! ### Numbers of values -/

section Lists

variable {α α' : Type} {related : α → α' → Prop} {as : List α} {as' : List α'}

theorem getElem?_alike (h : List.Forall₂ related as as') (i : Nat) :
    Option.Rel related as[i]? as'[i]? := by
  induction h generalizing i with
  | nil => exact .none
  | cons ha hothers ih =>
      cases i with
      | zero => exact .some ha
      | succ i => simpa using ih i

theorem getLast?_alike (h : List.Forall₂ related as as') :
    Option.Rel related as.getLast? as'.getLast? := by
  rw [List.getLast?_eq_getElem?, List.getLast?_eq_getElem?, h.length_eq]
  exact getElem?_alike h _

end Lists

namespace Grammar.Assignment

variable {assignment assignment' : Assignment} (h : assignment.Alike L assignment')

include h

theorem wrongCount_alike (count : Nat) (expected : String) :
    Issue.Alike L (assignment.wrongCount count expected)
      (assignment'.wrongCount count expected) := by
  refine malformed_alike h.key expected ?_
  obtain ⟨-, hvalues, hne⟩ := h
  have hcount := getElem?_alike hvalues count
  have hlast := getLast?_alike hvalues
  have hsome := List.getLast?_isSome.mpr hne
  generalize assignment.values[count]? = found at hcount
  generalize assignment'.values[count]? = found' at hcount
  generalize assignment.values.getLast? = last at hlast hsome
  generalize assignment'.values.getLast? = last' at hlast
  cases hcount with
  | some hvalue => exact Value.column_alike hvalue
  | none =>
      cases hlast with
      | some hvalue => exact Value.column_alike hvalue
      | none => cases hsome

theorem single_alike (expected : String) :
    Agree (Value.Alike L) (Issue.Alike L) (assignment.single expected)
      (assignment'.single expected) := by
  have hwrong := wrongCount_alike h 1 expected
  obtain ⟨-, hvalues, -⟩ := h
  unfold single
  generalize assignment.values = values at hvalues
  generalize assignment'.values = values' at hvalues
  rcases hvalues with _ | ⟨hfirst, _ | ⟨hsecond, hothers⟩⟩
  · exact .error hwrong
  · exact .ok hfirst
  · exact .error hwrong

theorem triple_alike (expected : String) :
    Agree (fun values values' => values.1.Alike L values'.1 ∧ values.2.1.Alike L values'.2.1 ∧
        values.2.2.Alike L values'.2.2) (Issue.Alike L)
      (assignment.triple expected) (assignment'.triple expected) := by
  have hwrong := wrongCount_alike h 3 expected
  obtain ⟨-, hvalues, -⟩ := h
  unfold triple
  generalize assignment.values = values at hvalues
  generalize assignment'.values = values' at hvalues
  rcases hvalues with _ | ⟨hfirst, _ | ⟨hsecond, _ | ⟨hthird, _ | ⟨hfourth, hothers⟩⟩⟩⟩
  · exact .error hwrong
  · exact .error hwrong
  · exact .error hwrong
  · exact .ok ⟨hfirst, hsecond, hthird⟩
  · exact .error hwrong

theorem quadruple_alike (expected : String) :
    Agree (fun values values' => values.1.Alike L values'.1 ∧ values.2.1.Alike L values'.2.1 ∧
        values.2.2.1.Alike L values'.2.2.1 ∧ values.2.2.2.Alike L values'.2.2.2) (Issue.Alike L)
      (assignment.quadruple expected) (assignment'.quadruple expected) := by
  have hwrong := wrongCount_alike h 4 expected
  obtain ⟨-, hvalues, -⟩ := h
  unfold quadruple
  generalize assignment.values = values at hvalues
  generalize assignment'.values = values' at hvalues
  rcases hvalues with
    _ | ⟨hfirst, _ | ⟨hsecond, _ | ⟨hthird, _ | ⟨hfourth, _ | ⟨hfifth, hothers⟩⟩⟩⟩⟩
  · exact .error hwrong
  · exact .error hwrong
  · exact .error hwrong
  · exact .error hwrong
  · exact .ok ⟨hfirst, hsecond, hthird, hfourth⟩
  · exact .error hwrong

theorem localizedText_alike (hL : L.KeepsLiterals) (expected : String) :
    Agree Eq (Issue.Alike L) (assignment.localizedText expected)
      (assignment'.localizedText expected) := by
  have hwrong := wrongCount_alike h 2 expected
  obtain ⟨hkey, hvalues, -⟩ := h
  unfold localizedText
  generalize assignment.values = values at hvalues
  generalize assignment'.values = values' at hvalues
  rcases hvalues with _ | ⟨hfirst, _ | ⟨hsecond, _ | ⟨hthird, hothers⟩⟩⟩
  · exact .error hwrong
  · exact .error hwrong
  · refine (Value.quotedText_alike hfirst hL hkey expected).bindEq fun german => ?_
    exact (Value.quotedText_alike hsecond hL hkey expected).bindEq fun english => .ok rfl
  · exact .error hwrong

end Grammar.Assignment

/-! ### Statements -/

section Statements

variable {assignment assignment' : Assignment} (h : assignment.Alike L assignment')
  (hL : L.KeepsLiterals)

theorem readSwitch_alike (field : String) {c c' : Nat} (hcolumn : L.column c c')
    {s s' : List Char} (htext : L.SameText s s') :
    Agree Eq (Issue.Alike L) (readSwitch field c s) (readSwitch field c' s') := by
  have hsame (t : List Char) : sameLetters s t = sameLetters s' t := by
    rw [sameLetters, htext.lower_eq, sameLetters]
  unfold readSwitch
  simp only [hsame]
  cases ["on", "true", "yes"].any fun word => sameLetters s' word.toList with
  | true => exact .ok rfl
  | false =>
      cases ["off", "false", "no"].any fun word => sameLetters s' word.toList with
      | true => exact .ok rfl
      | false =>
          refine .error (Issue.alike_atColumn hcolumn ?_)
          simp only [Cause.mapText, htext.map_ofList]

include h hL

theorem Identity.ofAssignment_alike (key : IdentityKey) :
    Agree Eq (Issue.Alike L) (ofAssignment key assignment) (ofAssignment key assignment') := by
  have htext : Agree Eq (Issue.Alike L)
      (do (← assignment.single key.expected).quotedText assignment.key key.expected)
      (do (← assignment'.single key.expected).quotedText assignment'.key key.expected) :=
    (Assignment.single_alike h _).bind fun _ _ hvalue =>
      Value.quotedText_alike hvalue hL h.key _
  have hmember (α : Type) [Vocabulary α] (field : String) : Agree Eq (Issue.Alike L)
      (do
        let value ← assignment.single key.expected
        Vocabulary.resolve α field value.column (← value.token assignment.key key.expected))
      (do
        let value ← assignment'.single key.expected
        Vocabulary.resolve α field value.column (← value.token assignment'.key key.expected)) := by
    refine (Assignment.single_alike h _).bind fun _ _ hvalue => ?_
    refine (Value.token_alike hvalue hL h.key _).bind fun _ _ htoken => ?_
    exact Vocabulary.resolve_alike α field (Value.column_alike hvalue) htoken
  cases key with
  | name | author | job | lookAtDe | lookAtUs | useMsgDe | useMsgUs | wrongLangDe | wrongLangUs =>
      exact htext.mapEq _
  | race | sex | direction | affiliation | defaultLanguage | language =>
      exact (hmember _ _).mapEq _
  | position =>
      refine (Assignment.triple_alike h _).bind fun _ _ hvalues => ?_
      exact (Value.position_alike hvalues.1 hvalues.2.1 hvalues.2.2).bindEq fun _ => .ok rfl
  | autoIntroduce =>
      refine (Assignment.single_alike h _).bind fun _ _ hvalue => ?_
      refine (Value.token_alike hvalue hL h.key _).bind fun _ _ htoken => ?_
      exact (readSwitch_alike _ (Value.column_alike hvalue) htoken).bindEq fun _ => .ok rfl

omit hL in
theorem Appearance.ofAssignment_alike (key : AppearanceKey) :
    Agree Eq (List.Forall₂ (Issue.Alike L)) (ofAssignment key assignment)
      (ofAssignment key assignment') := by
  have hcolor (redPlace greenPlace bluePlace : NumericPlace)
      {red red' green green' blue blue' : Value}
      (hred : red.Alike L red') (hgreen : green.Alike L green') (hblue : blue.Alike L blue') :
      Agree Eq (List.Forall₂ (Issue.Alike L))
        (Color.ofValues redPlace greenPlace bluePlace red green blue)
        (Color.ofValues redPlace greenPlace bluePlace red' green' blue') := by
    have hred := Agree.ofPart (Value.natural_alike hred redPlace)
    have hgreen := Agree.ofPart (Value.natural_alike hgreen greenPlace)
    have hblue := Agree.ofPart (Value.natural_alike hblue bluePlace)
    refine (hred.both (hgreen.both hblue)).map ?_
    rintro ⟨red, green, blue⟩ ⟨red', green', blue'⟩ ⟨rfl, rfl, rfl⟩
    rfl
  cases key with
  | hairId | beardId =>
      refine Agree.ofPart ((Assignment.single_alike h _).bind fun _ _ hvalue => ?_)
      exact (Value.natural_alike hvalue _).bindEq fun _ => .ok rfl
  | colorHair | colorSkin =>
      refine (Agree.ofPart (Assignment.triple_alike h _)).bind fun _ _ hvalues => ?_
      exact (hcolor _ _ _ hvalues.1 hvalues.2.1 hvalues.2.2).bindEq fun _ => .ok rfl

omit hL in
theorem EquipmentSlot.itemOfAssignment_alike (context : Context) {line line' : List Char}
    (hline : L.SameText (trim line) (trim line')) :
    Agree Eq (Issue.Alike L) (itemOfAssignment context line assignment)
      (itemOfAssignment context line' assignment') := by
  refine (Assignment.single_alike h _).bind fun value value' hvalue => ?_
  refine (Value.integer_alike hvalue _).bindEq fun id => ?_
  split
  · exact .ok rfl
  · refine Agree.bindEq ?_ fun _ => .ok rfl
    exact context.item_alike hline (Value.column_alike hvalue) (Value.text_alike hvalue)

theorem Guard.ofAssignment_alike (key : GuardKey) :
    Agree Eq (List.Forall₂ (Issue.Alike L)) (ofAssignment key assignment)
      (ofAssignment key assignment') := by
  cases key with
  | guardRange =>
      refine (Agree.ofPart (Assignment.quadruple_alike h _)).bind fun _ _ hvalues => ?_
      obtain ⟨hnorth, hsouth, hwest, heast⟩ := hvalues
      have hnorth := Agree.ofPart (Value.natural_alike hnorth .guardNorth)
      have hsouth := Agree.ofPart (Value.natural_alike hsouth .guardSouth)
      have hwest := Agree.ofPart (Value.natural_alike hwest .guardWest)
      have heast := Agree.ofPart (Value.natural_alike heast .guardEast)
      refine (hnorth.both (hsouth.both (hwest.both heast))).bind ?_
      rintro ⟨north, south, west, east⟩ ⟨north', south', west', east'⟩ ⟨rfl, rfl, rfl, rfl⟩
      exact .ok rfl
  | guardWarpTarget =>
      refine Agree.ofPart ((Assignment.triple_alike h _).bind fun _ _ hvalues => ?_)
      exact (Value.position_alike hvalues.1 hvalues.2.1 hvalues.2.2).bindEq fun _ => .ok rfl
  | warpedMonsterMsg | warpedPlayerMsg | hitPlayerMsg =>
      exact (Agree.ofPart (Assignment.localizedText_alike h hL _)).mapEq _

end Statements

/-! ### Trade -/

section Trade

variable (hL : L.KeepsLiterals) {keyword keyword' : List Char}
  (hkeyword : L.SameText keyword keyword') (expected : String) {value value' : Value}
  (h : value.Alike L value')

theorem TradeTerm.onlyArgument_alike {name name' : List Char} (hname : L.SameText name name')
    {c c' : Nat} (hcolumn : L.column c c') {arguments arguments' : List Value}
    (harguments : List.Forall₂ (Value.Alike L) arguments arguments') :
    Agree (Value.Alike L) (Issue.Alike L) (onlyArgument name c arguments)
      (onlyArgument name' c' arguments') := by
  rcases harguments with _ | ⟨hfirst, _ | ⟨hsecond, hothers⟩⟩
  · exact .error (malformed_alike hname _ hcolumn)
  · exact .ok hfirst
  · exact .error (malformed_alike hname _ hcolumn)

include hkeyword h

theorem tradedItemOfValue_alike (context : Context) {line line' : List Char}
    (hline : L.SameText (trim line) (trim line')) :
    Agree Eq (Issue.Alike L) (tradedItemOfValue context line keyword expected value)
      (tradedItemOfValue context line' keyword' expected value') := by
  have hother := malformed_alike hkeyword expected (Value.column_alike h)
  cases h with
  | number hsource => exact context.item_alike hline hsource.column hsource.text
  | quoted hsource => exact .error hother
  | word hsource => exact .error hother
  | call hsource hname harguments => exact .error hother

include hL

theorem TradeTerm.ofValue_alike :
    Agree Eq (Issue.Alike L) (ofValue keyword expected value)
      (ofValue keyword' expected value') := by
  have hother := malformed_alike hkeyword expected (Value.column_alike h)
  cases h with
  | quoted hsource => exact .error hother
  | number hsource => exact .error hother
  | word hsource => exact .error hother
  | call hsource hname harguments =>
      refine (Vocabulary.resolve_alike _ _ hsource.column hname).bindEq fun property => ?_
      have hsingle := onlyArgument_alike hname hsource.column harguments
      cases property with
      | de | us =>
          refine hsingle.bind fun _ _ hvalue => ?_
          exact (Value.quotedText_alike hvalue hL hname _).bindEq fun _ => .ok rfl
      | price | stack | quality =>
          refine hsingle.bind fun _ _ hvalue => ?_
          exact (Value.natural_alike hvalue _).bindEq fun _ => .ok rfl
      | data =>
          rcases harguments with _ | ⟨hkey, _ | ⟨hvalue, _ | ⟨hthird, hothers⟩⟩⟩
          · exact .error (malformed_alike hname _ hsource.column)
          · exact .error (malformed_alike hname _ hsource.column)
          · refine (Value.quotedText_alike hkey hL hname _).bindEq fun _ => ?_
            exact (Value.quotedText_alike hvalue hL hname _).bindEq fun _ => .ok rfl
          · exact .error (malformed_alike hname _ hsource.column)

end Trade

section Keys

variable {assignment assignment' : Assignment} (h : assignment.Alike L assignment')
  (hL : L.KeepsLiterals)

include h

/-- The warnings about texts that players read. -/
theorem AssignmentKey.warnings_alike (key : AssignmentKey) :
    List.Forall₂ (Issue.Alike L) (key.warnings assignment) (key.warnings assignment') := by
  unfold warnings
  split
  · exact List.rel_filterMap (fun _ _ hvalue => Value.quoteWarning?_alike hvalue) h.values
  · exact .nil

variable (context : Context) {line line' : List Char}
  (hline : L.SameText (trim line) (trim line'))

include hL hline

theorem Trade.ofAssignment_alike (form : TradeForm) :
    Agree Eq (List.Forall₂ (Issue.Alike L)) (ofAssignment context line form assignment)
      (ofAssignment context line' form assignment') := by
  have hitem {value value' : Value} (hvalue : value.Alike L value') :=
    tradedItemOfValue_alike h.key form.expected hvalue context hline
  cases form with
  | list mode =>
      refine (Agree.each h.values fun _ _ hvalue => hitem hvalue).map fun items items' hitems => ?_
      rw [List.forall₂_eq_eq_eq] at hitems
      exact congrArg (Trade.simple mode) hitems
  | single mode =>
      have hterm {value value' : Value} (hvalue : value.Alike L value') :=
        TradeTerm.ofValue_alike hL h.key (TradeForm.single mode).expected hvalue
      have hvalues := h.values
      have hne := h.ne_nil
      simp only [ofAssignment]
      generalize assignment.values = values at hvalues hne
      generalize assignment'.values = values' at hvalues
      cases hvalues with
      | nil => exact absurd rfl hne
      | cons hfirst hothers =>
          have hterms := Agree.each hothers fun _ _ hvalue => hterm hvalue
          refine ((Agree.ofPart (hitem hfirst)).both hterms).map ?_
          rintro ⟨item, terms⟩ ⟨item', terms'⟩ ⟨rfl, hterms⟩
          rw [List.forall₂_eq_eq_eq] at hterms
          subst hterms
          rfl
  | message kind => exact (Agree.ofPart (Assignment.localizedText_alike h hL _)).mapEq _

/-- Assignments that are alike make the same statement. -/
theorem AssignmentKey.statement_alike (key : AssignmentKey) :
    Agree Eq (List.Forall₂ (Issue.Alike L)) (key.statement context line assignment)
      (key.statement context line' assignment') := by
  cases key with
  | identity key => exact (Agree.ofPart (Identity.ofAssignment_alike h hL key)).mapEq _
  | appearance key => exact (Appearance.ofAssignment_alike h key).mapEq _
  | equipment slot =>
      exact (Agree.ofPart (EquipmentSlot.itemOfAssignment_alike h context hline)).mapEq _
  | trade key => exact (Trade.ofAssignment_alike h hL context hline key.form).mapEq _
  | guard key => exact (Guard.ofAssignment_alike h hL key).mapEq _
  | cycleText => exact (Agree.ofPart (Assignment.localizedText_alike h hL _)).mapEq _

end Keys

end NpcScript
