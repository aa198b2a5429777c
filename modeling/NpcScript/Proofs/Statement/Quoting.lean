import NpcScript.Proofs.Checked
import NpcScript.Proofs.Quoting
import NpcScript.Statement.Assigned

/-!
What the issues of assignments quote. The values of an assignment stand where they say, and every
reader reports what is wrong with a value at the column of that value, or of the argument inside it
that is wrong.
-/

namespace NpcScript

open Grammar (Assignment Value)

variable {line : List Char}

/-! ### Values -/

namespace Grammar.Value

variable {value : Value} (h : value.StandsIn line)

include h

theorem integer_quotes (place : NumericPlace) :
    Ends (value.integer place) (fun _ => True) (Issue.Quotes line) := by
  have hother : (Issue.atColumn value.column (.malformedNumber place.field
      (String.ofList value.text))).Quotes line := by
    refine Issue.quotes_atColumn ?_
    simp only [Cause.IsQuotedFrom, String.toList_ofList]
    exact h.source
  cases h with
  | number hs h => exact place.read_quotes h hs.isBare
  | quoted hs h => exact hother
  | word hs h => exact hother
  | call hname h hstands harguments => exact hother

theorem natural_quotes (place : NumericPlace) :
    Ends (value.natural place) (fun _ => True) (Issue.Quotes line) :=
  (integer_quotes h place).map fun _ _ => True.intro

theorem token_quotes (keyword : List Char) (expected : String) :
    Ends (value.token keyword expected) (NamedAt line value.column) (Issue.Quotes line) := by
  cases h with
  | quoted hs h => exact h.namedAt_unquote hs
  | word hs h => exact .bare hs.isBare h
  | number hs h => exact malformed_quotes line _ _ _
  | call hname h hstands harguments => exact malformed_quotes line _ _ _

theorem quoteWarning?_quotes {issue : Issue} (hwarning : value.quoteWarning? = some issue) :
    issue.Quotes line := by
  unfold quoteWarning? at hwarning
  split at hwarning
  · cases hwarning
    refine Issue.quotes_atColumn ?_
    simp only [Cause.IsQuotedFrom, String.toList_ofList]
    exact h.source
  · cases hwarning

theorem position_quotes {y z : Value} (hy : y.StandsIn line) (hz : z.StandsIn line) :
    Ends (position value y z) (fun _ => True) (Issue.Quotes line) := by
  refine (integer_quotes h .coordinateX).bind fun x _ => ?_
  refine (integer_quotes hy .coordinateY).bind fun y _ => ?_
  exact (integer_quotes hz .coordinateZ).bind fun z _ => True.intro

end Grammar.Value

theorem Grammar.Value.quotedText_quotes (value : Value) (keyword : List Char) (expected : String) :
    Ends (value.quotedText keyword expected) (fun _ => True) (Issue.Quotes line) := by
  unfold quotedText
  split
  · exact True.intro
  · exact malformed_quotes line _ _ _

namespace Grammar.Assignment

variable {assignment : Assignment} (h : ∀ value ∈ assignment.values, value.StandsIn line)

theorem localizedText_quotes (assignment : Assignment) (expected : String) :
    Ends (assignment.localizedText expected) (fun _ => True) (Issue.Quotes line) := by
  unfold localizedText
  split
  · rename_i german english hvalues
    refine (german.quotedText_quotes _ _).bind fun german _ => ?_
    exact (english.quotedText_quotes _ _).bind fun english _ => True.intro
  · exact malformed_quotes line _ _ _

include h

theorem single_quotes (expected : String) :
    Ends (assignment.single expected) (Value.StandsIn line) (Issue.Quotes line) := by
  unfold single
  split
  · rename_i value hvalues
    exact h value (by simp [hvalues])
  · exact malformed_quotes line _ _ _

theorem triple_quotes (expected : String) :
    Ends (assignment.triple expected)
      (fun (first, second, third) =>
        first.StandsIn line ∧ second.StandsIn line ∧ third.StandsIn line)
      (Issue.Quotes line) := by
  unfold triple
  split
  · rename_i first second third hvalues
    exact ⟨h first (by simp [hvalues]), h second (by simp [hvalues]), h third (by simp [hvalues])⟩
  · exact malformed_quotes line _ _ _

theorem quadruple_quotes (expected : String) :
    Ends (assignment.quadruple expected)
      (fun (first, second, third, fourth) => first.StandsIn line ∧ second.StandsIn line ∧
        third.StandsIn line ∧ fourth.StandsIn line)
      (Issue.Quotes line) := by
  unfold quadruple
  split
  · rename_i first second third fourth hvalues
    exact ⟨h first (by simp [hvalues]), h second (by simp [hvalues]), h third (by simp [hvalues]),
      h fourth (by simp [hvalues])⟩
  · exact malformed_quotes line _ _ _

end Grammar.Assignment

/-! ### Trade items -/

theorem tradedItemOfValue_quotes {value : Value} (h : value.StandsIn line) (context : Context)
    (text keyword : List Char) (expected : String) :
    Ends (tradedItemOfValue context text keyword expected value) (fun _ => True)
      (Issue.Quotes line) := by
  cases h with
  | number hs h => exact context.item_quotes h hs.isBare text
  | quoted hs h => exact malformed_quotes line _ _ _
  | word hs h => exact malformed_quotes line _ _ _
  | call hname h hstands harguments => exact malformed_quotes line _ _ _

theorem TradeTerm.onlyArgument_quotes {arguments : List Value}
    (h : ∀ argument ∈ arguments, argument.StandsIn line) (name : List Char) (column : Nat) :
    Ends (onlyArgument name column arguments) (Value.StandsIn line) (Issue.Quotes line) := by
  unfold onlyArgument
  split
  · rename_i argument
    exact h argument (by simp)
  · exact malformed_quotes line _ _ _

/-- What is wrong with an argument is wrong where the argument stands, and what is wrong with the
name is wrong where the property begins. -/
theorem TradeTerm.ofValue_quotes {value : Value} (h : value.StandsIn line) (keyword : List Char)
    (expected : String) :
    Ends (ofValue keyword expected value) (fun _ => True) (Issue.Quotes line) := by
  cases h with
  | quoted hs h => exact malformed_quotes line _ _ _
  | number hs h => exact malformed_quotes line _ _ _
  | word hs h => exact malformed_quotes line _ _ _
  | @call source name arguments hname h hstands harguments =>
      refine (Vocabulary.resolve_quotes (.bare hname.isBare hstands) _ _).bind fun property _ => ?_
      have hsingle := onlyArgument_quotes harguments name source.column
      cases property with
      | de | us =>
          refine hsingle.bind fun value _ => ?_
          exact (value.quotedText_quotes _ _).bind fun text _ => True.intro
      | price | stack | quality =>
          refine hsingle.bind fun value hvalue => ?_
          exact (Value.natural_quotes hvalue _).bind fun number _ => True.intro
      | data =>
          dsimp only
          split
          · rename_i key value
            refine (key.quotedText_quotes _ _).bind fun key _ => ?_
            exact (value.quotedText_quotes _ _).bind fun value _ => True.intro
          · exact malformed_quotes line _ _ _

/-! ### Statements -/

section Statements

variable {assignment : Assignment} (h : ∀ value ∈ assignment.values, value.StandsIn line)

include h

theorem Identity.ofAssignment_quotes (key : IdentityKey) :
    Ends (ofAssignment key assignment) (fun _ => True) (Issue.Quotes line) := by
  have htext : Ends (do
      (← assignment.single key.expected).quotedText assignment.key key.expected)
      (fun _ => True) (Issue.Quotes line) :=
    (Assignment.single_quotes h _).bind fun value _ => value.quotedText_quotes _ _
  have hmember (α : Type) [Vocabulary α] (field : String) : Ends (do
      let value ← assignment.single key.expected
      Vocabulary.resolve α field value.column (← value.token assignment.key key.expected))
      (fun _ => True) (Issue.Quotes line) := by
    refine (Assignment.single_quotes h _).bind fun value hvalue => ?_
    exact (Value.token_quotes hvalue _ _).bind fun token htoken =>
      Vocabulary.resolve_quotes htoken α field
  cases key with
  | name | author | job | lookAtDe | lookAtUs | useMsgDe | useMsgUs | wrongLangDe
  | wrongLangUs => exact htext.map fun _ _ => True.intro
  | race | sex | direction | affiliation | defaultLanguage | language =>
      exact (hmember _ _).map fun _ _ => True.intro
  | position =>
      refine (Assignment.triple_quotes h _).bind fun values hvalues => ?_
      obtain ⟨hx, hy, hz⟩ := hvalues
      exact (Value.position_quotes hx hy hz).bind fun position _ => True.intro
  | autoIntroduce =>
      refine (Assignment.single_quotes h _).bind fun value hvalue => ?_
      refine (Value.token_quotes hvalue _ _).bind fun token htoken => ?_
      exact (readSwitch_quotes htoken _).bind fun _ _ => True.intro

theorem EquipmentSlot.itemOfAssignment_quotes (context : Context) (text : List Char) :
    Ends (itemOfAssignment context text assignment) (fun _ => True) (Issue.Quotes line) := by
  refine (Assignment.single_quotes h _).bind fun value hvalue => ?_
  -- Only a number is read a second time to be looked up.
  cases hvalue with
  | number hs hsource =>
      refine (Value.integer_quotes (.number hs hsource) .itemId).bind fun id _ => ?_
      split
      · exact True.intro
      · exact (context.item_quotes hsource hs.isBare text).bind fun found _ => True.intro
  | quoted hs hsource => exact (Value.integer_quotes (.quoted hs hsource) .itemId).error rfl
  | word hs hsource => exact (Value.integer_quotes (.word hs hsource) .itemId).error rfl
  | call hname hsource hstands harguments =>
      exact (Value.integer_quotes (.call hname hsource hstands harguments) .itemId).error rfl

theorem Appearance.ofAssignment_quotes (key : AppearanceKey) :
    Ends (ofAssignment key assignment) (fun _ => True) (Quoting line) := by
  have hcolor (redPlace greenPlace bluePlace : NumericPlace) {red green blue : Value}
      (hred : red.StandsIn line) (hgreen : green.StandsIn line) (hblue : blue.StandsIn line) :
      Ends (Color.ofValues redPlace greenPlace bluePlace red green blue) (fun _ => True)
        (Quoting line) := by
    have hred := Ends.quoting (Value.natural_quotes hred redPlace)
    have hgreen := Ends.quoting (Value.natural_quotes hgreen greenPlace)
    have hblue := Ends.quoting (Value.natural_quotes hblue bluePlace)
    exact (hred.bothOf .append (hgreen.bothOf .append hblue)).map fun _ _ => True.intro
  cases key with
  | hairId | beardId =>
      refine Ends.quoting ((Assignment.single_quotes h _).bind fun value hvalue => ?_)
      exact (Value.natural_quotes hvalue _).bind fun id _ => True.intro
  | colorHair | colorSkin =>
      refine (Ends.quoting (Assignment.triple_quotes h _)).bind fun values hvalues => ?_
      obtain ⟨hred, hgreen, hblue⟩ := hvalues
      exact (hcolor _ _ _ hred hgreen hblue).bind fun color _ => True.intro

theorem Trade.ofAssignment_quotes (context : Context) (text : List Char) (form : TradeForm) :
    Ends (ofAssignment context text form assignment) (fun _ => True) (Quoting line) := by
  cases form with
  | list mode =>
      have hitem : ∀ value ∈ assignment.values, Ends (tradedItemOfValue context text assignment.key
          (TradeForm.list mode).expected value) (fun _ => True) (Issue.Quotes line) :=
        fun value hvalue => tradedItemOfValue_quotes (h value hvalue) context text _ _
      exact (Ends.eachOf Quoting.append quoting_singleton hitem).map fun _ _ => True.intro
  | single mode =>
      simp only [ofAssignment]
      split
      · exact quoting_singleton _ (malformed_quotes line _ _ _)
      · rename_i first others hvalues
        have hfirst := h first (by simp [hvalues])
        have hothers : ∀ value ∈ others, value.StandsIn line :=
          fun value hvalue => h value (by simp [hvalues, hvalue])
        have hitem := Ends.quoting
          (tradedItemOfValue_quotes hfirst context text assignment.key
            (TradeForm.single mode).expected)
        have hterms := Ends.eachOf Quoting.append quoting_singleton fun value hvalue =>
          TradeTerm.ofValue_quotes (hothers value hvalue) assignment.key
            (TradeForm.single mode).expected
        exact (hitem.bothOf .append hterms).map fun _ _ => True.intro
  | message kind =>
      exact (Ends.quoting (assignment.localizedText_quotes _)).map fun _ _ => True.intro

theorem Guard.ofAssignment_quotes (key : GuardKey) :
    Ends (ofAssignment key assignment) (fun _ => True) (Quoting line) := by
  cases key with
  | guardRange =>
      refine (Ends.quoting (Assignment.quadruple_quotes h _)).bind fun values hvalues => ?_
      obtain ⟨hnorth, hsouth, hwest, heast⟩ := hvalues
      have hnorth := Ends.quoting (Value.natural_quotes hnorth .guardNorth)
      have hsouth := Ends.quoting (Value.natural_quotes hsouth .guardSouth)
      have hwest := Ends.quoting (Value.natural_quotes hwest .guardWest)
      have heast := Ends.quoting (Value.natural_quotes heast .guardEast)
      exact (hnorth.bothOf .append (hsouth.bothOf .append (hwest.bothOf .append heast))).bind
        fun _ _ => True.intro
  | guardWarpTarget =>
      refine Ends.quoting ((Assignment.triple_quotes h _).bind fun values hvalues => ?_)
      obtain ⟨hx, hy, hz⟩ := hvalues
      exact (Value.position_quotes hx hy hz).bind fun position _ => True.intro
  | warpedMonsterMsg | warpedPlayerMsg | hitPlayerMsg =>
      exact (Ends.quoting (assignment.localizedText_quotes _)).map fun _ _ => True.intro

namespace AssignmentKey

theorem statement_quotes (context : Context) (text : List Char) (key : AssignmentKey) :
    Ends (key.statement context text assignment) (fun _ => True) (Quoting line) := by
  cases key with
  | identity key =>
      exact (Ends.quoting (Identity.ofAssignment_quotes h key)).map fun _ _ => True.intro
  | appearance key => exact (Appearance.ofAssignment_quotes h key).map fun _ _ => True.intro
  | equipment slot =>
      exact (Ends.quoting (EquipmentSlot.itemOfAssignment_quotes h context text)).map
        fun _ _ => True.intro
  | trade key =>
      exact (Trade.ofAssignment_quotes h context text key.form).map fun _ _ => True.intro
  | guard key => exact (Guard.ofAssignment_quotes h key).map fun _ _ => True.intro
  | cycleText =>
      exact (Ends.quoting (assignment.localizedText_quotes _)).map fun _ _ => True.intro

theorem warnings_quote (key : AssignmentKey) : Quoting line (key.warnings assignment) := by
  unfold warnings
  split
  · intro issue hissue
    obtain ⟨value, hvalue, hwarning⟩ := List.mem_filterMap.mp hissue
    exact Value.quoteWarning?_quotes (h value hvalue) hwarning
  · simp [Quoting]

end AssignmentKey

end Statements

end NpcScript
