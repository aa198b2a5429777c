import NpcScript.Proofs.Choice

/-!
What assignments are asked. Some keys take a single word of a closed set, and behind the number of a
traded item each value is named by one; nothing else in an assignment is reported as an unknown
token.
-/

namespace NpcScript

open Grammar (Assignment IsWord Value)

def IdentityKey.choice? : IdentityKey → Option Choice
  | race => some (.of Race)
  | sex => some (.of Sex)
  | direction => some (.of Direction)
  | affiliation => some (.of Town)
  | defaultLanguage | language => some (.of Language)
  | autoIntroduce => some .switch
  | name | position | author | job | lookAtDe | lookAtUs | useMsgDe | useMsgUs | wrongLangDe
  | wrongLangUs => none

/-- An assignment with this key is asked to have a text of the choice at the column, and has this
one. -/
inductive AssignmentKey.Asks (assignment : Assignment) :
    AssignmentKey → Nat → List Char → Choice → Prop
  | member {key : IdentityKey} {value : Value} {text : List Char} {choice : Choice}
      (hchoice : key.choice? = some choice) (hvalues : assignment.values = [value])
      (htoken : value.token assignment.key key.expected = .ok text) :
      Asks assignment (.identity key) value.column text choice
  | property {key : TradeKey} {mode : TradeMode} {first : Value} {others arguments : List Value}
      {source : Grammar.Lexeme} {name : List Char} (hform : key.form = .single mode)
      (hvalues : assignment.values = first :: others)
      (hmem : Value.call source name arguments ∈ others) :
      Asks assignment (.trade key) source.column name (.of TradeProperty)

theorem AssignmentKey.Asks.offers {key : AssignmentKey} {assignment : Assignment} {column : Nat}
    {text : List Char} {choice : Choice} (h : key.Asks assignment column text choice) :
    choice.Offers IsWord := by
  cases h with
  | @member key _ _ _ hchoice _ _ =>
      cases key with
      | race | sex | direction | affiliation | defaultLanguage | language =>
          cases hchoice
          exact Choice.of_offers_word (by simp [Vocabulary.all]) (by decide)
      | autoIntroduce =>
          cases hchoice
          exact Choice.switch_offers
      | _ => cases hchoice
  | property _ _ _ => exact Choice.of_offers_word (by simp [Vocabulary.all]) (by decide)

/-! ### Lists of issues -/

def Answering (asked : Nat → List Char → Choice → Prop) (issues : List Issue) : Prop :=
  ∀ issue ∈ issues, issue.Answers asked

section Answering

variable {asked : Nat → List Char → Choice → Prop}

theorem answering_singleton (issue : Issue) (h : issue.Answers asked) : Answering asked [issue] :=
  List.forall_mem_singleton.mpr h

theorem Answering.append {issues more : List Issue} (h : Answering asked issues)
    (hmore : Answering asked more) : Answering asked (issues ++ more) :=
  List.forall_mem_append.mpr ⟨h, hmore⟩

theorem Ends.answering {α : Type} {good : α → Prop} {result : Except Issue α}
    (h : Ends result good (Issue.Answers asked)) :
    Ends (Checked.ofPart result) good (Answering asked) :=
  h.part answering_singleton

/-! ### Values -/

namespace Grammar.Value

variable (value : Value)

theorem integer_answers (place : NumericPlace) :
    Ends (value.integer place) (fun _ => True) (Issue.Answers asked) := by
  unfold integer
  split
  · exact place.read_answers _ _
  · exact nofun

theorem natural_answers (place : NumericPlace) :
    Ends (value.natural place) (fun _ => True) (Issue.Answers asked) :=
  (value.integer_answers place).map fun _ _ => True.intro

theorem natural_answering (place : NumericPlace) :
    Ends (Checked.ofPart (value.natural place)) (fun _ => True) (Answering asked) :=
  (value.natural_answers place).answering

theorem quotedText_answers (keyword : List Char) (expected : String) :
    Ends (value.quotedText keyword expected) (fun _ => True) (Issue.Answers asked) := by
  unfold quotedText
  split
  · exact True.intro
  · exact malformed_answers _ _ _

theorem token_answers (keyword : List Char) (expected : String) :
    Ends (value.token keyword expected) (fun text => value.token keyword expected = .ok text)
      (Issue.Answers asked) := by
  have hissue : Ends (value.token keyword expected) (fun _ => True) (Issue.Answers asked) := by
    unfold token
    split
    · exact True.intro
    · exact True.intro
    · exact malformed_answers _ _ _
  exact hissue.remember.mono fun _ h => h.1

theorem position_answers (y z : Value) :
    Ends (position value y z) (fun _ => True) (Issue.Answers asked) := by
  refine (value.integer_answers .coordinateX).bind fun x _ => ?_
  refine (y.integer_answers .coordinateY).bind fun y _ => ?_
  exact (z.integer_answers .coordinateZ).bind fun z _ => True.intro

theorem quoteWarning?_answers {issue : Issue} (h : value.quoteWarning? = some issue) :
    issue.Answers asked := by
  unfold quoteWarning? at h
  split at h
  · cases h
    exact nofun
  · cases h

end Grammar.Value

namespace Grammar.Assignment

variable (assignment : Assignment) (expected : String)

theorem single_answers :
    Ends (assignment.single expected) (fun value => assignment.values = [value])
      (Issue.Answers asked) := by
  unfold single
  split
  · rename_i value hvalues
    exact hvalues
  · exact malformed_answers _ _ _

theorem triple_answers :
    Ends (assignment.triple expected) (fun _ => True) (Issue.Answers asked) := by
  unfold triple
  split
  · exact True.intro
  · exact malformed_answers _ _ _

theorem quadruple_answers :
    Ends (assignment.quadruple expected) (fun _ => True) (Issue.Answers asked) := by
  unfold quadruple
  split
  · exact True.intro
  · exact malformed_answers _ _ _

theorem localizedText_answers :
    Ends (assignment.localizedText expected) (fun _ => True) (Issue.Answers asked) := by
  unfold localizedText
  split
  · rename_i german english _
    refine (german.quotedText_answers _ _).bind fun german _ => ?_
    exact (english.quotedText_answers _ _).bind fun english _ => True.intro
  · exact malformed_answers _ _ _

end Grammar.Assignment

/-! ### Trade items -/

theorem tradedItemOfValue_answers (context : Context) (line keyword : List Char)
    (expected : String) (value : Value) :
    Ends (tradedItemOfValue context line keyword expected value) (fun _ => True)
      (Issue.Answers asked) := by
  unfold tradedItemOfValue
  split
  · exact context.item_answers _ _ _
  · exact malformed_answers _ _ _

theorem TradeTerm.onlyArgument_answers (name : List Char) (column : Nat)
    (arguments : List Value) :
    Ends (onlyArgument name column arguments) (fun _ => True) (Issue.Answers asked) := by
  unfold onlyArgument
  split
  · exact True.intro
  · exact malformed_answers _ _ _

/-- Of a value that sets a term only the name is asked to be one of a choice. -/
theorem TradeTerm.ofValue_answers (keyword : List Char) (expected : String) {value : Value}
    (h : ∀ source name arguments, value = .call source name arguments →
      asked source.column name (.of TradeProperty)) :
    Ends (ofValue keyword expected value) (fun _ => True) (Issue.Answers asked) := by
  cases value with
  | quoted _ | number _ | word _ => exact malformed_answers _ _ _
  | call source name arguments =>
      refine (Vocabulary.resolve_answers (h source name arguments rfl) _).bind fun property _ => ?_
      have hsingle : Ends (onlyArgument name source.column arguments) (fun _ => True)
          (Issue.Answers asked) := onlyArgument_answers name source.column arguments
      cases property with
      | de | us =>
          refine hsingle.bind fun value _ => ?_
          exact (value.quotedText_answers _ _).bind fun text _ => True.intro
      | price | stack | quality =>
          refine hsingle.bind fun value _ => ?_
          exact (value.natural_answers _).bind fun number _ => True.intro
      | data =>
          dsimp only
          split
          · rename_i key value
            refine (key.quotedText_answers _ _).bind fun key _ => ?_
            exact (value.quotedText_answers _ _).bind fun value _ => True.intro
          · exact malformed_answers _ _ _

end Answering

/-! ### Statements -/

section Statements

variable (assignment : Assignment)

theorem Identity.ofAssignment_answers (key : IdentityKey) :
    Ends (ofAssignment key assignment) (fun _ => True)
      (Issue.Answers (AssignmentKey.Asks assignment (.identity key))) := by
  have htext : Ends (do
      (← assignment.single key.expected).quotedText assignment.key key.expected)
      (fun _ => True) (Issue.Answers (AssignmentKey.Asks assignment (.identity key))) :=
    (assignment.single_answers _).bind fun value _ => value.quotedText_answers _ _
  have hmember {α : Type} [Vocabulary α] (hchoice : key.choice? = some (.of α)) (field : String) :
      Ends (do
        let value ← assignment.single key.expected
        Vocabulary.resolve α field value.column (← value.token assignment.key key.expected))
        (fun _ => True) (Issue.Answers (AssignmentKey.Asks assignment (.identity key))) := by
    refine (assignment.single_answers _).bind fun value hvalues => ?_
    exact (value.token_answers _ _).bind fun token htoken =>
      Vocabulary.resolve_answers (.member hchoice hvalues htoken) field
  cases key with
  | name | author | job | lookAtDe | lookAtUs | useMsgDe | useMsgUs | wrongLangDe
  | wrongLangUs => exact htext.map fun _ _ => True.intro
  | race | sex | direction | affiliation | defaultLanguage | language =>
      exact (hmember rfl _).map fun _ _ => True.intro
  | position =>
      refine (assignment.triple_answers _).bind fun (x, y, z) _ => ?_
      exact (x.position_answers y z).bind fun position _ => True.intro
  | autoIntroduce =>
      refine (assignment.single_answers _).bind fun value hvalues => ?_
      refine (value.token_answers _ _).bind fun token htoken => ?_
      exact (readSwitch_answers (.member rfl hvalues htoken) _).bind fun _ _ => True.intro

variable {asked : Nat → List Char → Choice → Prop}

theorem EquipmentSlot.itemOfAssignment_answers (context : Context) (line : List Char) :
    Ends (itemOfAssignment context line assignment) (fun _ => True) (Issue.Answers asked) := by
  refine (assignment.single_answers _).bind fun value _ => ?_
  refine (value.integer_answers .itemId).bind fun id _ => ?_
  split
  · exact True.intro
  · exact (context.item_answers line _ _).bind fun found _ => True.intro

theorem Appearance.ofAssignment_answers (key : AppearanceKey) :
    Ends (ofAssignment key assignment) (fun _ => True) (Answering asked) := by
  have hcolor (redPlace greenPlace bluePlace : NumericPlace) (red green blue : Value) :
      Ends (Color.ofValues redPlace greenPlace bluePlace red green blue) (fun _ => True)
        (Answering asked) := by
    exact ((red.natural_answering _).bothOf .append ((green.natural_answering _).bothOf .append
      (blue.natural_answering _))).map fun _ _ => True.intro
  cases key with
  | hairId | beardId =>
      refine Ends.answering ((assignment.single_answers _).bind fun value _ => ?_)
      exact (value.natural_answers _).bind fun id _ => True.intro
  | colorHair | colorSkin =>
      refine (Ends.answering (assignment.triple_answers _)).bind fun (red, green, blue) _ => ?_
      exact (hcolor _ _ _ red green blue).bind fun color _ => True.intro

theorem Trade.ofAssignment_answers (context : Context) (line : List Char) (key : TradeKey) :
    Ends (ofAssignment context line key.form assignment) (fun _ => True)
      (Answering (AssignmentKey.Asks assignment (.trade key))) := by
  have hitem (form : TradeForm) (value : Value) :
      Ends (tradedItemOfValue context line assignment.key form.expected value) (fun _ => True)
        (Issue.Answers (AssignmentKey.Asks assignment (.trade key))) :=
    tradedItemOfValue_answers context line assignment.key form.expected value
  cases hform : key.form with
  | list mode =>
      exact (Ends.eachOf Answering.append answering_singleton fun value _ => hitem _ value).map
        fun _ _ => True.intro
  | single mode =>
      simp only [ofAssignment]
      split
      · exact answering_singleton _ (malformed_answers _ _ _)
      · rename_i first others hvalues
        have hterm : ∀ value ∈ others,
            Ends (TradeTerm.ofValue assignment.key (TradeForm.single mode).expected value)
              (fun _ => True) (Issue.Answers (AssignmentKey.Asks assignment (.trade key))) := by
          intro value hvalue
          refine TradeTerm.ofValue_answers _ _ ?_
          rintro source name arguments rfl
          exact .property hform hvalues hvalue
        have hterms := Ends.eachOf Answering.append answering_singleton hterm
        exact ((Ends.answering (hitem _ first)).bothOf .append hterms).map fun _ _ => True.intro
  | message kind =>
      exact (Ends.answering (assignment.localizedText_answers _)).map fun _ _ => True.intro

theorem Guard.ofAssignment_answers (key : GuardKey) :
    Ends (ofAssignment key assignment) (fun _ => True) (Answering asked) := by
  cases key with
  | guardRange =>
      refine (Ends.answering (assignment.quadruple_answers _)).bind
        fun (north, south, west, east) _ => ?_
      exact ((north.natural_answering _).bothOf .append ((south.natural_answering _).bothOf .append
        ((west.natural_answering _).bothOf .append (east.natural_answering _)))).bind
          fun _ _ => True.intro
  | guardWarpTarget =>
      refine Ends.answering ((assignment.triple_answers _).bind fun (x, y, z) _ => ?_)
      exact (x.position_answers y z).bind fun position _ => True.intro
  | warpedMonsterMsg | warpedPlayerMsg | hitPlayerMsg =>
      exact (Ends.answering (assignment.localizedText_answers _)).map fun _ _ => True.intro

namespace AssignmentKey

/-- An assignment that reports an unknown token was asked for a choice by its key. -/
theorem statement_answers (context : Context) (line : List Char) (key : AssignmentKey) :
    Ends (key.statement context line assignment) (fun _ => True)
      (Answering (key.Asks assignment)) := by
  cases key with
  | identity key =>
      exact (Ends.answering (Identity.ofAssignment_answers assignment key)).map
        fun _ _ => True.intro
  | appearance key =>
      exact (Appearance.ofAssignment_answers assignment key).map fun _ _ => True.intro
  | equipment slot =>
      exact (Ends.answering (EquipmentSlot.itemOfAssignment_answers assignment context line)).map
        fun _ _ => True.intro
  | trade key =>
      exact (Trade.ofAssignment_answers assignment context line key).map fun _ _ => True.intro
  | guard key => exact (Guard.ofAssignment_answers assignment key).map fun _ _ => True.intro
  | cycleText =>
      exact (Ends.answering (assignment.localizedText_answers _)).map fun _ _ => True.intro

theorem warnings_answer (key : AssignmentKey) : Answering asked (key.warnings assignment) := by
  unfold warnings
  split
  · intro issue hissue
    obtain ⟨value, -, hwarning⟩ := List.mem_filterMap.mp hissue
    exact value.quoteWarning?_answers hwarning
  · simp [Answering]

end AssignmentKey

end Statements

end NpcScript
