import NpcScript.Proofs.Statement.Value
import NpcScript.Statement.Assigned

/-!
Statements of assignments. For every key, what an assignment states is valid, and if it states
nothing then at least one issue says why and all issues are faults.
-/

namespace NpcScript

open Grammar (Assignment Value)

/-! ### What is expected of each key -/

theorem IdentityKey.expected_ne (key : IdentityKey) : key.expected ≠ completeStatement := by
  cases key <;> decide

theorem AppearanceKey.expected_ne (key : AppearanceKey) : key.expected ≠ completeStatement := by
  cases key <;> decide

theorem EquipmentSlot.expected_ne : EquipmentSlot.expected ≠ completeStatement := by
  decide

theorem TradeForm.expected_ne (form : TradeForm) : form.expected ≠ completeStatement := by
  cases form <;> simp [expected, completeStatement]

theorem GuardKey.expected_ne (key : GuardKey) : key.expected ≠ completeStatement := by
  cases key <;> decide

theorem AssignmentKey.expected_ne (key : AssignmentKey) : key.expected ≠ completeStatement := by
  cases key with
  | identity key => exact key.expected_ne
  | appearance key => exact key.expected_ne
  | equipment slot => exact EquipmentSlot.expected_ne
  | trade key => exact key.form.expected_ne
  | guard key => exact key.expected_ne
  | cycleText => decide

/-! ### Identity -/

theorem readSwitch_ends (field : String) (column : Nat) (token : List Char) :
    Ends (readSwitch field column token) (fun _ => True) Issue.IsFault := by
  unfold readSwitch
  split
  · exact True.intro
  · split <;> exact True.intro

theorem Identity.ofAssignment_ends (key : IdentityKey) (assignment : Assignment) :
    Ends (Identity.ofAssignment key assignment) Identity.IsValid Issue.IsFault := by
  have hexpected := key.expected_ne
  have htext : Ends (do
      (← assignment.single key.expected).quotedText assignment.key key.expected)
      (fun _ => True) Issue.IsFault :=
    (Assignment.single_ends hexpected).bind fun value _ => value.quotedText_ends hexpected
  have hmember (α : Type) [Vocabulary α] (field : String) : Ends (do
      let value ← assignment.single key.expected
      Vocabulary.resolve α field value.column (← value.token assignment.key key.expected))
      (fun _ => True) Issue.IsFault := by
    refine (Assignment.single_ends hexpected).bind fun value _ => ?_
    exact (value.token_ends hexpected).bind fun token _ => Vocabulary.resolve_ends α _ _ _
  cases key with
  | name | author | job | lookAtDe | lookAtUs | useMsgDe | useMsgUs | wrongLangDe
  | wrongLangUs => exact htext.map fun _ _ => True.intro
  | race | sex | direction | affiliation | defaultLanguage | language =>
      exact (hmember _ _).map fun _ _ => True.intro
  | position =>
      refine (Assignment.triple_ends hexpected).bind fun values _ => ?_
      exact (Value.position_ends _ _ _).bind fun position hposition => hposition
  | autoIntroduce =>
      refine (Assignment.single_ends hexpected).bind fun value _ => ?_
      refine (value.token_ends hexpected).bind fun token _ => ?_
      exact (readSwitch_ends _ _ token).bind fun _ _ => True.intro

/-! ### Appearance and equipment -/

theorem Color.ofValues_ends (redPlace greenPlace bluePlace : NumericPlace)
    (hred : redPlace.min = 0 ∧ redPlace.max = 255)
    (hgreen : greenPlace.min = 0 ∧ greenPlace.max = 255)
    (hblue : bluePlace.min = 0 ∧ bluePlace.max = 255) (red green blue : Value) :
    Ends (Color.ofValues redPlace greenPlace bluePlace red green blue) Color.IsValid Faults := by
  have hred := Ends.ofPart (red.natural_ends redPlace hred.1 hred.2)
  have hgreen := Ends.ofPart (green.natural_ends greenPlace hgreen.1 hgreen.2)
  have hblue := Ends.ofPart (blue.natural_ends bluePlace hblue.1 hblue.2)
  refine (hred.both (hgreen.both hblue)).map fun components hcomponents => ?_
  obtain ⟨hred, hgreen, hblue⟩ := hcomponents
  exact ⟨hred.2, hgreen.2, hblue.2⟩

theorem Appearance.ofAssignment_ends (key : AppearanceKey) (assignment : Assignment) :
    Ends (Appearance.ofAssignment key assignment) Appearance.IsValid Faults := by
  have hexpected := key.expected_ne
  cases key with
  | hairId | beardId =>
      refine Ends.ofPart ((Assignment.single_ends hexpected).bind fun value _ => ?_)
      exact (value.natural_ends _ rfl rfl).bind fun id hid => hid.2
  | colorHair =>
      refine (Ends.ofPart (Assignment.triple_ends hexpected)).bind fun values _ => ?_
      have hcolor :=
        Color.ofValues_ends .hairRed .hairGreen .hairBlue ⟨rfl, rfl⟩ ⟨rfl, rfl⟩ ⟨rfl, rfl⟩
      exact (hcolor _ _ _).bind fun color hcolor => hcolor
  | colorSkin =>
      refine (Ends.ofPart (Assignment.triple_ends hexpected)).bind fun values _ => ?_
      have hcolor :=
        Color.ofValues_ends .skinRed .skinGreen .skinBlue ⟨rfl, rfl⟩ ⟨rfl, rfl⟩ ⟨rfl, rfl⟩
      exact (hcolor _ _ _).bind fun color hcolor => hcolor

/-- The number of the item is read twice from the same text, and the first time it was not 0. -/
theorem EquipmentSlot.itemOfAssignment_ends (context : Context) (line : List Char)
    (assignment : Assignment) :
    Ends (EquipmentSlot.itemOfAssignment context line assignment)
      (fun item => ∀ worn, item = some worn → worn.IsValid context ∧ worn.id ≠ 0)
      Issue.IsFault := by
  refine (Assignment.single_ends EquipmentSlot.expected_ne).bind fun value _ => ?_
  refine (value.integer_ends .itemId).remember.bind fun id hid => ?_
  obtain ⟨hread, -⟩ := hid
  split
  · intro worn hworn
    cases hworn
  · rename_i hne
    refine (context.item_ends_read line value.column value.text).bind fun found hfound => ?_
    obtain ⟨hvalid, hagain⟩ := hfound
    rintro worn ⟨⟩
    refine ⟨hvalid, ?_⟩
    -- Only a number in its digits is read as one at all, so both times the same text was read.
    cases value with
    | number source =>
        have hsame : Except.ok id = Except.ok (found.id : Int) := hread.symm.trans hagain
        obtain rfl : id = found.id := by simpa using hsame
        simpa using hne
    | quoted source | word source | call source name arguments => cases hread

/-! ### Trade -/

def TradeTerm.IsValid : TradeTerm → Prop
  | .price amount => amount ≤ 999999999
  | .stackSize count => 1 ≤ count ∧ count ≤ 1000
  | .quality value => value ≤ 999
  | .germanName _ | .englishName _ | .datum _ _ => True

theorem TradeTerm.onlyArgument_ends (name : List Char) (column : Nat) (arguments : List Value) :
    Ends (TradeTerm.onlyArgument name column arguments) (fun _ => True) Issue.IsFault := by
  unfold onlyArgument
  split
  · exact True.intro
  · show "a single value" ≠ completeStatement
    decide

theorem TradeTerm.ofValue_ends (keyword : List Char) {expected : String}
    (hexpected : expected ≠ completeStatement) (value : Value) :
    Ends (TradeTerm.ofValue keyword expected value) TradeTerm.IsValid Issue.IsFault := by
  cases value with
  | quoted source | number source | word source => exact hexpected
  | call source name arguments =>
      refine (Vocabulary.resolve_ends _ _ _ _).bind fun property _ => ?_
      have hsingle := TradeTerm.onlyArgument_ends name source.column arguments
      cases property with
      | de | us =>
          refine hsingle.bind fun value _ => ?_
          exact (value.quotedText_ends (by decide)).bind fun text _ => True.intro
      | price | quality =>
          refine hsingle.bind fun value _ => ?_
          exact (value.natural_ends _ rfl rfl).bind fun number hnumber => hnumber.2
      | stack =>
          refine hsingle.bind fun value _ => ?_
          exact (value.natural_ends _ rfl rfl).bind fun count hcount => hcount
      | data =>
          dsimp only
          split
          · rename_i key value
            refine (key.quotedText_ends (by decide)).bind fun key _ => ?_
            exact (value.quotedText_ends (by decide)).bind fun value _ => True.intro
          · show "a key and a value" ≠ completeStatement
            decide

theorem TradedItem.IsValid.setTerm {context : Context} {traded : TradedItem}
    (h : traded.IsValid context) {term : TradeTerm} (hterm : term.IsValid) :
    (traded.setTerm term).IsValid context := by
  cases term with
  | germanName text | englishName text | datum key value =>
      exact ⟨h.item, h.price, h.stackSize, h.quality⟩
  | price amount =>
      refine ⟨h.item, ?_, h.stackSize, h.quality⟩
      rintro amount' ⟨⟩
      exact hterm
  | stackSize count =>
      refine ⟨h.item, h.price, ?_, h.quality⟩
      rintro count' ⟨⟩
      exact hterm
  | quality value =>
      refine ⟨h.item, h.price, h.stackSize, ?_⟩
      rintro value' ⟨⟩
      exact hterm

theorem TradedItem.IsValid.foldl_setTerm {context : Context} {traded : TradedItem}
    (h : traded.IsValid context) {terms : List TradeTerm} (hterms : ∀ term ∈ terms, term.IsValid) :
    (terms.foldl TradedItem.setTerm traded).IsValid context := by
  induction terms generalizing traded with
  | nil => exact h
  | cons term others ih =>
      have hterm := hterms term (by simp)
      exact ih (h.setTerm hterm) fun other hother => hterms other (by simp [hother])

theorem tradedItemOfValue_ends (context : Context) (line keyword : List Char) {expected : String}
    (hexpected : expected ≠ completeStatement) (value : Value) :
    Ends (tradedItemOfValue context line keyword expected value) (Item.IsValid context)
      Issue.IsFault := by
  cases value with
  | number source => exact context.item_ends _ _ _
  | quoted source | word source | call source name arguments => exact hexpected

/-- The list of a simple trade is as long as the list of values, which is never empty. -/
theorem Trade.ofAssignment_ends (context : Context) (line : List Char) (form : TradeForm)
    {assignment : Assignment} (hne : assignment.values ≠ []) :
    Ends (Trade.ofAssignment context line form assignment) (Trade.IsValid context) Faults := by
  have hexpected := form.expected_ne
  cases form with
  | list mode =>
      have hitems := Ends.each fun value (_ : value ∈ assignment.values) =>
        tradedItemOfValue_ends context line assignment.key hexpected value
      refine hitems.map fun items hitems => ?_
      obtain ⟨hlength, hvalid⟩ := hitems
      refine ⟨?_, hvalid⟩
      rintro rfl
      exact hne (List.length_eq_zero_iff.mp hlength.symm)
  | single mode =>
      simp only [Trade.ofAssignment]
      split
      -- The grammar admits no assignment without values.
      · rename_i hnil
        exact absurd hnil hne
      · rename_i first others hvalues
        have hitem := tradedItemOfValue_ends context line assignment.key hexpected first
        have hterms := Ends.each fun value (_ : value ∈ others) =>
          TradeTerm.ofValue_ends assignment.key hexpected value
        refine ((Ends.ofPart hitem).both hterms).map fun found hfound => ?_
        obtain ⟨hitem, -, hterms⟩ := hfound
        -- The item without terms is valid, and each term that is set keeps it so.
        exact TradedItem.IsValid.foldl_setTerm ⟨hitem, by simp, by simp, by simp⟩ hterms
  | message kind =>
      exact (Ends.ofPart (Assignment.localizedText_ends hexpected)).map fun _ _ => True.intro

/-! ### Guards -/

theorem Guard.ofAssignment_ends (key : GuardKey) (assignment : Assignment) :
    Ends (Guard.ofAssignment key assignment) Guard.IsValid Faults := by
  have hexpected := key.expected_ne
  cases key with
  | guardRange =>
      refine (Ends.ofPart (Assignment.quadruple_ends hexpected)).bind fun values _ => ?_
      obtain ⟨north, south, west, east⟩ := values
      have hnorth := Ends.ofPart (north.natural_ends .guardNorth rfl rfl)
      have hsouth := Ends.ofPart (south.natural_ends .guardSouth rfl rfl)
      have hwest := Ends.ofPart (west.natural_ends .guardWest rfl rfl)
      have heast := Ends.ofPart (east.natural_ends .guardEast rfl rfl)
      refine (hnorth.both (hsouth.both (hwest.both heast))).bind fun sides hsides => ?_
      obtain ⟨hnorth, hsouth, hwest, heast⟩ := hsides
      exact ⟨hnorth.2, hsouth.2, hwest.2, heast.2⟩
  | guardWarpTarget =>
      refine Ends.ofPart ((Assignment.triple_ends hexpected).bind fun values _ => ?_)
      exact (Value.position_ends _ _ _).bind fun position hposition => hposition
  | warpedMonsterMsg | warpedPlayerMsg | hitPlayerMsg =>
      exact (Ends.ofPart (Assignment.localizedText_ends hexpected)).map fun _ _ => True.intro

/-! ### All keys -/

/-- The statement that an assignment makes is valid, and what keeps it from making one is at least
one fault. -/
theorem AssignmentKey.statement_ends (context : Context) (line : List Char) (key : AssignmentKey)
    {assignment : Assignment} (hne : assignment.values ≠ []) :
    Ends (key.statement context line assignment) (Statement.IsValid context) Faults := by
  cases key with
  | identity key =>
      exact (Ends.ofPart (Identity.ofAssignment_ends key assignment)).map fun _ hvalid => hvalid
  | appearance key => exact (Appearance.ofAssignment_ends key assignment).map fun _ hvalid => hvalid
  | equipment slot =>
      have hends := EquipmentSlot.itemOfAssignment_ends context line assignment
      exact (Ends.ofPart hends).map fun _ hvalid => hvalid
  | trade key =>
      exact (Trade.ofAssignment_ends context line key.form hne).map fun _ hvalid => hvalid
  | guard key => exact (Guard.ofAssignment_ends key assignment).map fun _ hvalid => hvalid
  | cycleText =>
      exact (Ends.ofPart (Assignment.localizedText_ends (by decide))).map fun _ _ => True.intro

theorem AssignmentKey.isWarning_of_mem_warnings {key : AssignmentKey} {assignment : Assignment}
    {issue : Issue} (h : issue ∈ key.warnings assignment) : issue.cause.isWarning = true := by
  unfold warnings at h
  split at h
  · obtain ⟨value, hvalue, hwarning⟩ := List.mem_filterMap.mp h
    simp only [Value.quoteWarning?, Option.ite_none_right_eq_some, Option.some.injEq] at hwarning
    obtain ⟨-, rfl⟩ := hwarning
    rfl
  · cases h

end NpcScript
