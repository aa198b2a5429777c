import NpcScript.Proofs.Statement.Assigned
import NpcScript.Proofs.Writing.Assigned

/-!
Writing trade statements. A list of items is written as their numbers. An item that is traded on
terms of its own is written with one property for each term, and setting these terms one after
another makes the item again.
-/

namespace NpcScript

open Grammar (Assignment AssignmentDraft Value ValueDraft)

/-- Where each value of a list was written from a member of another, reading gives the members back.
-/
theorem Checked.each_eq_ok {β : Type} {read : Value → Except Issue β} {draft : β → ValueDraft}
    {bs : List β} (h : ∀ b ∈ bs, ∀ value, (draft b).Describes value → read value = .ok b)
    {values : List Value} (hvalues : List.Forall₂ ValueDraft.Describes (bs.map draft) values) :
    Checked.each read values = .ok bs := by
  induction bs generalizing values with
  | nil =>
      obtain _ | _ := hvalues
      rfl
  | cons b bs ih =>
      obtain _ | ⟨hvalue, hothers⟩ := hvalues
      have hothers := ih (fun c hc => h c (by simp [hc])) hothers
      rw [Checked.each_cons_of_ok (h b (by simp) _ hvalue), hothers]
      rfl

theorem tradedItemOfValue_eq {context : Context} {item : Item} (h : item.IsValid context)
    {value : Value} (hvalue : (ValueDraft.number item.id).Describes value)
    (line keyword : List Char) (expected : String) :
    tradedItemOfValue context line keyword expected value = .ok item := by
  obtain ⟨column, rfl⟩ := hvalue
  exact context.item_numeral h line column

namespace TradeTerm

def draft : TradeTerm → ValueDraft
  | .germanName content => .call (Vocabulary.token TradeProperty.de).toList [.text content]
  | .englishName content => .call (Vocabulary.token TradeProperty.us).toList [.text content]
  | .price amount => .call (Vocabulary.token TradeProperty.price).toList [.number amount]
  | .stackSize count => .call (Vocabulary.token TradeProperty.stack).toList [.number count]
  | .quality value => .call (Vocabulary.token TradeProperty.quality).toList [.number value]
  | .datum key value => .call (Vocabulary.token TradeProperty.data).toList [.text key, .text value]

theorem isWritable_draft (term : TradeTerm) : term.draft.IsWritable := by
  cases term <;> exact ⟨Vocabulary.isWord_token _, by simp [Grammar.AtomDraft.IsWritable]⟩

theorem ofValue_eq {term : TradeTerm} (h : term.IsValid) {value : Value}
    (hvalue : term.draft.Describes value) (keyword : List Char) (expected : String) :
    TradeTerm.ofValue keyword expected value = .ok term := by
  cases term with
  | germanName content | englishName content =>
      obtain ⟨source, arguments, rfl, _ | ⟨hcontent, _ | _⟩⟩ := hvalue
      simp only [ofValue, Vocabulary.resolve_token, bind, Except.bind, onlyArgument,
        ValueDraft.quotedText_eq hcontent]
      rfl
  | price amount =>
      obtain ⟨source, arguments, rfl, _ | ⟨hamount, _ | _⟩⟩ := hvalue
      have hamount := ValueDraft.natural_eq .price (by decide) rfl rfl ⟨Nat.zero_le _, h⟩ hamount
      simp only [ofValue, Vocabulary.resolve_token, bind, Except.bind, onlyArgument, hamount]
      rfl
  | stackSize count =>
      obtain ⟨source, arguments, rfl, _ | ⟨hcount, _ | _⟩⟩ := hvalue
      have hcount := ValueDraft.natural_eq .stackSize (by decide) rfl rfl h hcount
      simp only [ofValue, Vocabulary.resolve_token, bind, Except.bind, onlyArgument, hcount]
      rfl
  | quality number =>
      obtain ⟨source, arguments, rfl, _ | ⟨hnumber, _ | _⟩⟩ := hvalue
      have hnumber := ValueDraft.natural_eq .quality (by decide) rfl rfl ⟨Nat.zero_le _, h⟩ hnumber
      simp only [ofValue, Vocabulary.resolve_token, bind, Except.bind, onlyArgument, hnumber]
      rfl
  | datum name content =>
      obtain ⟨source, arguments, rfl, _ | ⟨hname, _ | ⟨hcontent, _ | _⟩⟩⟩ := hvalue
      simp only [ofValue, Vocabulary.resolve_token, bind, Except.bind,
        ValueDraft.quotedText_eq hname, ValueDraft.quotedText_eq hcontent]
      rfl

end TradeTerm

namespace TradedItem

/-- The terms of a traded item, in the order of its parts. -/
def terms (traded : TradedItem) : List TradeTerm :=
  (traded.germanName.map TradeTerm.germanName).toList ++
    ((traded.englishName.map TradeTerm.englishName).toList ++
      ((traded.price.map TradeTerm.price).toList ++
        ((traded.stackSize.map TradeTerm.stackSize).toList ++
          ((traded.quality.map TradeTerm.quality).toList ++
            traded.data.map fun (key, value) => TradeTerm.datum key value))))

theorem isValid_of_mem_terms {context : Context} {traded : TradedItem} (h : traded.IsValid context)
    {term : TradeTerm} (hterm : term ∈ traded.terms) : term.IsValid := by
  simp only [terms, List.mem_append, Option.mem_toList, Option.map_eq_some_iff,
    List.mem_map] at hterm
  rcases hterm with ⟨text, -, rfl⟩ | ⟨text, -, rfl⟩ | ⟨amount, hamount, rfl⟩ |
    ⟨count, hcount, rfl⟩ | ⟨value, hvalue, rfl⟩ | ⟨datum, -, rfl⟩
  · exact True.intro
  · exact True.intro
  · exact h.price amount hamount
  · exact h.stackSize count hcount
  · exact h.quality value hvalue
  · exact True.intro

theorem foldl_setTerm_data (traded : TradedItem) (data : List (String × String)) :
    (data.map fun (key, value) => TradeTerm.datum key value).foldl setTerm traded =
      { traded with data := traded.data ++ data } := by
  induction data generalizing traded with
  | nil => simp
  | cons datum data ih => simp [ih, setTerm]

/-- Setting the terms of a traded item one after another makes the item. -/
theorem foldl_setTerm_terms (traded : TradedItem) :
    traded.terms.foldl setTerm { mode := traded.mode, item := traded.item } = traded := by
  obtain ⟨mode, item, germanName, englishName, price, stackSize, quality, data⟩ := traded
  have hgerman : (germanName.map TradeTerm.germanName).toList.foldl setTerm
      ⟨mode, item, none, none, none, none, none, []⟩ =
        ⟨mode, item, germanName, none, none, none, none, []⟩ := by
    cases germanName <;> rfl
  have henglish : (englishName.map TradeTerm.englishName).toList.foldl setTerm
      ⟨mode, item, germanName, none, none, none, none, []⟩ =
        ⟨mode, item, germanName, englishName, none, none, none, []⟩ := by
    cases englishName <;> rfl
  have hprice : (price.map TradeTerm.price).toList.foldl setTerm
      ⟨mode, item, germanName, englishName, none, none, none, []⟩ =
        ⟨mode, item, germanName, englishName, price, none, none, []⟩ := by
    cases price <;> rfl
  have hstack : (stackSize.map TradeTerm.stackSize).toList.foldl setTerm
      ⟨mode, item, germanName, englishName, price, none, none, []⟩ =
        ⟨mode, item, germanName, englishName, price, stackSize, none, []⟩ := by
    cases stackSize <;> rfl
  have hquality : (quality.map TradeTerm.quality).toList.foldl setTerm
      ⟨mode, item, germanName, englishName, price, stackSize, none, []⟩ =
        ⟨mode, item, germanName, englishName, price, stackSize, quality, []⟩ := by
    cases quality <;> rfl
  simp only [terms, List.foldl_append, hgerman, henglish, hprice, hstack, hquality,
    foldl_setTerm_data, List.nil_append]

end TradedItem

def TradeForm.key : TradeForm → TradeKey
  | .list .sell => .sellItems
  | .list .buyPrimary => .buyPrimaryItems
  | .list .buySecondary => .buySecondaryItems
  | .single .sell => .sellItem
  | .single .buyPrimary => .buyPrimaryItem
  | .single .buySecondary => .buySecondaryItem
  | .message .notEnoughMoney => .tradeNotEnoughMoneyMsg
  | .message .finished => .tradeFinishedMsg
  | .message .finishedWithoutTrading => .tradeFinishedWithoutTradingMsg
  | .message .wrongItem => .tradeWrongItemMsg

theorem TradeForm.form_key (form : TradeForm) : form.key.form = form := by
  cases form with
  | list mode => cases mode <;> rfl
  | single mode => cases mode <;> rfl
  | message kind => cases kind <;> rfl

namespace Trade

def form : Trade → TradeForm
  | .simple mode _ => .list mode
  | .complex traded => .single traded.mode
  | .message kind _ => .message kind

def values : Trade → List ValueDraft
  | .simple _ items => items.map fun item => .number item.id
  | .complex traded => .number traded.item.id :: traded.terms.map TradeTerm.draft
  | .message _ text => text.values

def draft (fact : Trade) : AssignmentDraft :=
  ⟨.trade fact.form.key, fact.values⟩

variable {context : Context}

theorem isWritable_draft {fact : Trade} (h : fact.IsValid context) : fact.draft.IsWritable := by
  cases fact with
  | simple mode items => exact ⟨by simpa [draft, values] using h.1, by simp [draft, values]⟩
  | complex traded =>
      exact ⟨by simp [draft, values], by simp [draft, values, TradeTerm.isWritable_draft]⟩
  | message kind text =>
      exact text.isWritable_values _

theorem ofAssignment_eq {fact : Trade} (h : fact.IsValid context) {values : List Value}
    (hvalues : List.Forall₂ ValueDraft.Describes fact.values values) (line key : List Char) :
    Trade.ofAssignment context line fact.form ⟨key, values⟩ = .ok fact := by
  cases fact with
  | simple mode items =>
      have hitems : Checked.each (tradedItemOfValue context line key (TradeForm.list mode).expected)
          values = .ok items :=
        Checked.each_eq_ok (fun item hitem value hvalue =>
          tradedItemOfValue_eq (h.2 item hitem) hvalue line key _) hvalues
      simp only [Trade.ofAssignment, form, hitems]
      rfl
  | complex traded =>
      obtain _ | ⟨hfirst, hothers⟩ := hvalues
      have hitem :=
        tradedItemOfValue_eq h.item hfirst line key (TradeForm.single traded.mode).expected
      have hterms : Checked.each (TradeTerm.ofValue key (TradeForm.single traded.mode).expected) _ =
          .ok traded.terms :=
        Checked.each_eq_ok (fun term hterm value hvalue =>
          TradeTerm.ofValue_eq (traded.isValid_of_mem_terms h hterm) hvalue key _) hothers
      simp only [Trade.ofAssignment, form, hitem, hterms]
      show Except.ok (Trade.complex (traded.terms.foldl TradedItem.setTerm _)) = _
      rw [traded.foldl_setTerm_terms]
  | message kind text =>
      simp only [Trade.ofAssignment, form, localizedText_eq key _ hvalues]
      rfl

theorem states_draft {fact : Trade} (h : fact.IsValid context) :
    fact.draft.States context (.trade fact) where
  isWritable := isWritable_draft h
  statement_eq line key values hvalues := by
    simp only [draft, AssignmentKey.statement, TradeForm.form_key, ofAssignment_eq h hvalues]
    rfl

end Trade

end NpcScript
