import NpcScript.Proofs.Script.Accepted
import NpcScript.Proofs.Statement.Trade

/-!
What lines about traded items do to a document. Each part of such a line is judged by itself: if all
of them are right one entry is made, and if any of them is wrong there is no entry but a report of
every part that is wrong, in the order of the line.
-/

namespace NpcScript

open Grammar (Assignment Value)

/-- A line under a trade key makes an entry of the fact that it states, or its errors are reported.
-/
theorem SourceLine.Assigns.exists_trade {line : SourceLine} {key : TradeKey} {values : List Value}
    (h : line.Assigns (.trade key) values) (hform : ∀ kind, key.form ≠ .message kind) :
    values ≠ [] ∧ (∀ value ∈ values, value.IsPlaced) ∧ ∃ word, ∀ context document,
      (∀ fact, Trade.ofAssignment context line.text.toList key.form ⟨word, values⟩ = .ok fact →
        Scanner.feed context ⟨document, .scanning⟩ line =
          ⟨{ document with entries := document.entries.push ⟨line.number, .trade fact⟩ },
            .scanning⟩) ∧
      ∀ issues,
        Trade.ofAssignment context line.text.toList key.form ⟨word, values⟩ = .error issues →
        Scanner.feed context ⟨document, .scanning⟩ line =
          ⟨document.reportAll context line.number issues, .scanning⟩ := by
  obtain ⟨hkind, word, hline⟩ := h
  refine ⟨Assignment.values_ne_nil hline, (Assignment.isWritten_of_ofLine hline).isPlaced, word, ?_⟩
  intro context document
  rw [Scanner.feed_scanning, LineReading.ofLine_of_assignment context hkind hline]
  simp only [LineReading.ofAssignment, AssignmentKey.statement]
  refine ⟨fun fact hfact => ?_, fun issues hissues => ?_⟩
  · have hlocalized : (AssignmentKey.trade key).isLocalized = false := by
      simp [AssignmentKey.isLocalized]
    simp [hfact, Except.map, Document.addReading, Document.reportAll, AssignmentKey.warnings,
      hlocalized, Document.add, Statement.slot]
  · rw [hissues]
    rfl

/-! ### Lists of items -/

/-- A line that lists items is kept as a whole or not at all. If every value is a number that names
an item, the items are entered in their order and nothing is reported. If any value names none,
there is no entry, but one error for each such value, at its column. -/
theorem Scanner.feed_itemList (context : Context) (document : Document) {line : SourceLine}
    {key : TradeKey} {mode : TradeMode} {values : List Value}
    (hline : line.Assigns (.trade key) values) (hform : key.form = .list mode) :
    (∃ items, values.map (·.namedItem? context) = items.map some ∧
      feed context ⟨document, .scanning⟩ line =
        ⟨{ document with
            entries := document.entries.push ⟨line.number, .trade (.simple mode items)⟩ },
          .scanning⟩) ∨
    ((∃ value ∈ values, value.namedItem? context = none) ∧
      ∃ issues, List.Forall₂ (fun value issue => issue.column = some value.column ∧
            issue.cause.isWarning = false)
          (values.filter fun value => (value.namedItem? context).isNone) issues ∧
        feed context ⟨document, .scanning⟩ line =
          ⟨document.reportAll context line.number issues, .scanning⟩) := by
  obtain ⟨-, hplaced, word, hfeed⟩ := hline.exists_trade (by simp [hform])
  obtain ⟨hentry, hreport⟩ := hfeed context document
  rw [hform, Trade.ofAssignment] at hentry hreport
  have hread : ∀ value ∈ values, (tradedItemOfValue context line.text.toList word
      (TradeForm.list mode).expected value).toOption = value.namedItem? context :=
    fun value hvalue => toOption_tradedItemOfValue (hplaced value hvalue) context _ _ _
  by_cases hbad : ∃ value ∈ values, value.namedItem? context = none
  · refine .inr ⟨hbad, ?_⟩
    obtain ⟨issues, hissues⟩ := Checked.exists_each_eq_error hread hbad
    have hparts := Checked.forall₂_issues_each hread
    rw [hissues] at hparts hreport
    refine ⟨issues, ?_, hreport issues rfl⟩
    have hplaced : ∀ value ∈ values.filter fun value => (value.namedItem? context).isNone,
        value.IsPlaced := fun value hvalue => hplaced value (List.mem_of_mem_filter hvalue)
    refine ((List.forall₂_and_left _ _).mpr ⟨hplaced, hparts⟩).imp fun value issue hissue => ?_
    have hconcerns :=
      concerns_of_tradedItemOfValue hissue.1 (TradeForm.expected_ne _) hissue.2
    exact ⟨hconcerns.2, hconcerns.1.isWarning⟩
  · have hnamed : ∀ value ∈ values, value.namedItem? context ≠ none :=
      fun value hvalue hnone => hbad ⟨value, hvalue, hnone⟩
    obtain ⟨items, hitems⟩ := exists_map_eq_map_some hnamed
    refine .inl ⟨items, hitems, hentry _ ?_⟩
    rw [(Checked.each_eq_ok_iff hread).mpr hitems]
    rfl

/-- Behind the first item, a number that names no item, a word, and a number of too many digits. -/
theorem Scanner.feed_itemList_hammer :
    let context : Context := { items := .ofList [⟨23, "hammer"⟩], skills := {} }
    let line : SourceLine := ⟨1, "sellItems = 23, 7, x, 00023"⟩
    ∃ values issues, line.Assigns (.trade .sellItems) values ∧
      issues.map Issue.column = [some 17, some 20, some 23] ∧
      feed context ⟨{}, .scanning⟩ line =
        ⟨({} : Document).reportAll context 1 issues, .scanning⟩ := by
  intro context line
  let wrong (values : List Value) := values.filter fun value => (value.namedItem? context).isNone
  have hread : (Assignment.ofLine line.text.toList).toOption.map
      (fun assignment => (wrong assignment.values).map fun value => some value.column) =
        some [some 17, some 20, some 23] := by decide +kernel
  obtain ⟨⟨word, values⟩, hline, hcolumns⟩ := Option.map_eq_some_iff.mp hread
  have hassigns : line.Assigns (.trade .sellItems) values :=
    ⟨by decide +kernel, word, Checked.toOption_eq_some_iff.mp hline⟩
  have hcolumns : (wrong values).map (fun value => some value.column) =
      [some 17, some 20, some 23] := hcolumns
  have hform : TradeKey.sellItems.form = .list .sell := rfl
  rcases feed_itemList context {} hassigns hform with
    ⟨items, hitems, -⟩ | ⟨-, issues, hissues, hfeed⟩
  · have hnone : wrong values = [] := by
      refine List.filter_eq_nil_iff.mpr fun value hvalue => ?_
      have hmem := List.mem_map_of_mem (f := (·.namedItem? context)) hvalue
      rw [hitems] at hmem
      obtain ⟨item, -, hitem⟩ := List.mem_map.mp hmem
      simp [← hitem]
    rw [hnone] at hcolumns
    cases hcolumns
  · refine ⟨values, issues, hassigns, ?_, hfeed⟩
    rw [← hcolumns, ← List.forall₂_eq_eq_eq, List.forall₂_map_left_iff, List.forall₂_map_right_iff]
    exact (hissues.imp fun _ _ hissue => hissue.1).flip

/-! ### Single items -/

section Single

variable (context : Context) {key : TradeKey} {mode : TradeMode} (hform : key.form = .single mode)
  {line : SourceLine} {first : Value} {properties : List Value}
  (hline : line.Assigns (.trade key) (first :: properties)) (document : Document)

include hform hline

theorem Scanner.feed_of_terms {item : Item} {terms : List TradeTerm}
    (hitem : first.namedItem? context = some item)
    (hterms : properties.map Value.term? = terms.map some) :
    feed context ⟨document, .scanning⟩ line =
      ⟨{ document with
          entries := document.entries.push
            ⟨line.number, .trade (.complex (.onTerms mode item terms))⟩ }, .scanning⟩ := by
  obtain ⟨-, hplaced, word, hfeed⟩ := hline.exists_trade (by simp [hform])
  obtain ⟨hfirst, hproperties⟩ := List.forall_mem_cons.mp hplaced
  refine (hfeed context document).1 _ ?_
  have hitem : tradedItemOfValue context line.text.toList word (TradeForm.single mode).expected
      first = .ok item := by
    rw [← Checked.toOption_eq_some_iff, toOption_tradedItemOfValue hfirst, hitem]
  have hterms : Checked.each (TradeTerm.ofValue word (TradeForm.single mode).expected) properties =
      .ok terms := (TradeTerm.each_ofValue_iff hproperties _ _).mpr hterms
  simp only [hform, Trade.ofAssignment, hitem, hterms]
  rw [← TradedItem.foldl_setTerm]
  rfl

theorem Scanner.feed_of_wrong_part
    (hwrong : first.namedItem? context = none ∨ ∃ property ∈ properties, property.term? = none) :
    ∃ issues, List.Forall₂ (fun value issue => Issue.Concerns issue value)
        ([first].filter (fun value => (value.namedItem? context).isNone) ++
          properties.filter fun property => property.term?.isNone) issues ∧
      feed context ⟨document, .scanning⟩ line =
        ⟨document.reportAll context line.number issues, .scanning⟩ := by
  obtain ⟨-, hplaced, word, hfeed⟩ := hline.exists_trade (by simp [hform])
  obtain ⟨-, hreport⟩ := hfeed context document
  let item := tradedItemOfValue context line.text.toList word (TradeForm.single mode).expected
  let term := TradeTerm.ofValue word (TradeForm.single mode).expected
  have hitem : ∀ value, value.IsPlaced → (item value).toOption = value.namedItem? context :=
    fun value hvalue => toOption_tradedItemOfValue hvalue context _ _ _
  have hterm : ∀ value, value.IsPlaced → (term value).toOption = value.term? :=
    fun value hvalue => TradeTerm.toOption_ofValue hvalue _ _
  have hread : ∀ property ∈ properties, (term property).toOption = property.term? :=
    fun property hproperty => hterm property (hplaced property (List.mem_cons_of_mem _ hproperty))
  have hfirst := hitem first (hplaced first List.mem_cons_self)
  -- Every wrong part has its issue, whatever the parts in front of it come to.
  have hissues : List.Forall₂ (fun value issue =>
      value.IsPlaced ∧ (item value = .error issue ∨ term value = .error issue))
      ([first].filter (fun value => (value.namedItem? context).isNone) ++
        properties.filter fun property => property.term?.isNone)
      (Checked.both (.ofPart (item first)) (Checked.each term properties)).issues := by
    rw [Checked.issues_both]
    refine (List.forall₂_and_left _ _).mpr ⟨fun value hvalue => hplaced value ?_, List.rel_append
      ((Checked.forall₂_issues_ofPart hfirst).imp fun _ _ => .inl)
      ((Checked.forall₂_issues_each hread).imp fun _ _ => .inr)⟩
    rcases List.mem_append.mp hvalue with hvalue | hvalue
    · exact List.mem_cons.mpr (.inl (List.mem_singleton.mp (List.mem_of_mem_filter hvalue)))
    · exact List.mem_cons_of_mem _ (List.mem_of_mem_filter hvalue)
  cases hparts : Checked.both (.ofPart (item first)) (Checked.each term properties) with
  | ok parts =>
      obtain ⟨hfound, hterms⟩ := Checked.both_eq_ok_iff.mp hparts
      rcases hwrong with hnone | hnone
      · rw [Checked.ofPart_eq_ok_iff, ← Checked.toOption_eq_some_iff, hfirst, hnone] at hfound
        cases hfound
      · obtain ⟨issues, herror⟩ := Checked.exists_each_eq_error hread hnone
        rw [herror] at hterms
        cases hterms
  | error issues =>
      rw [hparts] at hissues
      refine ⟨issues, hissues.imp fun value issue hissue => ?_, hreport issues ?_⟩
      · rcases hissue.2 with hwrong | hwrong
        · exact (concerns_of_tradedItemOfValue hissue.1 (TradeForm.expected_ne _) hwrong).1
        · exact TradeTerm.concerns_of_ofValue hissue.1 (TradeForm.expected_ne _) hwrong
      · simp only [hform, Trade.ofAssignment]
        exact congrArg (Except.map _) hparts

/-- If all parts of a line are right, the same parts in another order make the same entry. -/
theorem Scanner.entries_feed_of_reordered {item : Item} {terms : List TradeTerm}
    (hitem : first.namedItem? context = some item)
    (hterms : properties.map Value.term? = terms.map some) {line' : SourceLine} {key' : TradeKey}
    {first' : Value} {properties' : List Value}
    (hline' : line'.Assigns (.trade key') (first' :: properties'))
    (hform' : key'.form = .single mode)
    (hnumber : line'.number = line.number) (hfirst : first'.text = first.text)
    (hproperties : IsReordered properties properties') :
    (feed context ⟨document, .scanning⟩ line').document.entries =
      (feed context ⟨document, .scanning⟩ line).document.entries := by
  obtain ⟨-, hplaced, -⟩ := hline.exists_trade (by simp [hform])
  obtain ⟨-, hplaced', -⟩ := hline'.exists_trade (by simp [hform'])
  obtain ⟨hplaced, hothers⟩ := List.forall_mem_cons.mp hplaced
  obtain ⟨hplaced', hothers'⟩ := List.forall_mem_cons.mp hplaced'
  have hitem' := (Value.namedItem?_eq_of_text_eq hplaced' hplaced hfirst context).trans hitem
  obtain ⟨terms', hterms', hsame⟩ := hproperties.exists_terms hothers hothers' hterms
  rw [feed_of_terms context hform hline document hitem hterms,
    feed_of_terms context hform' hline' document hitem' hterms']
  simp only [hnumber, hsame]

end Single

/-- Either everything in the parts of a line is found, or some part is wrong. -/
theorem exists_terms_or_wrong (context : Context) (first : Value) (properties : List Value) :
    (∃ (item : Item) (terms : List TradeTerm), first.namedItem? context = some item ∧
      properties.map Value.term? = terms.map some) ∨
    (first.namedItem? context = none ∨ ∃ property ∈ properties, property.term? = none) := by
  by_cases hwrong : ∃ property ∈ properties, property.term? = none
  · exact .inr (.inr hwrong)
  · have hright : ∀ property ∈ properties, property.term? ≠ none :=
      fun property hproperty hnone => hwrong ⟨property, hproperty, hnone⟩
    obtain ⟨terms, hterms⟩ := exists_map_eq_map_some hright
    cases hitem : first.namedItem? context with
    | none => exact .inr (.inl rfl)
    | some item => exact .inl ⟨item, terms, rfl, hterms⟩

/-- A line about a single item is entered if the item is found and every property is right by
itself. The entry has the last term of each kind, if there is one, and all data in their order, so
properties of different names may change places. If any part is wrong there is no entry, but one
error for each wrong part, in the order of the line and inside the part. -/
theorem Scanner.feed_tradedItem (context : Context) (document : Document) {line : SourceLine}
    {key : TradeKey} {mode : TradeMode} {values : List Value}
    (hline : line.Assigns (.trade key) values) (hform : key.form = .single mode) :
    ∃ first properties, values = first :: properties ∧
      ((∃ item terms, first.namedItem? context = some item ∧
          properties.map Value.term? = terms.map some ∧
          feed context ⟨document, .scanning⟩ line =
            ⟨{ document with
                entries := document.entries.push
                  ⟨line.number, .trade (.complex (.onTerms mode item terms))⟩ }, .scanning⟩) ∨
        ((first.namedItem? context = none ∨ ∃ property ∈ properties, property.term? = none) ∧
          ∃ issues, List.Forall₂ (fun value issue => Issue.Concerns issue value)
              ([first].filter (fun value => (value.namedItem? context).isNone) ++
                properties.filter fun property => property.term?.isNone) issues ∧
            feed context ⟨document, .scanning⟩ line =
              ⟨document.reportAll context line.number issues, .scanning⟩)) ∧
      ∀ (line' : SourceLine) (key' : TradeKey) (first' : Value) (properties' : List Value),
        line'.Assigns (.trade key') (first' :: properties') → key'.form = .single mode →
        line'.number = line.number → first'.text = first.text →
        IsReordered properties properties' →
        (feed context ⟨document, .scanning⟩ line').document.entries =
          (feed context ⟨document, .scanning⟩ line).document.entries := by
  obtain ⟨hne, -⟩ := hline.exists_trade (by simp [hform])
  obtain ⟨first, properties, rfl⟩ := List.exists_cons_of_ne_nil hne
  refine ⟨first, properties, rfl, ?_, ?_⟩
  · rcases exists_terms_or_wrong context first properties with
      ⟨item, terms, hitem, hterms⟩ | hwrong
    · exact .inl ⟨item, terms, hitem, hterms,
        feed_of_terms context hform hline document hitem hterms⟩
    · exact .inr ⟨hwrong, feed_of_wrong_part context hform hline document hwrong⟩
  · intro line' key' first' properties' hline' hform' hnumber hfirst hproperties
    rcases exists_terms_or_wrong context first properties with
      ⟨item, terms, hitem, hterms⟩ | hwrong
    · exact entries_feed_of_reordered context hform hline document hitem hterms hline' hform'
        hnumber hfirst hproperties
    · rcases exists_terms_or_wrong context first' properties' with
        ⟨item, terms, hitem, hterms⟩ | hwrong'
      · exact (entries_feed_of_reordered context hform' hline' document hitem hterms hline hform
          hnumber.symm hfirst.symm hproperties.symm).symm
      · obtain ⟨issues, -, hfeed⟩ := feed_of_wrong_part context hform hline document hwrong
        obtain ⟨issues', -, hfeed'⟩ := feed_of_wrong_part context hform' hline' document hwrong'
        rw [hfeed, hfeed']
        rfl

/-- The price is given twice, with the name in between or in front of both. -/
theorem Scanner.feed_tradedItem_hammer :
    let context : Context := { items := .ofList [⟨23, "hammer"⟩], skills := {} }
    let line : SourceLine := ⟨1, "sellItem = 23, price(10), de(\"a\"), price(20)"⟩
    let line' : SourceLine := ⟨1, "SELLITEM 23,de(\"a\"), price(10), price(20)"⟩
    let traded : TradedItem :=
      { mode := .sell, item := ⟨23, "hammer"⟩, germanName := some "a", price := some 20 }
    (∃ values, line.Assigns (.trade .sellItem) values) ∧
      (feed context ⟨{}, .scanning⟩ line).document.entries = #[⟨1, .trade (.complex traded)⟩] ∧
      (feed context ⟨{}, .scanning⟩ line').document.entries = #[⟨1, .trade (.complex traded)⟩] := by
  intro context line line' traded
  let terms : List TradeTerm := [.price 10, .germanName "a", .price 20]
  let areSame (values values' : List Value) : Prop :=
    (values.map (·.namedItem? context)).head? = some (some ⟨23, "hammer"⟩) ∧
      values.tail.map Value.term? = terms.map some ∧
      (values'.map Value.text).head? = (values.map Value.text).head? ∧
      IsReordered values.tail values'.tail
  have hread : ((Assignment.ofLine line.text.toList).toOption.any fun assignment =>
      (Assignment.ofLine line'.text.toList).toOption.any fun assignment' =>
        decide (areSame assignment.values assignment'.values)) = true := by decide +kernel
  obtain ⟨⟨word, values⟩, hline, hread⟩ := (Option.any_eq_true _ _).mp hread
  obtain ⟨⟨word', values'⟩, hline', hread⟩ := (Option.any_eq_true _ _).mp hread
  obtain ⟨hitem, hterms, hfirst, hsame⟩ := of_decide_eq_true hread
  have hassigns : line.Assigns (.trade .sellItem) values :=
    ⟨by decide +kernel, word, Checked.toOption_eq_some_iff.mp hline⟩
  have hassigns' : line'.Assigns (.trade .sellItem) values' :=
    ⟨by decide +kernel, word', Checked.toOption_eq_some_iff.mp hline'⟩
  have hform : TradeKey.sellItem.form = .single .sell := rfl
  obtain ⟨first, properties, rfl, hentered, hreordered⟩ :=
    feed_tradedItem context {} hassigns hform
  have hfeed : (feed context ⟨{}, .scanning⟩ line).document.entries =
      #[⟨1, .trade (.complex traded)⟩] := by
    have hitem : first.namedItem? context = some ⟨23, "hammer"⟩ := Option.some.inj hitem
    rcases hentered with ⟨item, found, hfound, hproperties, hfeed⟩ | ⟨hnone | hnone, -⟩
    · obtain rfl : ⟨23, "hammer"⟩ = item := Option.some.inj (hitem.symm.trans hfound)
      obtain rfl : terms = found :=
        List.map_injective_iff.mpr (Option.some_injective _) (hterms.symm.trans hproperties)
      rw [hfeed]
      rfl
    · rw [hitem] at hnone
      cases hnone
    · obtain ⟨property, hproperty, hnone⟩ := hnone
      have hmem := List.mem_map_of_mem (f := Value.term?) hproperty
      have hterms : properties.map Value.term? = terms.map some := hterms
      rw [hterms, hnone] at hmem
      simp at hmem
  refine ⟨⟨_, hassigns⟩, hfeed, ?_⟩
  obtain _ | ⟨first', properties'⟩ := values'
  · cases hfirst
  · rw [← hfeed]
    exact hreordered line' .sellItem first' properties' hassigns' rfl rfl (Option.some.inj hfirst)
      hsame

end NpcScript
