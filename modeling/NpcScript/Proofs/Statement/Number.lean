import Mathlib.Data.Fin.VecNotation
import Mathlib.Data.Fintype.Basic
import Mathlib.Tactic.FinCases
import NpcScript.Proofs.Statement.Trade

/-!
Numbers in statements. For each place of a statement that takes a number it is said here what may
stand around it and what statement is made of its value. With everything around it in order, the
statement is settled by the number alone.
-/

namespace NpcScript

open Grammar (Assignment Value Lexeme)

/-! ### Numbers side by side -/

section Row

variable {α : Type}

theorem color_eq_map {results : Fin 3 → Except Issue Int} {values : Fin 3 → Int} {i : Fin 3}
    (hothers : ∀ j, j ≠ i → results j = .ok (values j)) (make : Color → α) :
    (do
      let components := Checked.both (.ofPart (Int.toNat <$> results 0))
        (.both (.ofPart (Int.toNat <$> results 1)) (.ofPart (Int.toNat <$> results 2)))
      return make (← components.map fun (red, green, blue) => ⟨red, green, blue⟩) : Checked α) =
    .ofPart ((fun value =>
      let v := Function.update values i value
      make ⟨(v 0).toNat, (v 1).toNat, (v 2).toNat⟩) <$> results i) := by
  obtain ⟨result, rfl⟩ := exists_eq_update hothers
  fin_cases i <;> cases result <;> rfl

theorem range_eq_map {results : Fin 4 → Except Issue Int} {values : Fin 4 → Int} {i : Fin 4}
    (hothers : ∀ j, j ≠ i → results j = .ok (values j)) :
    (do
      let sides := Checked.both (.ofPart (Int.toNat <$> results 0))
        (.both (.ofPart (Int.toNat <$> results 1))
          (.both (.ofPart (Int.toNat <$> results 2)) (.ofPart (Int.toNat <$> results 3))))
      return (fun (north, south, west, east) => .range north south west east) (← sides) :
        Checked Guard) =
    .ofPart ((fun value =>
      let v := Function.update values i value
      .range (v 0).toNat (v 1).toNat (v 2).toNat (v 3).toNat) <$> results i) := by
  obtain ⟨result, rfl⟩ := exists_eq_update hothers
  fin_cases i <;> cases result <;> rfl

end Row

/-! ### Rows of numbers -/

/-- The values of the statement are numbers, each in a place of its own, and the statement is made
of all of them. -/
inductive IsNumberRow : {n : Nat} → AssignmentKey → (Fin n → NumericPlace) →
    ((Fin n → Int) → Statement) → Prop
  | hairId : IsNumberRow (n := 1) (.appearance .hairId) ![.hairId]
      fun v => .appearance (.hairId (v 0).toNat)
  | beardId : IsNumberRow (n := 1) (.appearance .beardId) ![.beardId]
      fun v => .appearance (.beardId (v 0).toNat)
  | hairColor : IsNumberRow (n := 3) (.appearance .colorHair) ![.hairRed, .hairGreen, .hairBlue]
      fun v => .appearance (.hairColor ⟨(v 0).toNat, (v 1).toNat, (v 2).toNat⟩)
  | skinColor : IsNumberRow (n := 3) (.appearance .colorSkin) ![.skinRed, .skinGreen, .skinBlue]
      fun v => .appearance (.skinColor ⟨(v 0).toNat, (v 1).toNat, (v 2).toNat⟩)
  | guardRange : IsNumberRow (n := 4) (.guard .guardRange)
      ![.guardNorth, .guardSouth, .guardWest, .guardEast]
      fun v => .guard (.range (v 0).toNat (v 1).toNat (v 2).toNat (v 3).toNat)
  | warpTarget : IsNumberRow (n := 3) (.guard .guardWarpTarget)
      ![.coordinateX, .coordinateY, .coordinateZ] fun v => .guard (.warpTarget ⟨v 0, v 1, v 2⟩)
  | position : IsNumberRow (n := 3) (.identity .position)
      ![.coordinateX, .coordinateY, .coordinateZ] fun v => .identity (.position ⟨v 0, v 1, v 2⟩)

theorem IsNumberRow.statement_eq {n : Nat} {key : AssignmentKey} {places : Fin n → NumericPlace}
    {make : (Fin n → Int) → Statement} (h : IsNumberRow key places make) (context : Context)
    (line word : List Char) {sources : Fin n → Lexeme} {values : Fin n → Int} {i : Fin n}
    (hothers : ∀ j, j ≠ i → (places j).read (sources j).column (sources j).text = .ok (values j)) :
    key.statement context line ⟨word, List.ofFn fun j => .number (sources j)⟩ =
      Checked.ofPart ((fun value => make (Function.update values i value)) <$>
        (places i).read (sources i).column (sources i).text) := by
  let results (j : Fin n) := (places j).read (sources j).column (sources j).text
  -- What is made of the numbers becomes a statement in a second step.
  have hmap {α : Type} {first : Int → α} {second : α → Statement} {whole : Checked α}
      (hwhole : whole = Checked.ofPart (first <$> results i)) :
      whole.map second = Checked.ofPart ((fun value => second (first value)) <$> results i) := by
    rw [hwhole, Checked.map_ofPart, Functor.map_map]
  cases h with
  | hairId =>
      exact hmap (congrArg Checked.ofPart (single_eq_map results values i Appearance.hairId))
  | beardId =>
      exact hmap (congrArg Checked.ofPart (single_eq_map results values i Appearance.beardId))
  | hairColor => exact hmap (color_eq_map hothers Appearance.hairColor)
  | skinColor => exact hmap (color_eq_map hothers Appearance.skinColor)
  | guardRange => exact hmap (range_eq_map hothers)
  | warpTarget => exact hmap (congrArg Checked.ofPart (position_eq_map hothers Guard.warpTarget))
  | position => exact hmap (congrArg Checked.ofPart (position_eq_map hothers Identity.position))

/-! ### Numbers of items -/

theorem EquipmentSlot.itemOfAssignment_eq (context : Context) (line word : List Char)
    (source : Lexeme) :
    itemOfAssignment context line ⟨word, [.number source]⟩ =
      NumericPlace.itemId.settle source fun id =>
        if id = 0 then .ok none else some <$> context.lookUp line id := by
  -- The number is read twice, once to see whether it is 0 and once more to look it up.
  have hitem := context.item_eq_settle line source
  unfold NumericPlace.settle at hitem ⊢
  have hvalue : itemOfAssignment context line ⟨word, [.number source]⟩ = (do
      let id ← NumericPlace.itemId.read source.column source.text
      if id = 0 then return none
      return some (← context.item line source.column source.text)) := rfl
  rw [hvalue, hitem]
  cases NumericPlace.itemId.read source.column source.text with
  | error issue => rfl
  | ok id =>
      simp only [bind, Except.bind]
      by_cases hzero : id = 0
      · rw [if_pos hzero, if_pos hzero]
        rfl
      · rw [if_neg hzero, if_neg hzero]
        cases context.lookUp line id <;> rfl

section Trade

variable {context : Context} {line word : List Char} {mode : TradeMode}

/-- What a list states is settled by any of its numbers alone. -/
theorem Trade.ofAssignment_list_eq {before after : List Value} {source : Lexeme}
    (hplaced : ∀ value ∈ before ++ .number source :: after, value.IsPlaced)
    {earlier later : List Item}
    (hbefore : before.map (·.namedItem? context) = earlier.map some)
    (hafter : after.map (·.namedItem? context) = later.map some) :
    ofAssignment context line (.list mode) ⟨word, before ++ .number source :: after⟩ =
      Checked.ofPart (NumericPlace.itemId.settle source fun id =>
        (fun item => .simple mode (earlier ++ item :: later)) <$> context.lookUp line id) := by
  have hfound {part : List Value} (hpart : ∀ value ∈ part, value.IsPlaced) {items : List Item}
      (hitems : part.map (·.namedItem? context) = items.map some) :=
    (each_tradedItemOfValue_iff hpart context line word (TradeForm.list mode).expected).mpr hitems
  obtain ⟨hplacedBefore, hplaced⟩ := List.forall_mem_append.mp hplaced
  have hplacedAfter := (List.forall_mem_cons.mp hplaced).2
  have heach := Checked.each_append_cons (hfound hplacedBefore hbefore) (hfound hplacedAfter hafter)
    (.number source)
  rw [ofAssignment, heach, tradedItemOfValue, context.item_eq_settle, Checked.map_ofPart,
    Functor.map_map, NumericPlace.map_settle]

theorem Trade.ofAssignment_single_eq {properties : List Value}
    (hplaced : ∀ value ∈ properties, value.IsPlaced) {terms : List TradeTerm}
    (hterms : properties.map Value.term? = terms.map some) (source : Lexeme) :
    ofAssignment context line (.single mode) ⟨word, .number source :: properties⟩ =
      Checked.ofPart (NumericPlace.itemId.settle source fun id =>
        (fun item => .complex (.onTerms mode item terms)) <$> context.lookUp line id) := by
  have heach :=
    (TradeTerm.each_ofValue_iff hplaced word (TradeForm.single mode).expected).mpr hterms
  simp only [ofAssignment, heach, tradedItemOfValue, context.item_eq_settle,
    Checked.both_ofPart_ok, Checked.map_ofPart, Functor.map_map, NumericPlace.map_settle,
    TradedItem.foldl_setTerm]

inductive IsNumberTerm : TradeProperty → NumericPlace → (Nat → TradeTerm) → Prop
  | price : IsNumberTerm .price .price .price
  | stack : IsNumberTerm .stack .stackSize .stackSize
  | quality : IsNumberTerm .quality .quality .quality

theorem IsNumberTerm.ofValue_eq {kind : TradeProperty} {place : NumericPlace}
    {make : Nat → TradeTerm} (h : IsNumberTerm kind place make) {name : List Char}
    (hname : Vocabulary.ofToken? TradeProperty name = some kind) (keyword : List Char)
    (expected : String) (whole source : Lexeme) :
    TradeTerm.ofValue keyword expected (.call whole name [.number source]) =
      (fun value => make value.toNat) <$> place.read source.column source.text := by
  have hkind : Vocabulary.resolve TradeProperty "trade item property" whole.column name =
      .ok kind := by
    rw [Vocabulary.resolve, hname]
  rw [← Functor.map_map Int.toNat make]
  unfold TradeTerm.ofValue
  dsimp only
  rw [hkind]
  cases h with
  | price | stack | quality => rfl

/-- What a traded item comes to is settled by any number among its terms alone. -/
theorem Trade.ofAssignment_term_eq {first : Value} {before after : List Value} {name : List Char}
    {whole source : Lexeme} (hplaced : ∀ value ∈ first :: (before ++ .call whole name
      [.number source] :: after), value.IsPlaced)
    {item : Item} (hfirst : first.namedItem? context = some item)
    {earlier later : List TradeTerm} (hbefore : before.map Value.term? = earlier.map some)
    (hafter : after.map Value.term? = later.map some) {kind : TradeProperty}
    {place : NumericPlace} {make : Nat → TradeTerm} (hkind : IsNumberTerm kind place make)
    (hname : Vocabulary.ofToken? TradeProperty name = some kind) :
    ofAssignment context line (.single mode)
        ⟨word, first :: (before ++ .call whole name [.number source] :: after)⟩ =
      Checked.ofPart ((fun value =>
        .complex (.onTerms mode item (earlier ++ make value.toNat :: later))) <$>
          place.read source.column source.text) := by
  obtain ⟨hplacedFirst, hplaced⟩ := List.forall_mem_cons.mp hplaced
  obtain ⟨hplacedBefore, hplaced⟩ := List.forall_mem_append.mp hplaced
  have hplacedAfter := (List.forall_mem_cons.mp hplaced).2
  have hitem := toOption_tradedItemOfValue hplacedFirst context line word
    (TradeForm.single mode).expected
  rw [hfirst, Checked.toOption_eq_some_iff] at hitem
  have hterms {part : List Value} (hpart : ∀ value ∈ part, value.IsPlaced) {terms : List TradeTerm}
      (hpartTerms : part.map Value.term? = terms.map some) :=
    (TradeTerm.each_ofValue_iff hpart word (TradeForm.single mode).expected).mpr hpartTerms
  have heach := Checked.each_append_cons (hterms hplacedBefore hbefore) (hterms hplacedAfter hafter)
    (.call whole name [.number source])
  rw [hkind.ofValue_eq hname] at heach
  simp only [ofAssignment, heach, Checked.ofPart_eq_ok_iff.mpr hitem, Checked.both_ok_ofPart,
    Checked.map_ofPart, Functor.map_map, TradedItem.foldl_setTerm]

end Trade

/-! ### Places in statements -/

/-- The values are in order around a number, which stands in this place; with a value of its own,
the number makes this statement of them. -/
inductive HoldsNumber (context : Context) (line : List Char) : AssignmentKey → List Value →
    Lexeme → NumericPlace → (Int → Except Cause Statement) → Prop
  | row {n : Nat} {key : AssignmentKey} {places : Fin n → NumericPlace}
      {make : (Fin n → Int) → Statement} (hrow : IsNumberRow key places make)
      (sources : Fin n → Lexeme) (i : Fin n)
      (hothers : ∀ j, j ≠ i → (places j).Takes (sources j).text) :
      HoldsNumber context line key (List.ofFn fun j => .number (sources j)) (sources i) (places i)
        fun value =>
          .ok (make (Function.update (fun j => integerOfDigits (sources j).text) i value))
  | equipment (slot : EquipmentSlot) (source : Lexeme) :
      HoldsNumber context line (.equipment slot) [.number source] source .itemId fun id =>
        if id = 0 then .ok (.equipment slot none)
        else (fun item => .equipment slot (some item)) <$> context.lookUp line id
  | listed {key : TradeKey} {mode : TradeMode} (hform : key.form = .list mode)
      {before after : List Value} {earlier later : List Item}
      (hbefore : before.map (·.namedItem? context) = earlier.map some)
      (hafter : after.map (·.namedItem? context) = later.map some) (source : Lexeme) :
      HoldsNumber context line (.trade key) (before ++ .number source :: after) source .itemId
        fun id =>
          (fun item => .trade (.simple mode (earlier ++ item :: later))) <$> context.lookUp line id
  | traded {key : TradeKey} {mode : TradeMode} (hform : key.form = .single mode)
      {properties : List Value} {terms : List TradeTerm}
      (hterms : properties.map Value.term? = terms.map some) (source : Lexeme) :
      HoldsNumber context line (.trade key) (.number source :: properties) source .itemId fun id =>
        (fun item => .trade (.complex (.onTerms mode item terms))) <$> context.lookUp line id
  | term {key : TradeKey} {mode : TradeMode} (hform : key.form = .single mode) {first : Value}
      {item : Item} (hfirst : first.namedItem? context = some item) {before after : List Value}
      {earlier later : List TradeTerm} (hbefore : before.map Value.term? = earlier.map some)
      (hafter : after.map Value.term? = later.map some) {kind : TradeProperty}
      {place : NumericPlace} {make : Nat → TradeTerm} (hkind : IsNumberTerm kind place make)
      {name : List Char} (hname : Vocabulary.ofToken? TradeProperty name = some kind)
      (whole source : Lexeme) :
      HoldsNumber context line (.trade key)
        (first :: (before ++ .call whole name [.number source] :: after)) source place fun value =>
          .ok (.trade (.complex (.onTerms mode item (earlier ++ make value.toNat :: later))))

namespace HoldsNumber

variable {context : Context} {line : List Char} {key : AssignmentKey} {values : List Value}
  {source : Lexeme} {place : NumericPlace} {use : Int → Except Cause Statement}
  (h : HoldsNumber context line key values source place use)

include h

theorem isLocalized : key.isLocalized = false := by
  cases h with
  | row hrow sources i hothers => cases hrow <;> rfl
  | equipment slot source => rfl
  | listed hform | traded hform | term hform => simp [AssignmentKey.isLocalized, hform]

variable (hplaced : ∀ value ∈ values, value.IsPlaced)

include hplaced

theorem isNumber : Grammar.IsNumber source.text := by
  cases h with
  | row hrow sources i hothers => exact (hplaced _ (List.mem_ofFn.mpr ⟨i, rfl⟩)).isNumber
  | equipment slot source => exact (hplaced _ List.mem_cons_self).isNumber
  | listed hform hbefore hafter source =>
      exact (hplaced _ (List.mem_append_right _ List.mem_cons_self)).isNumber
  | traded hform hterms source => exact (hplaced _ List.mem_cons_self).isNumber
  | term hform hfirst hbefore hafter hkind hname whole source =>
      have hcall := hplaced _ (List.mem_cons_of_mem _ (List.mem_append_right _ List.mem_cons_self))
      exact (hcall.argument _ (List.mem_singleton.mpr rfl)).isNumber

theorem statement_eq (word : List Char) :
    key.statement context line ⟨word, values⟩ = Checked.ofPart (place.settle source use) := by
  cases h with
  | row hrow sources i hothers =>
      have hread (j) (hj : j ≠ i) := NumericPlace.read_of_takes (sources j).column
        (hplaced _ (List.mem_ofFn.mpr ⟨j, rfl⟩)).isNumber (hothers j hj)
      rw [hrow.statement_eq context line word hread, NumericPlace.settle_ok]
  | equipment slot source =>
      rw [AssignmentKey.statement, EquipmentSlot.itemOfAssignment_eq, Checked.map_ofPart,
        NumericPlace.map_settle]
      refine congrArg _ (congrArg _ (funext fun id => ?_))
      split
      · rfl
      · exact Functor.map_map _ _ _
  | listed hform hbefore hafter source =>
      rw [AssignmentKey.statement, hform, Trade.ofAssignment_list_eq hplaced hbefore hafter,
        Checked.map_ofPart, NumericPlace.map_settle]
      simp only [Functor.map_map]
  | traded hform hterms source =>
      rw [AssignmentKey.statement, hform,
        Trade.ofAssignment_single_eq (List.forall_mem_cons.mp hplaced).2 hterms,
        Checked.map_ofPart, NumericPlace.map_settle]
      simp only [Functor.map_map]
  | term hform hfirst hbefore hafter hkind hname whole source =>
      rw [AssignmentKey.statement, hform,
        Trade.ofAssignment_term_eq hplaced hfirst hbefore hafter hkind hname,
        Checked.map_ofPart, Functor.map_map, NumericPlace.settle_ok]

end HoldsNumber

end NpcScript
