import Mathlib.Data.Fin.VecNotation
import Mathlib.Data.Fintype.Basic
import Mathlib.Tactic.FinCases
import NpcScript.Proofs.Clause.Role
import NpcScript.Proofs.Number

/-!
Numbers in clauses. For each argument that is a number it is said here what may stand around it and
what the clause means with its value. With everything around it in order, the meaning of the clause
is settled by the number alone.
-/

namespace NpcScript

open Grammar (Argument Comparison KeywordClause Lexeme IsNumber)

namespace Grammar.KeywordClause

variable {clause : KeywordClause}

theorem noComparison_eq_ok (h : clause.comparison = none) (reason : String) :
    clause.noComparison reason = .ok () := by
  rw [noComparison, h]
  rfl

theorem natural_operand (clause : KeywordClause) (place : NumericPlace) (source : Lexeme) :
    clause.natural place (.operand source) =
      Int.toNat <$> place.read source.column source.text :=
  rfl

theorem item_operand (clause : KeywordClause) (context : Context) (source : Lexeme) :
    clause.item context (.operand source) =
      NumericPlace.itemId.settle source (context.lookUp source.text) :=
  context.item_eq_settle source.text source

theorem oneArgument_eq_ok (clause : KeywordClause) (argument : Argument)
    (h : clause.argumentList = [argument]) (reason : String) :
    clause.oneArgument reason = .ok argument := by
  rw [oneArgument, h]

end Grammar.KeywordClause

/-! ### Clauses of numbers -/

/-- The arguments of the clause are numbers, each in a place of its own, and nothing else goes into
its meaning. -/
inductive Role.IsNumberRow : {n : Nat} → Role → (Fin n → NumericPlace) →
    ((Fin n → Int) → Meaning) → Prop
  | chance : IsNumberRow (n := 1) (.condition .chance) ![.chance]
      fun v => .condition (.chance (v 0).toNat)
  | treasure : IsNumberRow (n := 1) (.consequence .treasure) ![.treasureLevel]
      fun v => .consequence (.treasure (v 0).toNat)
  | rune : IsNumberRow (n := 2) (.consequence .rune) ![.runeClass, .runeNumber]
      fun v => .consequence (.rune (v 0).toNat (v 1).toNat)
  | warp : IsNumberRow (n := 3) (.consequence .warp) ![.coordinateX, .coordinateY, .coordinateZ]
      fun v => .consequence (.warp ⟨v 0, v 1, v 2⟩)

section Row

variable {α : Type} {n : Nat}

theorem rune_eq_map {results : Fin 2 → Except Issue Int} {values : Fin 2 → Int} {i : Fin 2}
    (hothers : ∀ j, j ≠ i → results j = .ok (values j)) (make : Nat → Nat → α) :
    (do
      let runeClass ← Int.toNat <$> results 0
      let number ← Int.toNat <$> results 1
      return make runeClass number) =
    (fun value =>
      let v := Function.update values i value
      make (v 0).toNat (v 1).toNat) <$> results i := by
  obtain ⟨result, rfl⟩ := exists_eq_update hothers
  fin_cases i <;> cases result <;> rfl

theorem Role.IsNumberRow.read_eq {role : Role} {places : Fin n → NumericPlace}
    {make : (Fin n → Int) → Meaning} (h : role.IsNumberRow places make) (context : Context)
    {clause : KeywordClause} {sources : Fin n → Lexeme}
    (harguments : clause.argumentList = List.ofFn fun j => .operand (sources j))
    (hcomparison : clause.comparison = none) {values : Fin n → Int} {i : Fin n}
    (hothers : ∀ j, j ≠ i → (places j).read (sources j).column (sources j).text = .ok (values j)) :
    role.read context clause =
      (fun value => make (Function.update values i value)) <$>
        (places i).read (sources i).column (sources i).text := by
  let results (j : Fin n) := (places j).read (sources j).column (sources j).text
  have hnone := KeywordClause.noComparison_eq_ok hcomparison
  -- What is made of the numbers becomes a meaning in a second step.
  have hmap {α : Type} {first : Int → α} {second : α → Meaning} {whole : Except Issue α}
      (hwhole : whole = first <$> results i) :
      second <$> whole = (fun value => second (first value)) <$> results i := by
    rw [hwhole, Functor.map_map]
  cases h with
  | chance =>
      have hone := clause.oneArgument_eq_ok (.operand (sources 0)) harguments
      simp only [read, Condition.ofClause, hone, hnone]
      exact hmap (single_eq_map results values i Condition.chance)
  | treasure =>
      have hone := clause.oneArgument_eq_ok (.operand (sources 0)) harguments
      simp only [read, Consequence.ofClause, hone, hnone]
      exact hmap (single_eq_map results values i Consequence.treasure)
  | rune =>
      have hpair : clause.argumentList = [.operand (sources 0), .operand (sources 1)] := harguments
      simp only [read, Consequence.ofClause, hnone, hpair]
      exact hmap (rune_eq_map hothers Consequence.rune)
  | warp =>
      have htriple : clause.argumentList =
          [.operand (sources 0), .operand (sources 1), .operand (sources 2)] := harguments
      simp only [read, Consequence.ofClause, hnone, htriple]
      have hposition := position_eq_map hothers Consequence.warp
      simp only [bind_assoc, pure_bind] at hposition
      exact hmap hposition

end Row

/-! ### Places in clauses -/

/-- The arguments and the comparison of the clause are in order around a number, which stands in
this place; with a value of its own, the number makes the clause mean this. -/
inductive Role.HoldsNumber (context : Context) (clause : KeywordClause) : Role → Lexeme →
    NumericPlace → (Int → Except Cause Meaning) → Prop
  | row {n : Nat} {role : Role} {places : Fin n → NumericPlace} {make : (Fin n → Int) → Meaning}
      (hrow : role.IsNumberRow places make) {sources : Fin n → Lexeme}
      (harguments : clause.argumentList = List.ofFn fun j => .operand (sources j))
      (hcomparison : clause.comparison = none) (i : Fin n)
      (hothers : ∀ j, j ≠ i → IsNumber (sources j).text ∧ (places j).Takes (sources j).text) :
      HoldsNumber context clause role (sources i) (places i) fun value =>
        .ok (make (Function.update (fun j => integerOfDigits (sources j).text) i value))
  | questIs {source : Lexeme} (harguments : clause.argumentList = [.operand source])
      {comparison : Comparison} (hoperation : clause.operation = .ok comparison)
      {op : CompareOperator} {amount : Quantity}
      (hcompare : comparison.compare = .ok (op, amount)) :
      HoldsNumber context clause (.condition .questStatus) source .questId fun quest =>
        .ok (.condition (.questStatus quest.toNat op amount))
  | questBecomes {source : Lexeme} (harguments : clause.argumentList = [.operand source])
      {comparison : Comparison} (hoperation : clause.operation = .ok comparison)
      {op : CalculationOperator} {amount : Quantity}
      (hcalculate : comparison.calculate clause.keyword.text = .ok (op, amount)) :
      HoldsNumber context clause (.consequence .questStatus) source .questId fun quest =>
        .ok (.consequence (.questStatus quest.toNat op amount))
  | itemHeld {source : Lexeme} (harguments : clause.argumentList = [.operand source])
      {comparison : Comparison} (hoperation : clause.operation = .ok comparison)
      {op : CompareOperator} {amount : Quantity}
      (hcompare : comparison.compare = .ok (op, amount)) :
      HoldsNumber context clause (.condition .item) source .itemId fun id =>
        (fun item => .condition (.item item .all op amount)) <$> context.lookUp source.text id
  | itemHeldIn {source : Lexeme} {second : Argument}
      (harguments : clause.argumentList = [.operand source, second])
      {location : ItemLocation}
      (hlocation : second.member ItemLocation "item location" = .ok location)
      {comparison : Comparison} (hoperation : clause.operation = .ok comparison)
      {op : CompareOperator} {amount : Quantity}
      (hcompare : comparison.compare = .ok (op, amount)) :
      HoldsNumber context clause (.condition .item) source .itemId fun id =>
        (fun item => .condition (.item item location op amount)) <$> context.lookUp source.text id
  | itemTaken {source : Lexeme} {second : Argument}
      (harguments : clause.argumentList = [.operand source, second])
      (hcomparison : clause.comparison = none) {amount : Quantity}
      (hamount : clause.amount second = .ok amount) :
      HoldsNumber context clause (.consequence .deleteItem) source .itemId fun id =>
        (fun item => .consequence (.deleteItem item amount)) <$> context.lookUp source.text id
  | itemGiven {source : Lexeme} {second : Argument} {third : Option Argument}
      (harguments : clause.argumentList = .operand source :: second :: third.toList)
      (hcomparison : clause.comparison = none) {amount : Quantity}
      (hamount : clause.amount second = .ok amount) {quality : Option Nat}
      (hquality : third.mapM (clause.natural .itemQuality) = .ok quality) :
      HoldsNumber context clause (.consequence .item) source .itemId fun id =>
        (fun item => .consequence (.item item amount quality)) <$> context.lookUp source.text id
  | quality {first second : Argument} {source : Lexeme}
      (harguments : clause.argumentList = [first, second, .operand source])
      (hcomparison : clause.comparison = none) {item : Item}
      (hitem : clause.item context first = .ok item) {amount : Quantity}
      (hamount : clause.amount second = .ok amount) :
      HoldsNumber context clause (.consequence .item) source .itemQuality fun value =>
        .ok (.consequence (.item item amount (some value.toNat)))

namespace Role.HoldsNumber

variable {context : Context} {clause : KeywordClause} {role : Role} {source : Lexeme}
  {place : NumericPlace} {use : Int → Except Cause Meaning}
  (h : role.HoldsNumber context clause source place use)

include h

theorem read_eq : role.read context clause = place.settle source use := by
  have hone := clause.oneArgument_eq_ok (.operand source)
  have hnone := clause.noComparison_eq_ok
  -- In every case all else in the clause is known, and what is left to be read is the number.
  cases h with
  | row hrow harguments hcomparison i hothers =>
      rw [NumericPlace.settle_ok, hrow.read_eq context harguments hcomparison fun j hj =>
        NumericPlace.read_of_takes _ (hothers j hj).1 (hothers j hj).2]
  | questIs harguments hoperation hcompare =>
      simp only [read, Condition.ofClause, hone harguments, clause.natural_operand, hoperation,
        hcompare, NumericPlace.settle_ok, bind, Except.bind]
      cases NumericPlace.questId.read source.column source.text <;> rfl
  | questBecomes harguments hoperation hcalculate =>
      simp only [read, Consequence.ofClause, hone harguments, clause.natural_operand, hoperation,
        hcalculate, NumericPlace.settle_ok, bind, Except.bind]
      cases NumericPlace.questId.read source.column source.text <;> rfl
  | itemHeld harguments hoperation hcompare =>
      simp only [read, Condition.ofClause, harguments, clause.item_operand, hoperation, hcompare,
        ← NumericPlace.map_settle, bind, Except.bind, pure, Except.pure]
      cases NumericPlace.itemId.settle source (context.lookUp source.text) <;> rfl
  | itemHeldIn harguments hlocation hoperation hcompare =>
      simp only [read, Condition.ofClause, harguments, clause.item_operand, hlocation, hoperation,
        hcompare, ← NumericPlace.map_settle, bind, Except.bind, pure, Except.pure]
      cases NumericPlace.itemId.settle source (context.lookUp source.text) <;> rfl
  | itemTaken harguments hcomparison hamount =>
      simp only [read, Consequence.ofClause, hnone hcomparison, harguments, clause.item_operand,
        hamount, ← NumericPlace.map_settle, bind, Except.bind]
      cases NumericPlace.itemId.settle source (context.lookUp source.text) <;> rfl
  | @itemGiven _ second third harguments hcomparison amount hamount quality hquality =>
      cases third with
      | none | some argument =>
          simp only [read, Consequence.ofClause, hnone hcomparison, harguments, Option.toList,
            clause.item_operand, hamount, hquality, ← NumericPlace.map_settle, bind, Except.bind,
            pure, Except.pure]
          cases NumericPlace.itemId.settle source (context.lookUp source.text) <;> rfl
  | quality harguments hcomparison hitem hamount =>
      simp only [read, Consequence.ofClause, hnone hcomparison, harguments, hitem, hamount,
        Option.mapM_some, clause.natural_operand, NumericPlace.settle_ok, bind, Except.bind, pure,
        Except.pure]
      cases NumericPlace.itemQuality.read source.column source.text <;> rfl

end Role.HoldsNumber

end NpcScript
