import Mathlib.Data.Fintype.Basic
import Mathlib.Tactic.FinCases
import NpcScript.Proofs.Clause.Classification
import NpcScript.Proofs.Statement.Value

/-!
Numbers in their places. A number is a row of digits with or without a minus sign in front. A place
takes it if it has no more digits than the place allows and if its value lies between the bounds of
the place; the digits are counted first, and only a number that has few enough of them is said to be
out of range.
-/

namespace NpcScript

open Text
open Grammar (IsNumber Value Lexeme)

namespace NumericPlace

instance (place : NumericPlace) : DecidablePred place.Admits :=
  fun value => inferInstanceAs (Decidable (place.min ≤ value ∧ value ≤ place.max))

/-- The number has no more digits than the place allows, and its value lies between the bounds. -/
structure Takes (place : NumericPlace) (number : List Char) : Prop where
  length_le : (dropMinus number).length ≤ place.digits
  admits : place.Admits (integerOfDigits number)

theorem takes_iff {place : NumericPlace} {number : List Char} :
    place.Takes number ↔
      (dropMinus number).length ≤ place.digits ∧ place.Admits (integerOfDigits number) :=
  ⟨fun h => ⟨h.length_le, h.admits⟩, fun h => ⟨h.1, h.2⟩⟩

instance (place : NumericPlace) : DecidablePred place.Takes :=
  fun _ => decidable_of_iff _ takes_iff.symm

variable (place : NumericPlace) (column : Nat) {number : List Char}

theorem read_of_isNumber (h : IsNumber number) :
    place.read column number =
      if place.digits < (dropMinus number).length then
        .error (.atColumn column (.malformedNumber place.field (String.ofList number)))
      else if place.Admits (integerOfDigits number) then .ok (integerOfDigits number)
      else
        .error (.atColumn column
          (.valueOutOfRange place.field (String.ofList number) place.min place.max)) := by
  obtain ⟨hne, hdigits⟩ := Quantity.isNumber_iff_dropMinus.mp h
  have hempty : (dropMinus number).isEmpty = false := by simpa using hne
  have hall : (dropMinus number).all Char.isDigit = true := List.all_eq_true.mpr hdigits
  rw [read, trim_eq_self h.operand.isTrimmed]
  simp only [hempty, hall, Bool.not_true, Bool.false_or, Bool.or_false, decide_eq_true_eq]
  split
  · rfl
  · by_cases hrange : place.Admits (integerOfDigits number)
    · rw [cast_of_admits hrange]
      rfl
    · rw [if_neg hrange]
      exact if_neg hrange

variable {place}

theorem read_of_takes (h : IsNumber number) (htakes : place.Takes number) :
    place.read column number = .ok (integerOfDigits number) := by
  rw [place.read_of_isNumber column h, if_neg (Nat.not_lt.mpr htakes.length_le),
    if_pos htakes.admits]

theorem exists_read_of_not_takes (h : IsNumber number) (htakes : ¬ place.Takes number) :
    ∃ cause, place.read column number = .error (.atColumn column cause) := by
  rw [place.read_of_isNumber column h]
  split
  · exact ⟨_, rfl⟩
  · rename_i hlength
    rw [if_neg fun hadmits => htakes ⟨Nat.le_of_not_lt hlength, hadmits⟩]
    exact ⟨_, rfl⟩

/-- Whatever is wrong with a number is told of the column where it stands. -/
theorem column_of_read {text : List Char} {issue : Issue}
    (h : place.read column text = .error issue) : issue.column = some column := by
  simp only [read] at h
  split at h
  · cases h
    rfl
  · split at h
    · cases h
    · cases h
      rfl

/-! ### What becomes of a number -/

def settle {α : Type} (place : NumericPlace) (source : Lexeme) (use : Int → Except Cause α) :
    Except Issue α := do
  let value ← place.read source.column source.text
  (use value).mapError (.atColumn source.column)

section Settle

variable {α β : Type} (place : NumericPlace) (source : Lexeme)

theorem map_settle (f : α → β) (use : Int → Except Cause α) :
    f <$> place.settle source use = place.settle source fun value => f <$> use value := by
  unfold settle
  cases place.read source.column source.text with
  | error issue => rfl
  | ok value =>
      show f <$> (use value).mapError _ = (f <$> use value).mapError _
      cases use value <;> rfl

/-- Where every value can be put to use, only reading the number can fail. -/
theorem settle_ok (f : Int → α) :
    place.settle source (fun value => .ok (f value)) =
      f <$> place.read source.column source.text := by
  unfold settle
  cases place.read source.column source.text <;> rfl

end Settle

/-- The result is the one that the number deserves. Its digits are counted first, and its value is
looked at only if there are few enough of them; a number that is refused is quoted as it is written.
The value of a number that is taken is put to use as it is: it fits 64 bits, and none of it is lost
when it is cut to the bits of the place or to a natural number. -/
structure Decides {α : Type} (place : NumericPlace) (source : Lexeme) (use : Int → Except Cause α)
    (result : Except Issue α) : Prop where
  tooLong : place.digits < (dropMinus source.text).length →
    result = .error (.atColumn source.column
      (.malformedNumber place.field (String.ofList source.text)))
  outOfRange : (dropMinus source.text).length ≤ place.digits →
    ¬ place.Admits (integerOfDigits source.text) →
    result = .error (.atColumn source.column
      (.valueOutOfRange place.field (String.ofList source.text) place.min place.max))
  taken : place.Takes source.text →
    result = (use (integerOfDigits source.text)).mapError (.atColumn source.column)
  parsed : (dropMinus source.text).length ≤ place.digits →
    -(2 ^ 63) ≤ integerOfDigits source.text ∧ integerOfDigits source.text < 2 ^ 63
  kept_eq : place.Takes source.text →
    place.width.cast (integerOfDigits source.text) = integerOfDigits source.text
  natural : place.Takes source.text → 0 ≤ place.min →
    ((integerOfDigits source.text).toNat : Int) = integerOfDigits source.text

end NumericPlace

/-! ### Values of few digits -/

/-- Each digit makes a bound ten times as large. -/
theorem foldl_digits_lt {digits : List Char} (h : ∀ c ∈ digits, c.isDigit = true)
    {value bound : Nat} (hvalue : value < bound) :
    digits.foldl (fun value digit => 10 * value + (digit.toNat - '0'.toNat)) value <
      bound * 10 ^ digits.length := by
  induction digits generalizing value bound with
  | nil => simpa using hvalue
  | cons c digits ih =>
      obtain ⟨hc, hdigits⟩ := List.forall_mem_cons.mp h
      have hdigit : c.toNat - '0'.toNat ≤ 9 := Nat.sub_le_of_le_add (Char.isDigit_iff_toNat.mp hc).2
      calc (c :: digits).foldl _ value
          < bound * 10 * 10 ^ digits.length := ih hdigits (by omega)
        _ = bound * 10 ^ (c :: digits).length := by
          rw [List.length_cons, Nat.pow_succ', Nat.mul_assoc]

theorem naturalOfDigits_lt {digits : List Char} (h : ∀ c ∈ digits, c.isDigit = true) :
    naturalOfDigits digits < 10 ^ digits.length := by
  simpa [naturalOfDigits] using foldl_digits_lt h Nat.one_pos

/-- The value is the one of the digits or its negative. -/
theorem natAbs_integerOfDigits (number : List Char) :
    (integerOfDigits number).natAbs = naturalOfDigits (dropMinus number) := by
  by_cases hminus : number.head? = some '-'
  · obtain ⟨digits, rfl⟩ := List.head?_eq_some_iff.mp hminus
    exact Int.natAbs_neg _
  · rw [integerOfDigits_of_head_ne hminus, dropMinus_of_head_ne hminus]
    rfl

namespace NumericPlace

variable {place : NumericPlace} {number : List Char}

/-- A number of so few digits fits 64 bits. -/
theorem fits_of_length_le (h : IsNumber number)
    (hlength : (dropMinus number).length ≤ place.digits) :
    -(2 ^ 63) ≤ integerOfDigits number ∧ integerOfDigits number < 2 ^ 63 := by
  have hlt : (integerOfDigits number).natAbs < 10 ^ 18 := by
    rw [natAbs_integerOfDigits]
    calc naturalOfDigits (dropMinus number)
        < 10 ^ (dropMinus number).length :=
          naturalOfDigits_lt (Quantity.isNumber_iff_dropMinus.mp h).2
      _ ≤ 10 ^ 18 := Nat.pow_le_pow_right (by decide) (hlength.trans place.digits_le)
  omega

/-- A number that is settled is decided. -/
theorem decides_settle {α : Type} {source : Lexeme} (h : IsNumber source.text)
    (use : Int → Except Cause α) :
    place.Decides source use (place.settle source use) where
  tooLong hlength := by
    rw [settle, place.read_of_isNumber source.column h, if_pos hlength]
    rfl
  outOfRange hlength hrange := by
    rw [settle, place.read_of_isNumber source.column h, if_neg (Nat.not_lt.mpr hlength),
      if_neg hrange]
    rfl
  taken htakes := by
    rw [settle, read_of_takes source.column h htakes]
    rfl
  parsed := fits_of_length_le h
  kept_eq htakes := cast_of_admits htakes.admits
  natural htakes hmin := Int.toNat_of_nonneg (hmin.trans htakes.admits.1)

end NumericPlace

/-! ### Numbers side by side -/

section Row

variable {α : Type}

/-- Where all results but one are values, nothing is left to know but this one. -/
theorem exists_eq_update {n : Nat} {results : Fin n → Except Issue Int} {values : Fin n → Int}
    {i : Fin n} (hothers : ∀ j, j ≠ i → results j = .ok (values j)) :
    ∃ result, results = Function.update (fun j => .ok (values j)) i result :=
  ⟨results i, Function.eq_update_iff.mpr ⟨rfl, hothers⟩⟩

theorem single_eq_map (results : Fin 1 → Except Issue Int) (values : Fin 1 → Int) (i : Fin 1)
    (make : Nat → α) :
    (do return make (← Int.toNat <$> results 0)) =
      (fun value => make (Function.update values i value 0).toNat) <$> results i := by
  fin_cases i
  cases hresult : results 0 <;> simp [hresult]

theorem position_eq_map {results : Fin 3 → Except Issue Int} {values : Fin 3 → Int} {i : Fin 3}
    (hothers : ∀ j, j ≠ i → results j = .ok (values j)) (make : Position → α) :
    (do
      let found ← (do return ⟨← results 0, ← results 1, ← results 2⟩)
      return make found) =
    (fun value =>
      let v := Function.update values i value
      make ⟨v 0, v 1, v 2⟩) <$> results i := by
  obtain ⟨result, rfl⟩ := exists_eq_update hothers
  fin_cases i <;> cases result <;> rfl

end Row

/-! ### Numbers of items -/

def Context.lookUp (context : Context) (quoted : List Char) (id : Int) : Except Cause Item :=
  match context.items.find? id.toNat with
  | some item => .ok item
  | none => .error (.unknownItem id.toNat (String.ofList (Text.trim quoted)))

theorem Context.item_eq_settle (context : Context) (quoted : List Char) (source : Lexeme) :
    context.item quoted source.column source.text =
      NumericPlace.itemId.settle source (context.lookUp quoted) := by
  rw [item, NumericPlace.settle]
  refine congrArg (Bind.bind _) (funext fun id => ?_)
  simp only [lookUp]
  cases context.items.find? id.toNat <;> rfl

theorem Context.column_of_item {context : Context} {source text : List Char} {column : Nat}
    {issue : Issue} (h : context.item source column text = .error issue) :
    issue.column = some column := by
  cases hread : NumericPlace.itemId.read column text with
  | error found =>
      rw [item, hread] at h
      cases h
      exact NumericPlace.column_of_read column hread
  | ok id =>
      rw [item, hread] at h
      simp only [bind, Except.bind] at h
      split at h
      · cases h
      · cases h
        rfl

end NpcScript
