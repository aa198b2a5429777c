import Mathlib.Data.Nat.Digits.Defs
import NpcScript.Proofs.Context
import NpcScript.Proofs.Grammar.OperandFront
import NpcScript.Proofs.Writing.Piece

/-!
Writing numbers. A number is written in as many digits as it needs, with a minus sign in front if it
is negative. Every place is wide enough for the numbers that it admits, so each of them is read
back.
-/

namespace NpcScript

open Text (IsTrimmed FitsLine)
open Grammar (IsDigits IsNumber Operand)

def numeral (value : Int) : List Char :=
  (toString value).toList

theorem numeral_natCast (n : Nat) : numeral n = Nat.toDigits 10 n :=
  Nat.toList_repr

theorem numeral_negSucc (n : Nat) : numeral (Int.negSucc n) = '-' :: Nat.toDigits 10 (n + 1) := by
  show ("-" ++ Nat.repr (n + 1)).toList = _
  rw [String.toList_append, Nat.toList_repr]
  rfl

section Digits

variable (n : Nat)

theorem isDigit_of_mem_digits {c : Char} (h : c ∈ Nat.toDigits 10 n) : c.isDigit = true :=
  Nat.isDigit_of_mem_toDigits (by decide) (by decide) h

theorem isDigits_toDigits : IsDigits (Nat.toDigits 10 n) := by
  have hdigit : ∀ c ∈ Nat.toDigits 10 n, c.isDigit = true := fun c => isDigit_of_mem_digits n
  obtain ⟨c, rest, hcons⟩ := List.exists_cons_of_ne_nil (Nat.toDigits_ne_nil (n := n) (b := 10))
  rw [hcons] at hdigit ⊢
  exact .intro (hdigit c (by simp)) fun d hd => hdigit d (by simp [hd])

theorem naturalOfDigits_toDigits : naturalOfDigits (Nat.toDigits 10 n) = n :=
  Nat.ofDigitChars_toDigits (by decide) (by decide)

theorem head_toDigits_ne : (Nat.toDigits 10 n).head? ≠ some '-' :=
  (isDigits_toDigits n).head_ne (by decide)

end Digits

section Minus

variable {s : List Char}

theorem dropMinus_of_head_ne (h : s.head? ≠ some '-') : dropMinus s = s := by
  unfold dropMinus
  split
  · exact absurd rfl h
  · rfl

theorem integerOfDigits_of_head_ne (h : s.head? ≠ some '-') :
    integerOfDigits s = naturalOfDigits s := by
  unfold integerOfDigits
  split
  · exact absurd rfl h
  · rfl

end Minus

theorem Grammar.IsNumber.operand {s : List Char} (hs : IsNumber s) : Operand s := by
  cases hs with
  | plain hs => exact .sum (.single (.plain (.digits hs)))
  | negative hs => exact .sum (.single (.negative (.digits hs)))

section Numerals

variable (value : Int)

theorem isNumber_numeral : IsNumber (numeral value) := by
  cases value with
  | ofNat n =>
      rw [Int.ofNat_eq_natCast, numeral_natCast]
      exact .plain (isDigits_toDigits n)
  | negSucc n =>
      rw [numeral_negSucc]
      exact .negative (isDigits_toDigits (n + 1))

theorem dropMinus_numeral : dropMinus (numeral value) = Nat.toDigits 10 value.natAbs := by
  cases value with
  | ofNat n =>
      rw [Int.ofNat_eq_natCast, numeral_natCast, dropMinus_of_head_ne (head_toDigits_ne n)]
      rfl
  | negSucc n =>
      rw [numeral_negSucc]
      rfl

theorem integerOfDigits_numeral : integerOfDigits (numeral value) = value := by
  cases value with
  | ofNat n =>
      rw [Int.ofNat_eq_natCast, numeral_natCast, integerOfDigits_of_head_ne (head_toDigits_ne n),
        naturalOfDigits_toDigits]
  | negSucc n =>
      rw [numeral_negSucc, integerOfDigits, naturalOfDigits_toDigits]
      rfl

theorem operand_numeral : Operand (numeral value) :=
  (isNumber_numeral value).operand

theorem isTrimmed_numeral : IsTrimmed (numeral value) :=
  (operand_numeral value).isTrimmed

theorem fitsLine_numeral : FitsLine (numeral value) := by
  refine (isTrimmed_numeral value).fitsLine fun hmem => ?_
  cases value with
  | ofNat n =>
      rw [Int.ofNat_eq_natCast, numeral_natCast] at hmem
      exact absurd (isDigit_of_mem_digits n hmem) (by decide)
  | negSucc n =>
      rw [numeral_negSucc, List.mem_cons] at hmem
      rcases hmem with hmem | hmem
      · exact absurd hmem (by decide)
      · exact absurd (isDigit_of_mem_digits _ hmem) (by decide)

end Numerals

/-! ### Places -/

namespace NumericPlace

/-- The place allows as many digits as its bounds have. -/
structure IsWide (place : NumericPlace) : Prop where
  pos : 0 < place.digits
  min : -(10 ^ place.digits) < place.min
  max : place.max < 10 ^ place.digits

instance : DecidablePred IsWide := fun place =>
  decidable_of_iff (0 < place.digits ∧ -(10 ^ place.digits) < place.min ∧
      place.max < 10 ^ place.digits)
    ⟨fun h => ⟨h.1, h.2.1, h.2.2⟩, fun h => ⟨h.pos, h.min, h.max⟩⟩

theorem isWide_byte (field : String) : (byte field).IsWide :=
  ⟨show 0 < 3 by decide, show -(10 ^ 3) < (0 : Int) by decide,
    show (255 : Int) < 10 ^ 3 by decide⟩

/-- A place for natural numbers whose bounds are known. -/
theorem admits_natCast {place : NumericPlace} {min max : Nat} (hmin : place.min = min)
    (hmax : place.max = max) {n : Nat} (h : min ≤ n ∧ n ≤ max) : place.Admits n :=
  ⟨by omega, by omega⟩

theorem length_digits_le {place : NumericPlace} (hwide : place.IsWide) {value : Int}
    (h : place.Admits value) : (Nat.toDigits 10 value.natAbs).length ≤ place.digits := by
  rw [Nat.length_toDigits_le_iff (by decide) hwide.pos]
  obtain ⟨hmin, hmax⟩ := h
  have hlow := hwide.min
  have hhigh := hwide.max
  zify
  rw [abs_lt]
  exact ⟨by omega, by omega⟩

/-- A number that a place admits is read back from its digits. -/
theorem read_numeral {place : NumericPlace} (hwide : place.IsWide) {value : Int}
    (h : place.Admits value) (column : Nat) : place.read column (numeral value) = .ok value := by
  have hlength := length_digits_le hwide h
  have hdigits : ∀ c ∈ Nat.toDigits 10 value.natAbs, c.isDigit = true :=
    fun c => isDigit_of_mem_digits _
  simp only [read, Text.trim_eq_self (isTrimmed_numeral value), dropMinus_numeral,
    integerOfDigits_numeral]
  rw [if_neg (by simpa [Nat.toDigits_ne_nil, hlength] using hdigits), cast_of_admits h]
  exact if_pos h

end NumericPlace

/-- An item is found again under the numeral of its number. -/
theorem Context.item_numeral (context : Context) {found : Item} (h : found.IsValid context)
    (source : List Char) (column : Nat) :
    context.item source column (numeral found.id) = .ok found := by
  have hadmits : NumericPlace.itemId.Admits found.id :=
    NumericPlace.admits_natCast rfl rfl ⟨Nat.zero_le _, h.id_le⟩
  simp only [item, NumericPlace.itemId.read_numeral (by decide) hadmits, bind, Except.bind,
    Int.toNat_natCast, h.find?]
  rfl

end NpcScript
