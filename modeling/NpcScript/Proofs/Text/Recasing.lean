import NpcScript.Proofs.Text.Trim
import NpcScript.Text.Lines
import NpcScript.Vocabulary

/-!
Texts in another letter case. Whatever looks at a text without telling capital letters from small
ones finds the same in every spelling of it. Only letters have two cases, so of a text without
letters there is one spelling only.
-/

namespace NpcScript

namespace Text

/-! ### Characters -/

theorem toLower_of_not_isUpper {c : Char} (h : c.isUpper = false) : c.toLower = c :=
  dif_neg (of_decide_eq_false h)

@[simp] theorem toLower_toLower (c : Char) : c.toLower.toLower = c.toLower := by
  cases hupper : c.isUpper with
  | false => rw [toLower_of_not_isUpper hupper, toLower_of_not_isUpper hupper]
  | true =>
      have hle : c.toNat ≤ 90 := UInt32.le_iff_toNat_le.mp (of_decide_eq_true hupper).2
      have hall : ∀ n < 91, (Char.ofNat n).toLower.toLower = (Char.ofNat n).toLower := by decide
      have hc := hall c.toNat (Nat.lt_succ_of_le hle)
      rwa [Char.ofNat_toNat] at hc

@[simp] theorem isDigit_toLower (c : Char) : c.toLower.isDigit = c.isDigit :=
  apply_toLower (by decide) c

@[simp] theorem isAlpha_toLower (c : Char) : c.toLower.isAlpha = c.isAlpha :=
  apply_toLower (by decide) c

theorem toLower_of_not_isAlpha {c : Char} (h : c.isAlpha = false) : c.toLower = c :=
  toLower_of_not_isUpper (Bool.or_eq_false_iff.mp h).1

/-- What is no letter is spelled in one way only. -/
theorem toLower_eq_iff {c d : Char} (h : d.isAlpha = false) : c.toLower = d ↔ c = d := by
  constructor
  · rintro rfl
    rw [isAlpha_toLower] at h
    exact (toLower_of_not_isAlpha h).symm
  · rintro rfl
    exact toLower_of_not_isAlpha h

/-! ### Small letters -/

@[simp] theorem lower_nil : lower [] = [] := rfl

@[simp] theorem lower_cons (c : Char) (s : List Char) : lower (c :: s) = c.toLower :: lower s := rfl

@[simp] theorem length_lower (s : List Char) : (lower s).length = s.length :=
  List.length_map _

def hasNoLetter (s : List Char) : Bool :=
  s.all fun c => !c.isAlpha

theorem hasNoLetter_iff {s : List Char} :
    hasNoLetter s = true ↔ ∀ c ∈ s, c.isAlpha = false := by
  simp [hasNoLetter]

theorem lower_eq_iff {s t : List Char} (h : ∀ c ∈ t, c.isAlpha = false) : lower s = t ↔ s = t := by
  induction t generalizing s with
  | nil => simp [lower]
  | cons d t ih =>
      have hd := h d (by simp)
      have ht : ∀ c ∈ t, c.isAlpha = false := fun c hc => h c (by simp [hc])
      cases s with
      | nil => simp
      | cons c s => simp [toLower_eq_iff hd, ih ht]

/-- Letters may change their case, and every other character stays as it is. -/
def IsRecasing (f : Char → Char) : Prop :=
  ∀ c, (f c).toLower = c.toLower

namespace IsRecasing

variable {f : Char → Char} (hf : IsRecasing f)

theorem id : IsRecasing id :=
  fun _ => rfl

theorem toLower : IsRecasing Char.toLower :=
  toLower_toLower

include hf

/-- A class of characters that does not tell capital letters from small ones. -/
theorem apply {p : Char → Bool} (hp : ∀ c : Char, p c.toLower = p c) (c : Char) :
    p (f c) = p c := by
  rw [← hp (f c), hf, hp]

theorem eq_iff {c d : Char} (h : d.isAlpha = false) : f c = d ↔ c = d := by
  rw [← toLower_eq_iff h, hf, toLower_eq_iff h]

theorem lower_map (s : List Char) : lower (s.map f) = lower s := by
  simp [lower, hf _]

theorem sameLetters_map (s t : List Char) : sameLetters (s.map f) t = sameLetters s t := by
  rw [sameLetters, hf.lower_map, sameLetters]

theorem lower_eq {s t : List Char} (h : s.map f = t.map f) : lower s = lower t := by
  rw [← hf.lower_map s, h, hf.lower_map t]

theorem dropWhile_map {p : Char → Bool} (hp : ∀ c : Char, p c.toLower = p c) (s : List Char) :
    (s.map f).dropWhile p = (s.dropWhile p).map f := by
  rw [List.dropWhile_map, show p ∘ f = p from funext fun c => hf.apply hp c]

theorem takeWhile_map {p : Char → Bool} (hp : ∀ c : Char, p c.toLower = p c) (s : List Char) :
    (s.map f).takeWhile p = (s.takeWhile p).map f := by
  rw [List.takeWhile_map, show p ∘ f = p from funext fun c => hf.apply hp c]

theorem all_map {p : Char → Bool} (hp : ∀ c : Char, p c.toLower = p c) (s : List Char) :
    (s.map f).all p = s.all p := by
  rw [List.all_map, show p ∘ f = p from funext fun c => hf.apply hp c]

theorem any_map {p : Char → Bool} (hp : ∀ c : Char, p c.toLower = p c) (s : List Char) :
    (s.map f).any p = s.any p := by
  rw [List.any_map, show p ∘ f = p from funext fun c => hf.apply hp c]

theorem trimStart_map (s : List Char) : trimStart (s.map f) = (trimStart s).map f :=
  hf.dropWhile_map isBlank_toLower s

theorem trim_map (s : List Char) : trim (s.map f) = (trim s).map f := by
  rw [trim, trim, hf.trimStart_map, trimEnd, trimEnd, ← List.map_reverse,
    hf.dropWhile_map isBlank_toLower, List.map_reverse]

theorem cut_map {isSeparator : Char → Bool} (h : ∀ c : Char, isSeparator c.toLower = isSeparator c)
    (s : List Char) :
    cut isSeparator (s.map f) =
      ((cut isSeparator s).1.map f, (cut isSeparator s).2.map (List.map f)) := by
  induction s with
  | nil => rfl
  | cons c s ih =>
      rw [List.map_cons, cut_cons, cut_cons, hf.apply h, ih]
      split <;> simp

end IsRecasing

/-! ### Comparing -/

theorem trim_lower (s : List Char) : trim (lower s) = lower (trim s) :=
  IsRecasing.toLower.trim_map s

@[simp] theorem sameLetters_lower (s t : List Char) : sameLetters (lower s) t = sameLetters s t :=
  IsRecasing.toLower.sameLetters_map s t

end Text

open Text

namespace Vocabulary

variable {α : Type} [Vocabulary α]

@[simp] theorem ofWord?_lower (s : List Char) : ofWord? α (lower s) = ofWord? α s := by
  simp [ofWord?, isWrittenAs]

@[simp] theorem ofToken?_lower (s : List Char) : ofToken? α (lower s) = ofToken? α s := by
  rw [ofToken?, trim_lower, ofWord?_lower, ofToken?]

/-- A word means the same in every spelling. -/
theorem ofWord?_eq {s t : List Char} (h : lower s = lower t) : ofWord? α s = ofWord? α t := by
  rw [← ofWord?_lower s, h, ofWord?_lower]

theorem ofToken?_eq {s t : List Char} (h : lower s = lower t) : ofToken? α s = ofToken? α t := by
  rw [← ofToken?_lower s, h, ofToken?_lower]

end Vocabulary

end NpcScript
