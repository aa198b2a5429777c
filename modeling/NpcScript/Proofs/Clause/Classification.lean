import NpcScript.Proofs.Clause.Quantity
import NpcScript.Proofs.Grammar.Derivation
import NpcScript.Proofs.Writing.Number

/-!
What an operand stands for. `IsMeantBy` tells it from the way in which the operand is written: as a
number, as `%NUMBER`, with `expr(…)` around it, or as a sum of numbers and variables. The reader
looks at the text alone and cuts sums at their signs and parentheses; that it comes to the same
answer is due to the grammar, which leaves exactly one leaf between two such cuts.
-/

namespace NpcScript

open Text Grammar

namespace Text

theorem trim_of_forall {s : List Char} (h : ∀ c ∈ s, isBlank c = true) : trim s = [] := by
  have hstart : trimStart s = [] := by
    rw [trimStart, List.dropWhile_eq_nil_iff]
    exact h
  rw [trim, hstart]
  rfl

/-- Blanks around a trimmed text are what trimming takes away. -/
theorem trim_enclosed {before s after : List Char} (hbefore : ∀ c ∈ before, isBlank c = true)
    (hs : IsTrimmed s) (hne : s ≠ []) (hafter : ∀ c ∈ after, isBlank c = true) :
    trim (before ++ s ++ after) = s := by
  obtain ⟨hstart, -⟩ := exists_trim_append hbefore hs hne after
  have hreverse : ∀ c ∈ after.reverse, isBlank c = true := by
    intro c hc
    exact hafter c (List.mem_reverse.mp hc)
  rw [List.append_assoc, trim, hstart, trimEnd, List.reverse_append,
    List.dropWhile_append_of_pos hreverse]
  have hself := trim_eq_self hs
  obtain ⟨c, t, rfl⟩ := List.exists_cons_of_ne_nil hne
  rwa [trim, trimStart, List.dropWhile_cons_of_neg (by simp [hs.head c rfl])] at hself

end Text

namespace Quantity

/-! ### What stands between signs and parentheses -/

/-- Whether a number, a variable or nothing stands in each place between signs and parentheses. -/
def hasOnlyTerms (s : List Char) : Bool :=
  let (first, others) := Text.cut separatesTerms s
  (first :: others).all (isTerm ∘ Text.trim)

theorem isSum_eq (s : List Char) :
    isSum s = ((dropMinus s).any isArithmetic && hasOnlyTerms (dropMinus s)) :=
  rfl

theorem hasOnlyTerms_of_forall {s : List Char} (h : ∀ c ∈ s, separatesTerms c = false) :
    hasOnlyTerms s = isTerm (trim s) := by
  have hcut := cut_append h []
  rw [List.append_nil, cut_nil, List.append_nil] at hcut
  simp [hasOnlyTerms, hcut]

/-- A sign or a parenthesis divides a text into two that can be looked at by themselves. -/
theorem hasOnlyTerms_append_cons {c : Char} (hc : separatesTerms c = true) (s t : List Char) :
    hasOnlyTerms (s ++ c :: t) = (hasOnlyTerms s && hasOnlyTerms t) := by
  have hcut : ∀ s : List Char, cut separatesTerms (s ++ c :: t) =
      ((cut separatesTerms s).1, (cut separatesTerms s).2 ++
        (cut separatesTerms t).1 :: (cut separatesTerms t).2) := by
    intro s
    induction s with
    | nil => simp [cut_cons, hc]
    | cons d s ih =>
        rw [List.cons_append, cut_cons, ih, cut_cons]
        split <;> rfl
  simp [hasOnlyTerms, hcut s, Bool.and_assoc]

theorem isBlank_of_isSpace {c : Char} (h : isSpace c = true) : isBlank c = true := by
  simp only [isSpace, Bool.or_eq_true, beq_iff_eq] at h
  rcases h with rfl | rfl <;> decide

theorem not_separatesTerms_of_isSpace {c : Char} (h : isSpace c = true) :
    separatesTerms c = false := by
  simp only [isSpace, Bool.or_eq_true, beq_iff_eq] at h
  rcases h with rfl | rfl <;> decide

theorem not_separatesTerms_of_continuesWord {c : Char} (h : continuesWord c = true) :
    separatesTerms c = false :=
  of_continuesWord (p := fun c => separatesTerms c = false) (by decide) h

theorem separatesTerms_of_isArithmetic {c : Char} (h : isArithmetic c = true) :
    separatesTerms c = true := by
  simp [separatesTerms, h]

theorem hasOnlyTerms_of_isSpace {spaces : List Char} (h : ∀ c ∈ spaces, isSpace c = true) :
    hasOnlyTerms spaces = true := by
  rw [hasOnlyTerms_of_forall fun c hc => not_separatesTerms_of_isSpace (h c hc),
    trim_of_forall fun c hc => isBlank_of_isSpace (h c hc)]
  rfl

section Leaves

variable {before s after : List Char}

/-- A leaf with spaces around it is one place. -/
theorem hasOnlyTerms_enclosed (hbefore : ∀ c ∈ before, isSpace c = true)
    (hafter : ∀ c ∈ after, isSpace c = true) (hs : IsTrimmed s) (hne : s ≠ [])
    (hfree : ∀ c ∈ s, separatesTerms c = false) :
    hasOnlyTerms (before ++ s ++ after) = isTerm s := by
  rw [hasOnlyTerms_of_forall, trim_enclosed (fun c hc => isBlank_of_isSpace (hbefore c hc)) hs hne
    fun c hc => isBlank_of_isSpace (hafter c hc)]
  intro c hc
  rw [List.append_assoc, List.mem_append, List.mem_append] at hc
  rcases hc with hc | hc | hc
  · exact not_separatesTerms_of_isSpace (hbefore c hc)
  · exact hfree c hc
  · exact not_separatesTerms_of_isSpace (hafter c hc)

theorem isTerm_of_isDigits (hs : IsDigits s) : isTerm s = true := by
  obtain ⟨hc, hs⟩ := hs
  simp [isTerm, hc, List.all_eq_true.mpr hs]

theorem isTerm_percent (hs : IsWord s) : isTerm ('%' :: s) = true := by
  have hall : s.all continuesWord = true := List.all_eq_true.mpr hs.continuesWord
  simp [isTerm, hall, hs.ne_nil]

theorem isTerm_eq_false_of_isWord (hs : IsWord s) : isTerm s = false := by
  obtain ⟨hc, -⟩ := hs
  rename_i c s
  have hdigit : c.isDigit = false := by
    rw [Bool.eq_false_iff]
    intro hdigit
    rw [not_beginsWord_of_isDigit hdigit] at hc
    cases hc
  have hpercent : c ≠ '%' := by
    rintro rfl
    cases hc
  simp [isTerm, hdigit, hpercent]

theorem not_isTermLeaf_of_isWord (hs : IsWord s) : ¬ Derivation.IsTermLeaf s := by
  intro hleaf
  cases hleaf with
  | digits hdigits =>
      have hterm := isTerm_of_isDigits hdigits
      rw [isTerm_eq_false_of_isWord hs] at hterm
      cases hterm
  | percent hname =>
      obtain ⟨hc, -⟩ := hs
      cases hc

end Leaves

/-- The places of a sum are its leaves, whatever spaces stand around the sum. -/
theorem hasOnlyTerms_iff_leaves {part : SumPart} {s : List Char} (derivation : Derivation part s)
    {before after : List Char} (hbefore : ∀ c ∈ before, isSpace c = true)
    (hafter : ∀ c ∈ after, isSpace c = true) :
    hasOnlyTerms (before ++ s ++ after) = true ↔
      ∀ leaf ∈ derivation.leaves, Derivation.IsTermLeaf leaf := by
  induction derivation generalizing before after with
  | digits hs =>
      have hfree := fun c hc => not_separatesTerms_of_continuesWord (hs.continuesWord c hc)
      rw [hasOnlyTerms_enclosed hbefore hafter (isTrimmed_of_continuesWord hs.continuesWord)
        hs.ne_nil hfree]
      simp [isTerm_of_isDigits hs, Derivation.leaves, Derivation.IsTermLeaf.digits hs]
  | word hs =>
      have hfree := fun c hc => not_separatesTerms_of_continuesWord (hs.continuesWord c hc)
      rw [hasOnlyTerms_enclosed hbefore hafter (isTrimmed_of_continuesWord hs.continuesWord)
        hs.ne_nil hfree]
      simp [isTerm_eq_false_of_isWord hs, Derivation.leaves, not_isTermLeaf_of_isWord hs]
  | @percent name hs =>
      have hfree : ∀ c ∈ '%' :: name, separatesTerms c = false := by
        intro c hc
        rcases List.mem_cons.mp hc with rfl | hc
        · rfl
        · exact not_separatesTerms_of_continuesWord (hs.continuesWord c hc)
      rw [hasOnlyTerms_enclosed hbefore hafter (Derives.percent hs).isTrimmed (by simp) hfree]
      simp [isTerm_percent hs, Derivation.leaves, Derivation.IsTermLeaf.percent hs]
  | @group front inner back hfront inside hback ih =>
      -- Both parentheses are cut at, and what is left outside of them is blank.
      have htext : before ++ '(' :: (front ++ inner ++ back ++ [')']) ++ after =
          before ++ '(' :: (front ++ inner ++ back ++ ')' :: after) := by
        simp
      rw [htext, hasOnlyTerms_append_cons rfl, hasOnlyTerms_append_cons rfl,
        hasOnlyTerms_of_isSpace hbefore, hasOnlyTerms_of_isSpace hafter, Bool.true_and,
        Bool.and_true]
      exact ih hfront hback
  | plain atom ih => exact ih hbefore hafter
  | @negative s atom ih =>
      have htext : before ++ '-' :: s ++ after = before ++ '-' :: ([] ++ s ++ after) := by simp
      rw [htext, hasOnlyTerms_append_cons rfl, hasOnlyTerms_of_isSpace hbefore, Bool.true_and]
      exact ih (by simp) hafter
  | single term ih => exact ih hbefore hafter
  | @operation first front back second op left hfront hop hback right hcomment ihleft ihright =>
      have htext : before ++ (first ++ (front ++ op :: (back ++ second))) ++ after =
          before ++ first ++ front ++ op :: (back ++ second ++ after) := by
        simp
      rw [htext, hasOnlyTerms_append_cons (separatesTerms_of_isArithmetic hop), Bool.and_eq_true,
        ihleft hbefore hfront, ihright hback hafter]
      simp only [Derivation.leaves, List.mem_append]
      constructor
      · rintro ⟨hleft, hright⟩ leaf (hleaf | hleaf)
        · exact hleft leaf hleaf
        · exact hright leaf hleaf
      · intro h
        exact ⟨fun leaf hleaf => h leaf (.inl hleaf), fun leaf hleaf => h leaf (.inr hleaf)⟩

/-- Only a minus sign at the front of a sum is left out when signs are looked for. -/
theorem any_isArithmetic_dropMinus {s : List Char} (h : Derives .sum s) :
    (dropMinus s).any isArithmetic = s.tail.any isArithmetic := by
  obtain ⟨c, t, rfl⟩ := List.exists_cons_of_ne_nil h.ne_nil
  by_cases hminus : c = '-'
  · subst hminus
    rfl
  · have hsign : isArithmetic c = false :=
      of_beginsOperand (p := fun c => c ≠ '-' → isArithmetic c = false) (by decide)
        (h.beginsOperand_of_head? rfl) hminus
    rw [dropMinus_of_head_ne (by simpa using hminus)]
    simp [hsign]

theorem hasOnlyTerms_dropMinus (s : List Char) : hasOnlyTerms (dropMinus s) = hasOnlyTerms s := by
  cases s with
  | nil => rfl
  | cons c s =>
      by_cases hminus : c = '-'
      · subst hminus
        have hcons := hasOnlyTerms_append_cons (c := '-') rfl [] s
        rw [List.nil_append] at hcons
        rw [hcons]
        rfl
      · rw [dropMinus_of_head_ne (by simpa using hminus)]

/-- The test of the text agrees with every derivation of it. -/
theorem isSum_iff_isCalculation {s : List Char} (derivation : Derivation .sum s) :
    isSum s = true ↔ derivation.IsCalculation := by
  have hleaves : hasOnlyTerms ([] ++ s ++ []) = true ↔
      ∀ leaf ∈ derivation.leaves, Derivation.IsTermLeaf leaf :=
    hasOnlyTerms_iff_leaves derivation (by simp) (by simp)
  rw [List.nil_append, List.append_nil] at hleaves
  rw [isSum_eq, Bool.and_eq_true, hasOnlyTerms_dropMinus, hleaves,
    any_isArithmetic_dropMinus derivation.derives, derivation.any_isArithmetic_tail_iff]
  constructor
  · rintro ⟨hoperates, hall⟩
    exact ⟨hall, hoperates⟩
  · rintro ⟨hall, hoperates⟩
    exact ⟨hoperates, hall⟩

/-! ### The four ways to write an operand -/

/-- The quantity is the one that the operand stands for, told from how the operand is written. -/
inductive IsMeantBy : Quantity → List Char → Prop
  | literal {s : List Char} (hs : IsNumber s) (hlow : -9223372036854775808 ≤ integerOfDigits s)
      (hhigh : integerOfDigits s ≤ 9223372036854775807) :
      IsMeantBy (.literal (integerOfDigits s)) s
  | saidNumber {s : List Char} (hs : sameLetters s "%number".toList = true) :
      IsMeantBy .saidNumber s
  | inside {name body : List Char} (hname : sameLetters name "expr".toList = true)
      (hbody : trim body ≠ []) :
      IsMeantBy (.expression (String.ofList (trim body))) (name ++ '(' :: (body ++ [')']))
  | asWritten {s : List Char} (derivation : Derivation .sum s) (hs : derivation.IsCalculation) :
      IsMeantBy (.expression (String.ofList s)) s

theorem isNumber_iff_dropMinus {s : List Char} :
    IsNumber s ↔ dropMinus s ≠ [] ∧ ∀ c ∈ dropMinus s, c.isDigit = true := by
  have hdigits : ∀ {t : List Char}, IsDigits t ↔ t ≠ [] ∧ ∀ c ∈ t, c.isDigit = true := by
    intro t
    constructor
    · intro ht
      refine ⟨ht.ne_nil, ?_⟩
      obtain ⟨hc, ht⟩ := ht
      simpa [hc] using ht
    · rintro ⟨hne, hall⟩
      obtain ⟨c, t, rfl⟩ := List.exists_cons_of_ne_nil hne
      exact .intro (hall c (by simp)) fun d hd => hall d (by simp [hd])
  rw [← hdigits]
  constructor
  · intro hs
    cases hs with
    | plain hs => rwa [dropMinus_of_head_ne (hs.head_ne (by decide))]
    | negative hs => exact hs
  · intro hs
    by_cases hminus : s.head? = some '-'
    · obtain ⟨t, rfl⟩ := List.head?_eq_some_iff.mp hminus
      exact .negative hs
    · rw [dropMinus_of_head_ne hminus] at hs
      exact .plain hs

theorem literalOfText?_eq_some_iff {s : List Char} {value : Int} :
    literalOfText? s = some value ↔ IsNumber s ∧
      (-9223372036854775808 ≤ integerOfDigits s ∧ integerOfDigits s ≤ 9223372036854775807) ∧
      integerOfDigits s = value := by
  rw [isNumber_iff_dropMinus]
  simp only [literalOfText?, isLiteral, Option.ite_none_right_eq_some, Bool.and_eq_true,
    List.all_eq_true, decide_eq_true_eq, Option.some.injEq, and_assoc, Bool.not_eq_true',
    List.isEmpty_eq_false_iff]

theorem expressionBody?_eq_some_iff {s body : List Char} :
    expressionBody? s = some body ↔
      ∃ name, sameLetters name "expr".toList = true ∧ s = name ++ '(' :: (body ++ [')']) := by
  simp only [expressionBody?, Option.ite_none_right_eq_some, Bool.and_eq_true, decide_eq_true_eq,
    Option.some.injEq]
  constructor
  · rintro ⟨⟨hbegin, hlast⟩, rfl⟩
    obtain ⟨name, inside, rfl, hname⟩ := Operand.cut_expr hbegin
    obtain ⟨hlength, -⟩ := Operand.name_eq hname
    have hne : inside ≠ [] := by
      rintro rfl
      simp at hlast
    have hlast : inside.getLast? = some ')' := by
      rw [List.getLast?_append_of_ne_nil _ (by simp), List.getLast?_cons_of_ne_nil hne] at hlast
      exact hlast
    obtain ⟨body, rfl⟩ := List.getLast?_eq_some_iff.mp hlast
    have hdrop : (name ++ '(' :: (body ++ [')'])).drop 5 = body ++ [')'] := by
      rw [List.drop_append, hlength, List.drop_of_length_le (by omega)]
      rfl
    refine ⟨name, hname, ?_⟩
    rw [hdrop, List.dropLast_concat]
  · rintro ⟨name, hname, rfl⟩
    obtain ⟨hlength, -⟩ := Operand.name_eq hname
    have htake : (name ++ '(' :: (body ++ [')'])).take 5 = name ++ ['('] := by
      rw [List.take_append, hlength, List.take_of_length_le (by omega)]
      rfl
    have hdrop : (name ++ '(' :: (body ++ [')'])).drop 5 = body ++ [')'] := by
      rw [List.drop_append, hlength, List.drop_of_length_le (by omega)]
      rfl
    refine ⟨⟨?_, ?_⟩, ?_⟩
    · rw [htake, sameLetters_iff, lower, List.map_append, ← lower, sameLetters_iff.mp hname]
      rfl
    · rw [← List.cons_append, ← List.append_assoc, List.getLast?_concat]
    · rw [hdrop, List.dropLast_concat]

section Forms

variable {s : List Char}

/-- No text of the form `expr(…)` is a sum. -/
theorem expressionBody?_eq_none (hs : Derives .sum s) : expressionBody? s = none := by
  refine Option.eq_none_iff_forall_ne_some.mpr fun body hbody => ?_
  obtain ⟨name, hname, rfl⟩ := expressionBody?_eq_some_iff.mp hbody
  have hword := isWord_of_name hname
  have hbegins : (name ++ '(' :: (body ++ [')'])).head?.any beginsWord = true := by
    rw [List.head?_append_of_ne_nil _ hword.ne_nil]
    exact hword.beginsWord_head?
  apply hs.head?_dropWhile_ne hbegins
  rw [List.dropWhile_append_of_pos hword.continuesWord]
  rfl

theorem literalOfText?_eq_none {c : Char} (hc : c ∈ s.tail) (hdigit : c.isDigit = false) :
    literalOfText? s = none := by
  refine Option.eq_none_iff_forall_ne_some.mpr fun value hvalue => ?_
  obtain ⟨hs, -⟩ := literalOfText?_eq_some_iff.mp hvalue
  have hall : ∀ d ∈ s.tail, d.isDigit = true := by
    cases hs with
    | plain hs =>
        obtain ⟨-, hs⟩ := hs
        exact hs
    | negative hs =>
        obtain ⟨hd, hs⟩ := hs
        simpa [hd] using hs
  rw [hall c hc] at hdigit
  cases hdigit

/-- A text that differs from another one in letter case only has no characters of other classes. -/
theorem sameLetters_eq_false {p : Char → Bool} (hp : ∀ c : Char, p c.toLower = p c) {c : Char}
    (hc : c ∈ s) (hpc : p c = true) {t : List Char} (ht : (lower t).any p = false) :
    sameLetters s t = false := by
  rw [Bool.eq_false_iff]
  intro hsame
  rw [← sameLetters_iff.mp hsame, ← Bool.not_eq_true, List.any_eq_true] at ht
  refine ht ⟨c.toLower, List.mem_map_of_mem hc, ?_⟩
  rw [hp, hpc]

theorem literalOfText?_of_percent (hs : sameLetters s "%number".toList = true) :
    literalOfText? s = none := by
  have hlower := sameLetters_iff.mp hs
  obtain ⟨c, hc, hletter⟩ : ∃ c ∈ s.tail, c.toLower = 'n' := by
    have hmem : 'n' ∈ (lower s).tail := by
      rw [hlower]
      decide
    rw [lower, ← List.map_tail] at hmem
    exact List.mem_map.mp hmem
  have hdigit : c.toLower.isDigit = c.isDigit := apply_toLower (by decide) c
  rw [hletter] at hdigit
  exact literalOfText?_eq_none hc hdigit.symm

/-- The reader finds what is meant, and nothing where nothing is. -/
theorem ofOperand?_eq_some_iff (h : Operand s) {quantity : Quantity} :
    ofOperand? s = some quantity ↔ quantity.IsMeantBy s := by
  rw [ofOperand?, trim_eq_self h.isTrimmed]
  constructor
  · intro hquantity
    -- In order: a literal, the number that was said, the inside of `expr(…)`, and a sum as written.
    split at hquantity
    · rename_i value hliteral
      obtain ⟨hs, ⟨hlow, hhigh⟩, rfl⟩ := literalOfText?_eq_some_iff.mp hliteral
      cases hquantity
      exact .literal hs hlow hhigh
    · split at hquantity
      · rename_i hsaid
        cases hquantity
        exact .saidNumber hsaid
      · split at hquantity
        · rename_i body hbody
          obtain ⟨name, hname, rfl⟩ := expressionBody?_eq_some_iff.mp hbody
          dsimp only at hquantity
          split at hquantity
          · cases hquantity
          · rename_i hne
            cases hquantity
            exact .inside hname (by simpa using hne)
        · rename_i hnone
          obtain ⟨hsum, hquantity⟩ := Option.ite_none_right_eq_some.mp hquantity
          cases hquantity
          cases h with
          | expr hname hbody =>
              rw [expressionBody?_eq_some_iff.mpr ⟨_, hname, rfl⟩] at hnone
              cases hnone
          | sum hs =>
              obtain ⟨derivation⟩ := nonempty_derivation_iff.mpr hs
              exact .asWritten derivation ((isSum_iff_isCalculation derivation).mp hsum)
  · intro hmeant
    cases hmeant with
    | literal hs hlow hhigh => rw [literalOfText?_eq_some_iff.mpr ⟨hs, ⟨hlow, hhigh⟩, rfl⟩]
    | saidNumber hs => rw [literalOfText?_of_percent hs, hs, if_pos rfl]
    | @inside name body hname hbody =>
        have hopen : '(' ∈ (name ++ '(' :: (body ++ [')'])).tail := by
          rw [List.tail_append_of_ne_nil (isWord_of_name hname).ne_nil]
          simp
        have hclass := apply_toLower (p := (· == '(')) (by decide)
        have hsaid := sameLetters_eq_false (p := (· == '(')) hclass
          (List.mem_of_mem_tail hopen) rfl (t := "%number".toList) (by decide)
        rw [literalOfText?_eq_none hopen rfl, hsaid,
          expressionBody?_eq_some_iff.mpr ⟨name, hname, rfl⟩]
        simp [hbody]
    | asWritten derivation hs =>
        obtain ⟨c, hc, hsign⟩ :=
          List.any_eq_true.mp (derivation.any_isArithmetic_tail_iff.mpr hs.operates)
        have hdigit : c.isDigit = false := by
          rw [Bool.eq_false_iff]
          intro hdigit
          have hword := not_continuesWord_of_isArithmetic hsign
          rw [continuesWord_of_isDigit hdigit] at hword
          cases hword
        have hclass := apply_toLower (p := isArithmetic) (by decide)
        have hsaid := sameLetters_eq_false hclass (List.mem_of_mem_tail hc) hsign
          (t := "%number".toList) (by decide)
        rw [literalOfText?_eq_none hc hdigit, hsaid, expressionBody?_eq_none derivation.derives,
          (isSum_iff_isCalculation derivation).mpr hs]
        rfl

end Forms

/-- An operand is read as the quantity that it stands for, and as a malformed number, quoted as it
is written, where it stands for none. Whether a sum is kept as it is written does not depend on
which derivation of it is looked at. -/
theorem read_operand_iff {operand : List Char} (h : operandLexer operand = some [])
    (field : String) (column : Nat) :
    (∀ quantity : Quantity,
      read field column operand = .ok quantity ↔ quantity.IsMeantBy operand) ∧
    (∀ issue, read field column operand = .error issue ↔
      issue = .atColumn column (.malformedNumber field (String.ofList operand)) ∧
        ∀ quantity : Quantity, ¬ quantity.IsMeantBy operand) ∧
    (∀ derivation : Derivation .sum operand,
      (expression (String.ofList operand)).IsMeantBy operand ↔ derivation.IsCalculation) := by
  have hoperand := Operand.iff_operandLexer.mpr h
  have hfound {quantity : Quantity} :
      ofOperand? operand = some quantity ↔ quantity.IsMeantBy operand :=
    ofOperand?_eq_some_iff hoperand
  refine ⟨fun quantity => ?_, fun issue => ?_, fun derivation => ?_⟩
  · rw [← hfound, read]
    cases ofOperand? operand <;> simp
  · simp only [← hfound, read, trim_eq_self hoperand.isTrimmed]
    cases ofOperand? operand <;> simp [eq_comm]
  · constructor
    · intro hmeant
      generalize hsame : expression (String.ofList operand) = quantity at hmeant
      cases hmeant with
      | literal | saidNumber => cases hsame
      | inside hname hbody =>
          have hnone := expressionBody?_eq_none derivation.derives
          rw [expressionBody?_eq_some_iff.mpr ⟨_, hname, rfl⟩] at hnone
          cases hnone
      | asWritten other hother =>
          have hsum := (isSum_iff_isCalculation other).mpr hother
          exact (isSum_iff_isCalculation derivation).mp hsum
    · exact .asWritten derivation

/-- A sum in parentheses behind a sign is kept, and a number of too many digits is refused. -/
theorem read_operand_iff_sum :
    operandLexer "-(%A + 2) * 3".toList = some [] ∧
      (expression "-(%A + 2) * 3").IsMeantBy "-(%A + 2) * 3".toList ∧
      operandLexer "9223372036854775808".toList = some [] ∧
      ∀ quantity : Quantity, ¬ quantity.IsMeantBy "9223372036854775808".toList := by
  have hsum : operandLexer "-(%A + 2) * 3".toList = some [] := by decide +kernel
  have hlarge : operandLexer "9223372036854775808".toList = some [] := by decide +kernel
  refine ⟨hsum, ?_, hlarge, ?_⟩
  · exact ((read_operand_iff hsum "value" 1).1 _).mp (by decide +kernel)
  · exact (((read_operand_iff hlarge "value" 1).2.1
      (.atColumn 1 (.malformedNumber "value" "9223372036854775808"))).mp (by decide +kernel)).2

end Quantity

end NpcScript
