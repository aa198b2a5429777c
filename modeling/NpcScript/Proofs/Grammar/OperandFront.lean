import NpcScript.Proofs.Grammar.Layout
import NpcScript.Proofs.Grammar.Operand

/-!
Operands at the front of a text. The lexer for sums takes up every sum of the grammar whole, and
goes on with the operations behind it for as long as there are any; so an operand is taken up
exactly where what follows does not continue it.
-/

namespace NpcScript.Grammar

open Text
open Reader (isGap)

/-! ### The lexer for sums without its bound -/

section Congruence

variable {inner inner' : Lexer} {s : List Char}

theorem length_skipSpaces_le (s : List Char) : (skipSpaces s).length ≤ s.length :=
  (List.dropWhile_sublist _).length_le

theorem atomLexer_congr (h : ∀ t : List Char, t.length < s.length → inner t = inner' t) :
    atomLexer inner s = atomLexer inner' s := by
  unfold atomLexer
  split
  · rename_i rest
    have hlength := length_skipSpaces_le rest
    rw [h (skipSpaces rest) (by simp only [List.length_cons]; omega)]
  · rfl
  · rfl

theorem termLexer_congr (h : ∀ t : List Char, t.length < s.length → inner t = inner' t) :
    termLexer inner s = termLexer inner' s := by
  unfold termLexer
  split
  · rename_i rest
    exact atomLexer_congr fun t ht => h t (by simp only [List.length_cons]; omega)
  · exact atomLexer_congr h

theorem operationLexer_congr (h : ∀ t : List Char, t.length < s.length → inner t = inner' t) :
    operationLexer inner s = operationLexer inner' s := by
  have hlength := length_skipSpaces_le s
  simp only [operationLexer]
  split
  · rfl
  · rename_i c rest hcomment hskip
    rw [hskip, List.length_cons] at hlength
    have hrest := length_skipSpaces_le rest
    rw [termLexer_congr fun t ht => h t (by omega)]
  · rfl

theorem skipAll_congr {unit unit' : Lexer}
    (h : ∀ t : List Char, t.length ≤ s.length → unit t = unit' t) :
    skipAll unit s = skipAll unit' s := by
  fun_induction skipAll unit s with
  | case1 s hnone => rw [skipAll, ← h s le_rfl, hnone]
  | case2 s rest hsome hlt ih =>
      rw [ih fun t ht => h t (by omega)]
      conv_rhs => rw [skipAll, ← h s le_rfl, hsome]
      simp [hlt]
  | case3 s rest hsome hge =>
      rw [skipAll, ← h s le_rfl, hsome]
      simp [hge]

end Congruence

/-- Sums in parentheses are sums like any other: the bound on their length never shows. -/
theorem sumLexer_eq (s : List Char) :
    sumLexer s = (termLexer sumLexer s).map (skipAll (operationLexer sumLexer)) := by
  have hbound : ∀ t : List Char, t.length < s.length →
      (if t.length < s.length then sumLexer t else none) = sumLexer t := fun t ht => if_pos ht
  rw [sumLexer, termLexer_congr hbound]
  refine Option.map_congr fun rest hrest => ?_
  obtain ⟨t, rfl, ht, -⟩ := termLexer_sound sumLexer_sound hrest
  have hpos : 0 < t.length := List.length_pos_iff.mpr ht.ne_nil
  refine skipAll_congr fun u hu => operationLexer_congr fun v hv => hbound v ?_
  rw [List.length_append]
  omega

theorem skipAll_of_none {unit : Lexer} {s : List Char} (h : unit s = none) :
    skipAll unit s = s := by
  rw [skipAll, h]

theorem skipAll_append {unit : Lexer} {s rest : List Char} (hs : s ≠ [])
    (h : unit (s ++ rest) = some rest) : skipAll unit (s ++ rest) = skipAll unit rest := by
  have hpos : 0 < s.length := List.length_pos_iff.mpr hs
  rw [skipAll, h]
  simp [hpos]

/-! ### Sums -/

theorem isArithmetic_ne_space {c : Char} (h : isArithmetic c = true) : isSpace c = false := by
  simp only [isArithmetic, Bool.or_eq_true, beq_iff_eq] at h
  rcases h with ((rfl | rfl) | rfl) | rfl <;> decide

theorem skipSpaces_append {spaces s : List Char} (hspaces : ∀ c ∈ spaces, isSpace c = true)
    (hs : Spares isSpace s) : skipSpaces (spaces ++ s) = s :=
  dropWhile_append_of_spares hspaces hs

theorem spares_append_of_forall {p q : Char → Bool} {s t : List Char}
    (hs : ∀ c ∈ s, q c = true) (hpq : ∀ c, q c = true → p c = false) (ht : Spares p t) :
    Spares p (s ++ t) := by
  cases s with
  | nil => exact ht
  | cons c s => exact spares_cons_iff.mpr (hpq c (hs c (by simp)))

def beginsOperand (c : Char) : Bool :=
  continuesWord c || c == '%' || c == '(' || c == '-'

/-- To know something of all characters that begin operands, it is enough to try those below
128. -/
theorem of_beginsOperand {p : Char → Prop}
    (hall : ∀ n < 128, beginsOperand (Char.ofNat n) = true → p (Char.ofNat n)) {c : Char}
    (h : beginsOperand c = true) : p c := by
  have hsmall : c.toNat < 128 := by
    simp only [beginsOperand, Bool.or_eq_true, beq_iff_eq] at h
    rcases h with ((hword | rfl) | rfl) | rfl
    · exact toNat_lt_of_continuesWord hword
    · decide
    · decide
    · decide
  have hc := hall c.toNat hsmall
  rw [Char.ofNat_toNat] at hc
  exact hc h

namespace Derives

variable {part : SumPart} {s : List Char}

theorem beginsOperand_of_head? (h : Derives part s) {c : Char} (hc : s.head? = some c) :
    beginsOperand c = true := by
  have hword {s : List Char} (hs : ∀ d ∈ s, continuesWord d = true) (hc : s.head? = some c) :
      beginsOperand c = true := by
    simp [beginsOperand, hs c (List.mem_of_mem_head? hc)]
  induction h with
  | digits hs => exact hword hs.continuesWord hc
  | word hs => exact hword hs.continuesWord hc
  | percent hs =>
      cases hc
      rfl
  | group hbefore hinner hafter ih =>
      cases hc
      rfl
  | plain hs ih => exact ih hc
  | negative hs ih =>
      cases hc
      rfl
  | single hs ih => exact ih hc
  | operation hfirst hbefore hop hafter hsecond hcomment ihfirst ihsecond =>
      rw [List.head?_append_of_ne_nil _ hfirst.ne_nil] at hc
      exact ihfirst hc

/-- No space stands at the front of a part of a sum. -/
theorem spares_isSpace (h : Derives part s) (rest : List Char) : Spares isSpace (s ++ rest) := by
  have hfront : Spares isSpace s := fun c hc =>
    of_beginsOperand (p := fun c => isSpace c = false) (by decide) (h.beginsOperand_of_head? hc)
  exact hfront.append h.ne_nil rest

theorem head_ne_minus (h : Derives .atom s) : s.head? ≠ some '-' := by
  cases h with
  | digits hs => exact hs.head_ne (by decide)
  | word hs =>
      obtain ⟨hc, -⟩ := hs
      rintro ⟨⟩
      cases hc
  | percent hs => simp
  | group hbefore hinner hafter => simp

end Derives

def SumPart.lexer : SumPart → Lexer
  | atom => atomLexer sumLexer
  | term => termLexer sumLexer
  | sum => sumLexer

/-- What is left of a text behind a part of a sum: behind a whole sum, the operations that follow
are taken up as well. -/
def SumPart.behind : SumPart → List Char → List Char
  | atom, rest | term, rest => rest
  | sum, rest => skipAll (operationLexer sumLexer) rest

theorem atomLexer_of_spares {inner : Lexer} {s : List Char} (hopen : s.head? ≠ some '(')
    (hpercent : s.head? ≠ some '%') :
    atomLexer inner s = (digitsLexer s).or (wordLexer s) := by
  unfold atomLexer
  split
  · exact absurd rfl hopen
  · exact absurd rfl hpercent
  · rfl

theorem termLexer_of_head_ne {inner : Lexer} {s : List Char} (h : s.head? ≠ some '-') :
    termLexer inner s = atomLexer inner s := by
  unfold termLexer
  split
  · exact absurd rfl h
  · rfl

theorem operationLexer_of_comment {inner : Lexer} {s : List Char}
    (h : ['-', '-'] <+: skipSpaces s) : operationLexer inner s = none := by
  obtain ⟨rest, hrest⟩ := h
  simp [operationLexer, ← hrest]

theorem operationLexer_of_skipSpaces {inner : Lexer} {s rest : List Char} {c : Char}
    (hskip : skipSpaces s = c :: rest) (hcomment : ¬ ['-', '-'] <+: c :: rest) :
    operationLexer inner s =
      if isArithmetic c then termLexer inner (skipSpaces rest) else none := by
  simp only [operationLexer, hskip]
  split
  · rename_i behind heq
    exact absurd ⟨behind, heq.symm⟩ hcomment
  · rename_i heq
    cases heq
    rfl
  · rename_i heq
    cases heq

theorem spares_of_head_ne {p : Char → Bool} {c : Char} {s : List Char} (hp : p c = false)
    (hs : s.head? = some c) : Spares p s := by
  intro d hd
  obtain rfl : c = d := by simpa [hs] using hd
  exact hp

/-- An operator and a term are taken up as one operation. -/
theorem operationLexer_append {inner : Lexer} {before after second rest : List Char} {op : Char}
    (hbefore : ∀ c ∈ before, isSpace c = true) (hop : isArithmetic op = true)
    (hafter : ∀ c ∈ after, isSpace c = true) (hsecond : Derives .term second)
    (hcomment : ¬ ['-', '-'] <+: op :: (after ++ second))
    (hterm : termLexer inner (second ++ rest) = some rest) :
    operationLexer inner (before ++ op :: (after ++ second) ++ rest) = some rest := by
  have hskip : skipSpaces (before ++ op :: (after ++ second) ++ rest) =
      op :: (after ++ second ++ rest) := by
    rw [List.append_assoc]
    exact skipSpaces_append hbefore (spares_cons_iff.mpr (isArithmetic_ne_space hop))
  have hcomment' : ¬ ['-', '-'] <+: op :: (after ++ second ++ rest) := by
    -- Two minus signs in front would already stand in the text of the operation.
    rintro ⟨behind, heq⟩
    obtain ⟨d, u, hu⟩ := List.exists_cons_of_ne_nil
      (List.append_ne_nil_of_right_ne_nil after hsecond.ne_nil)
    obtain ⟨rfl, rfl, -⟩ : '-' = op ∧ '-' = d ∧ behind = u ++ rest := by simpa [hu] using heq
    exact hcomment ⟨u, by rw [hu]; rfl⟩
  rw [operationLexer_of_skipSpaces hskip hcomment', if_pos hop, List.append_assoc,
    skipSpaces_append hafter (hsecond.spares_isSpace rest)]
  exact hterm

/-- Every part of a sum is taken up whole if its last word or number does not go on behind it. -/
theorem Derives.lexer_append {part : SumPart} {s rest : List Char} (h : Derives part s)
    (hrest : Stops s rest) : part.lexer (s ++ rest) = some (part.behind rest) := by
  induction h generalizing rest with
  | @digits s hs =>
      have hhead : ∀ c : Char, c.isDigit = false → (s ++ rest).head? ≠ some c := by
        intro c hc
        rw [List.head?_append_of_ne_nil _ hs.ne_nil]
        exact hs.head_ne hc
      show atomLexer sumLexer _ = some rest
      rw [atomLexer_of_spares (hhead '(' (by decide)) (hhead '%' (by decide)),
        digitsLexer_append hs (hrest.digits (t := []) rfl hs)]
      rfl
  | @word s hs =>
      have hhead : ∀ c : Char, beginsWord c = false → (s ++ rest).head? ≠ some c := by
        intro c hc
        rw [List.head?_append_of_ne_nil _ hs.ne_nil]
        exact hs.head_ne hc
      show atomLexer sumLexer _ = some rest
      rw [atomLexer_of_spares (hhead '(' (by decide)) (hhead '%' (by decide)),
        digitsLexer_eq_none (hs.spares_isDigit.append hs.ne_nil rest),
        wordLexer_append hs (hrest.word (t := []) rfl hs)]
      rfl
  | percent hs => exact wordLexer_append hs (hrest.word (t := ['%']) rfl hs)
  | @group before inner after hbefore hinner hafter ih =>
      have hclose : Spares continuesWord (after ++ ')' :: rest) :=
        spares_append_of_forall hafter (fun c => not_continuesWord_of_isSpace)
          (spares_cons_iff.mpr (by decide))
      have hskip : skipSpaces (after ++ ')' :: rest) = ')' :: rest :=
        skipSpaces_append hafter (spares_cons_iff.mpr (by decide))
      have hstop : operationLexer sumLexer (after ++ ')' :: rest) = none := by
        simp only [operationLexer, hskip]
        rfl
      have hsum : sumLexer (inner ++ (after ++ ')' :: rest)) = some (after ++ ')' :: rest) := by
        have hall := ih (hclose.stops inner)
        rw [SumPart.behind, skipAll_of_none hstop] at hall
        exact hall
      have hinside : skipSpaces (before ++ (inner ++ (after ++ ')' :: rest))) =
          inner ++ (after ++ ')' :: rest) :=
        skipSpaces_append hbefore (hinner.spares_isSpace _)
      show atomLexer sumLexer ('(' :: (before ++ inner ++ after ++ [')']) ++ rest) = some rest
      simp only [List.cons_append, List.append_assoc, List.nil_append, atomLexer, hinside, hsum,
        hskip]
  | plain hs ih =>
      show termLexer sumLexer _ = some rest
      rw [termLexer_of_head_ne]
      · exact ih hrest
      · rw [List.head?_append_of_ne_nil _ hs.ne_nil]
        exact hs.head_ne_minus
  | negative hs ih => exact ih (hrest.of_append (t := ['-']))
  | single hs ih =>
      have hterm : termLexer sumLexer (_ ++ rest) = some rest := ih hrest
      show sumLexer _ = _
      rw [sumLexer_eq, hterm]
      rfl
  | @operation first before after second op hfirst hbefore hop hafter hsecond hcomment ihfirst
      ihsecond =>
      have hterm : termLexer sumLexer (second ++ rest) = some rest := by
        refine ihsecond (Stops.of_append (t := first ++ (before ++ op :: after)) ?_)
        simpa using hrest
      have hoperation := operationLexer_append hbefore hop hafter hsecond hcomment hterm
      have hspares : Spares continuesWord (before ++ op :: (after ++ second) ++ rest) := by
        rw [List.append_assoc]
        exact spares_append_of_forall hbefore (fun c => not_continuesWord_of_isSpace)
          (spares_cons_iff.mpr (not_continuesWord_of_isArithmetic hop))
      have hsum : sumLexer (first ++ (before ++ op :: (after ++ second) ++ rest)) = _ :=
        ihfirst (hspares.stops first)
      show sumLexer _ = some (skipAll (operationLexer sumLexer) rest)
      rw [List.append_assoc, hsum, SumPart.behind, skipAll_append (by simp) hoperation]

/-! ### Operands -/

theorem closingParenthesisLexer_append {depth : Nat} {body : List Char}
    (h : nesting depth body = some 0) (rest : List Char) :
    closingParenthesisLexer depth (body ++ ')' :: rest) = some rest := by
  induction body generalizing depth with
  | nil =>
      obtain rfl : depth = 0 := by simpa using h
      rfl
  | cons c body ih =>
      by_cases hopen : c = '('
      · subst hopen
        exact ih h
      · by_cases hclose : c = ')'
        · subst hclose
          cases depth with
          | zero => cases h
          | succ depth => exact ih h
        · rw [nesting_cons_of_ne hopen hclose] at h
          rw [List.cons_append, closingParenthesisLexer.eq_def]
          split <;> simp_all

theorem exprLexer_append {name body : List Char}
    (hname : sameLetters name "expr".toList = true) (hbody : IsBalanced body)
    (rest : List Char) :
    exprLexer (name ++ '(' :: (body ++ [')']) ++ rest) = some rest := by
  obtain ⟨hlength, -⟩ := Operand.name_eq hname
  have hcut : name ++ '(' :: (body ++ [')']) ++ rest = name ++ '(' :: (body ++ ')' :: rest) := by
    simp
  have hdrop : (name ++ '(' :: (body ++ ')' :: rest)).drop 4 = '(' :: (body ++ ')' :: rest) := by
    rw [← hlength, List.drop_left]
  have htake : (name ++ '(' :: (body ++ ')' :: rest)).take 4 = name := by
    rw [← hlength, List.take_left]
  simp only [exprLexer, hcut, hdrop, htake, hname, if_true]
  exact closingParenthesisLexer_append hbody rest

/-! ### Where pieces begin and end -/

/-- The text begins as the pieces of a line do that stand between separators. -/
inductive StartsPiece : List Char → Prop
  | quote (s : List Char) : StartsPiece ('"' :: s)
  | operand {c : Char} (hc : beginsOperand c = true) (s : List Char) : StartsPiece (c :: s)

namespace StartsPiece

variable {s : List Char}

theorem ne_nil (h : StartsPiece s) : s ≠ [] := by
  cases h with
  | quote s => simp
  | operand hc s => simp

theorem append (h : StartsPiece s) (rest : List Char) : StartsPiece (s ++ rest) := by
  cases h with
  | quote s => exact .quote (s ++ rest)
  | operand hc s => exact .operand hc (s ++ rest)

theorem exists_not_isGap (h : StartsPiece s) : ∃ c ∈ s, isGap c = false := by
  cases h with
  | quote s => exact ⟨'"', by simp, by decide⟩
  | @operand c hc s =>
      exact ⟨c, by simp, of_beginsOperand (p := fun c => isGap c = false) (by decide) hc⟩

theorem spares_isGap (h : StartsPiece s) : Spares isGap s := by
  cases h with
  | quote s => exact spares_cons_iff.mpr (by decide)
  | operand hc s =>
      exact spares_cons_iff.mpr (of_beginsOperand (p := fun c => isGap c = false) (by decide) hc)

theorem head_ne {c : Char} (h : StartsPiece s) (hquote : c ≠ '"')
    (hoperand : beginsOperand c = false) : s.head? ≠ some c := by
  cases h with
  | quote s => simpa using hquote.symm
  | operand hc s =>
      rintro ⟨⟩
      rw [hoperand] at hc
      cases hc

end StartsPiece

section Lexemes

variable {s : List Char}

theorem IsLiteral.startsPiece (h : IsLiteral s) : StartsPiece s := by
  obtain ⟨text, ⟨hbody⟩⟩ := h
  exact .quote _

theorem IsWord.startsPiece (h : IsWord s) : StartsPiece s := by
  obtain ⟨hc, hs⟩ := h
  exact .operand (by simp [beginsOperand, continuesWord_of_beginsWord hc]) _

theorem IsNumber.startsPiece (h : IsNumber s) : StartsPiece s := by
  cases h with
  | plain hs =>
      obtain ⟨hc, hs⟩ := hs
      exact .operand (by simp [beginsOperand, continuesWord_of_isDigit hc]) _
  | negative hs => exact .operand rfl _

theorem IsKeyword.startsPiece (h : IsKeyword s) : StartsPiece s := by
  cases h with
  | plain hs => exact hs.startsPiece
  | percent hs => exact .operand rfl _

end Lexemes

theorem isGap_of_isSpace {c : Char} (h : isSpace c = true) : isGap c = true := by
  simp only [isGap, isSpace, Bool.or_eq_true] at h ⊢
  exact .inl h

theorem not_isGap_of_continuesWord {c : Char} (h : continuesWord c = true) :
    isGap c = false :=
  of_continuesWord (p := fun c => isGap c = false) (by decide) h

theorem dropWhile_isGap_skipSpaces (s : List Char) :
    (skipSpaces s).dropWhile isGap = s.dropWhile isGap := by
  induction s with
  | nil => rfl
  | cons c s ih =>
      by_cases hspace : isSpace c = true
      · rw [skipSpaces, List.dropWhile_cons_of_pos hspace,
          List.dropWhile_cons_of_pos (isGap_of_isSpace hspace)]
        exact ih
      · rw [skipSpaces, List.dropWhile_cons_of_neg hspace]

theorem operationLexer_eq_none_of_spares {inner : Lexer} {s : List Char}
    (h : Spares isArithmetic (skipSpaces s)) : operationLexer inner s = none := by
  simp only [operationLexer]
  split
  · rfl
  · rename_i c behind hcomment hskip
    rw [hskip, spares_cons_iff] at h
    simp [h]
  · rfl

theorem skipSpaces_skipSpaces (s : List Char) : skipSpaces (skipSpaces s) = skipSpaces s :=
  dropWhile_append_of_spares (s := []) (by simp) (spares_dropWhile isSpace s)

/-- Spaces in front of an operation do not matter. -/
theorem operationLexer_skipSpaces (inner : Lexer) (s : List Char) :
    operationLexer inner (skipSpaces s) = operationLexer inner s := by
  simp only [operationLexer, skipSpaces_skipSpaces]

theorem IsNext.operationLexer_eq_none {s : List Char} (h : IsNext s) (inner : Lexer) :
    operationLexer inner s = none := by
  cases h with
  | nothing | arrow | comment | comma | closing | literal | percent => rfl
  | @word c hc s =>
      have hword := continuesWord_of_beginsWord hc
      have hspace : isSpace c = false := by
        rw [Bool.eq_false_iff]
        intro hspace
        rw [not_continuesWord_of_isSpace hspace] at hword
        cases hword
      refine operationLexer_eq_none_of_spares ?_
      rw [skipSpaces, List.dropWhile_cons_of_neg (by simp [hspace]), spares_cons_iff,
        Bool.eq_false_iff]
      intro harithmetic
      rw [not_continuesWord_of_isArithmetic harithmetic] at hword
      cases hword

theorem IsKeyword.isNext {s : List Char} (h : IsKeyword s) (rest : List Char) :
    IsNext (s ++ rest) := by
  cases h with
  | plain hs =>
      obtain ⟨hc, hs⟩ := hs
      exact .word hc _
  | percent hs => exact .percent _

theorem IsNext.spares_isGap {s : List Char} (h : IsNext s) : Spares isGap s := by
  cases h with
  | nothing => exact spares_nil
  | comma | closing | arrow | comment | literal | percent => exact spares_cons_iff.mpr (by decide)
  | word hc s =>
      exact spares_cons_iff.mpr (not_isGap_of_continuesWord (continuesWord_of_beginsWord hc))

theorem not_continuesWord_of_isGap {c : Char} (h : isGap c = true) : continuesWord c = false := by
  rw [Bool.eq_false_iff]
  intro hc
  rw [not_isGap_of_continuesWord hc] at h
  cases h

/-- Blanks may stand between a piece and what follows it. -/
theorem IsNext.endsPiece {gap s : List Char} (h : IsNext s) (hgap : IsGap gap)
    (hword : gap ≠ [] ∨ Spares continuesWord s) : EndsPiece (gap ++ s) := by
  refine ⟨?_, ?_⟩
  · cases gap with
    | nil => exact hword.resolve_left (by simp)
    | cons c gap => exact spares_cons_iff.mpr (not_continuesWord_of_isGap (hgap c (by simp)))
  · rw [dropWhile_append_of_spares hgap h.spares_isGap]
    exact h

theorem IsMark.endsPiece {sep : List Char} (h : IsMark ',' sep) (s : List Char) :
    EndsPiece (sep ++ s) := by
  obtain ⟨hbefore, hafter⟩ := h
  rw [List.append_assoc, List.cons_append]
  exact (IsNext.comma _).endsPiece hbefore (.inr (spares_cons_iff.mpr (by decide)))

theorem IsEnding.endsPiece {s : List Char} (h : IsEnding s) : EndsPiece s := by
  cases h with
  | blank hgap =>
      have hends := IsNext.nothing.endsPiece hgap (.inr spares_nil)
      simpa using hends
  | comment hgap text =>
      exact (IsNext.comment text).endsPiece hgap (.inr (spares_cons_iff.mpr (by decide)))

theorem IsNext.operatorLexer_eq_none {s : List Char} (h : IsNext s) : operatorLexer s = none := by
  cases h with
  | nothing => rfl
  | comma | closing | literal | percent =>
      exact NpcScript.Grammar.operatorLexer_eq_none (spares_cons_iff.mpr (by decide))
  | arrow | comment => exact operatorLexer_cons_eq_none (by decide) (by decide)
  | @word c hc s =>
      refine NpcScript.Grammar.operatorLexer_eq_none (spares_cons_iff.mpr ?_)
      have hword := continuesWord_of_beginsWord hc
      exact of_continuesWord (p := fun c => beginsOperator c = false) (by decide) hword

theorem not_isGap_of_isArithmetic {c : Char} (h : isArithmetic c = true) : isGap c = false := by
  simp only [isArithmetic, Bool.or_eq_true, beq_iff_eq] at h
  rcases h with ((rfl | rfl) | rfl) | rfl <;> decide

theorem not_continuesWord_of_beginsOperator {c : Char} (h : beginsOperator c = true) :
    continuesWord c = false := by
  simp only [beginsOperator, Bool.or_eq_true, beq_iff_eq] at h
  rcases h with (((((rfl | rfl) | rfl) | rfl) | rfl) | rfl) | rfl <;> decide

theorem not_isGap_of_beginsOperator {c : Char} (h : beginsOperator c = true) :
    isGap c = false := by
  simp only [beginsOperator, Bool.or_eq_true, beq_iff_eq] at h
  rcases h with (((((rfl | rfl) | rfl) | rfl) | rfl) | rfl) | rfl <;> decide

/-- Behind the blanks at the end of a line there is nothing or a comment. -/
theorem IsEnding.dropWhile_eq {s : List Char} (h : IsEnding s) :
    s.dropWhile isGap = [] ∨ ∃ text, s.dropWhile isGap = '-' :: '-' :: text := by
  cases h with
  | blank hgap => exact .inl (List.dropWhile_eq_nil_iff.mpr hgap)
  | comment hgap text =>
      exact .inr ⟨text, dropWhile_append_of_spares hgap (spares_cons_iff.mpr (by decide))⟩

theorem IsEnding.head?_dropWhile_ne {s : List Char} (h : IsEnding s) :
    (s.dropWhile isGap).head? ≠ some ',' := by
  rcases h.dropWhile_eq with hs | ⟨text, hs⟩ <;> simp [hs]

theorem IsNext.head_ne_open {s : List Char} (h : IsNext s) : s.head? ≠ some '(' := by
  cases h with
  | word hc =>
      rintro ⟨⟩
      cases hc
  | _ => simp

section Behind

variable {rest : List Char} (h : IsNext (rest.dropWhile isGap))

include h

theorem head_ne_open_of_isNext : rest.head? ≠ some '(' := by
  intro hhead
  obtain ⟨s, rfl⟩ := List.head?_eq_some_iff.mp hhead
  have hnext : IsNext ('(' :: s) := h
  cases hnext with
  | word hc => cases hc

theorem operationLexer_eq_none_of_isNext (inner : Lexer) : operationLexer inner rest = none := by
  rw [← dropWhile_isGap_skipSpaces] at h
  have hskipped := skipSpaces_skipSpaces rest
  rw [← operationLexer_skipSpaces]
  cases hskip : skipSpaces rest with
  | nil => rfl
  | cons c s =>
      rw [hskip] at h hskipped
      by_cases hgap : isGap c = true
      · -- The only blank that is no space is a carriage return.
        have hspace : isSpace c = false := by
          have hspares := spares_dropWhile isSpace rest
          rw [← skipSpaces, hskip, spares_cons_iff] at hspares
          exact hspares
        obtain rfl : c = '\r' := by
          simp only [isGap, isSpace, Bool.or_eq_true, Bool.or_eq_false_iff, beq_iff_eq,
            beq_eq_false_iff_ne] at hgap hspace
          tauto
        rfl
      · rw [List.dropWhile_cons_of_neg hgap] at h
        exact h.operationLexer_eq_none inner

end Behind

/-- Where a word begins a sum, an operator is the next thing behind it, if anything is. -/
theorem Derives.exists_word {part : SumPart} {s : List Char} (h : Derives part s)
    (hs : s.head?.any beginsWord = true) :
    ∃ w t, s = w ++ t ∧ IsWord w ∧ (t = [] ∨ ∃ spaces op c u, t = spaces ++ op :: c :: u ∧
      (∀ d ∈ spaces, isSpace d = true) ∧ isArithmetic op = true ∧ c ≠ '=') := by
  induction h with
  | digits hs' =>
      obtain ⟨hc, -⟩ := hs'
      simp [not_beginsWord_of_isDigit hc] at hs
  | @word s hs' => exact ⟨s, [], by simp, hs', .inl rfl⟩
  | percent hs' => simp [beginsWord] at hs
  | group hbefore hinner hafter ih => simp [beginsWord] at hs
  | plain hs' ih => exact ih hs
  | negative hs' ih => simp [beginsWord] at hs
  | single hs' ih => exact ih hs
  | @operation first before after second op hfirst hbefore hop hafter hsecond hcomment ihfirst
      ihsecond =>
      rw [List.head?_append_of_ne_nil _ hfirst.ne_nil] at hs
      obtain ⟨w, t, rfl, hw, ht⟩ := ihfirst hs
      refine ⟨w, t ++ (before ++ op :: (after ++ second)), by simp, hw, .inr ?_⟩
      rcases ht with rfl | ⟨spaces, op', c, u, rfl, hspaces, hop', hc⟩
      · refine ⟨before, op, ?_⟩
        cases after with
        | cons c after =>
            refine ⟨c, after ++ second, rfl, hbefore, hop, ?_⟩
            rintro rfl
            cases hafter '=' (by simp)
        | nil =>
            obtain ⟨c, u, rfl⟩ := List.exists_cons_of_ne_nil hsecond.ne_nil
            have hc := of_beginsOperand (p := fun c => c ≠ '=') (by decide)
              (hsecond.beginsOperand_of_head? rfl)
            exact ⟨c, u, rfl, hbefore, hop, hc⟩
      · exact ⟨spaces, op', c, u ++ (before ++ op :: (after ++ second)), by simp, hspaces, hop', hc⟩

/-- A sum is not taken for `expr(…)`, whatever follows it. -/
theorem exprLexer_eq_none {s rest : List Char} (hs : Derives .sum s) (hrest : EndsBefore s rest) :
    exprLexer (s ++ rest) = none := by
  have hdrop : (s ++ rest).head?.any beginsWord = true →
      ((s ++ rest).dropWhile continuesWord).head? ≠ some '(' := by
    intro hbegins
    rw [List.head?_append_of_ne_nil _ hs.ne_nil] at hbegins
    by_cases hall : ∀ c ∈ s, continuesWord c = true
    · obtain ⟨c, t, rfl⟩ := List.exists_cons_of_ne_nil hs.ne_nil
      have hword : IsWord (c :: t) := .intro hbegins fun d hd => hall d (by simp [hd])
      rw [dropWhile_append_of_spares hall (hrest.stops.word (t := []) rfl hword)]
      exact head_ne_open_of_isNext hrest.next
    · have hne : s.dropWhile continuesWord ≠ [] := fun hnil =>
        hall (List.dropWhile_eq_nil_iff.mp hnil)
      rw [List.dropWhile_append, if_neg (by simpa using hne), List.head?_append_of_ne_nil _ hne]
      exact hs.head?_dropWhile_ne hbegins
  simp only [exprLexer]
  split
  · rename_i inside hinside
    rw [if_neg]
    intro hname
    have hword := isWord_of_name hname
    have hsplit : s ++ rest = (s ++ rest).take 4 ++ '(' :: inside := by
      rw [← hinside, List.take_append_drop]
    have hbegins : (s ++ rest).head?.any beginsWord = true := by
      rw [hsplit, List.head?_append_of_ne_nil _ hword.ne_nil]
      exact hword.beginsWord_head?
    apply hdrop hbegins
    rw [hsplit, dropWhile_append_of_spares hword.continuesWord (spares_cons_iff.mpr (by decide))]
    rfl
  · rfl

namespace Operand

variable {s rest : List Char}

theorem beginsOperand_of_head? (h : Operand s) {c : Char} (hc : s.head? = some c) :
    beginsOperand c = true := by
  cases h with
  | expr hname hbody =>
      have hword := isWord_of_name hname
      rw [List.head?_append_of_ne_nil _ hword.ne_nil] at hc
      simp [beginsOperand, hword.continuesWord c (List.mem_of_mem_head? hc)]
  | sum hs => exact hs.beginsOperand_of_head? hc

theorem startsPiece (h : Operand s) : StartsPiece s := by
  obtain ⟨c, s, rfl⟩ := List.exists_cons_of_ne_nil h.ne_nil
  exact .operand (h.beginsOperand_of_head? rfl) s

/-- An operand is taken up whole where what follows does not continue it. -/
theorem lexer_append (h : Operand s) (hrest : EndsBefore s rest) :
    operandLexer (s ++ rest) = some rest := by
  cases h with
  | expr hname hbody =>
      rw [operandLexer, exprLexer_append hname hbody rest]
      rfl
  | sum hs =>
      have hsum : sumLexer (s ++ rest) = some (skipAll (operationLexer sumLexer) rest) :=
        hs.lexer_append hrest.stops
      rw [operandLexer, exprLexer_eq_none hs hrest, hsum,
        skipAll_of_none (operationLexer_eq_none_of_isNext hrest.next sumLexer)]
      rfl

/-- No operand begins with a character that none can begin with. -/
theorem lexer_eq_none (h : Spares beginsOperand s) : operandLexer s = none := by
  refine Option.eq_none_iff_forall_ne_some.mpr fun rest hrest => ?_
  obtain ⟨t, rfl, ht⟩ := operandLexer_sound hrest
  obtain ⟨c, t, rfl⟩ := List.exists_cons_of_ne_nil ht.ne_nil
  have hc := ht.beginsOperand_of_head? rfl
  rw [h c rfl] at hc
  cases hc

/-- Where a word begins an operand, no operator stands behind this word, blanks left out. -/
theorem exists_word (h : Operand s) (hs : s.head?.any beginsWord = true) (hrest : EndsPiece rest) :
    ∃ w t, s = w ++ t ∧ IsWord w ∧ Spares continuesWord (t ++ rest) ∧
      operatorLexer ((t ++ rest).dropWhile isGap) = none := by
  cases h with
  | @expr name body hname hbody =>
      refine ⟨name, '(' :: (body ++ [')']), rfl, isWord_of_name hname, ?_, ?_⟩
      · exact spares_cons_iff.mpr (by decide)
      · exact operatorLexer_eq_none (spares_cons_iff.mpr (by decide))
  | sum hsum =>
      obtain ⟨w, t, rfl, hw, ht⟩ := hsum.exists_word hs
      refine ⟨w, t, rfl, hw, ?_⟩
      rcases ht with rfl | ⟨spaces, op, c, u, rfl, hspaces, hop, hc⟩
      · exact ⟨hrest.spares, hrest.next.operatorLexer_eq_none⟩
      · have hword : Spares continuesWord (op :: c :: (u ++ rest)) :=
          spares_cons_iff.mpr (not_continuesWord_of_isArithmetic hop)
        have hgap : Spares isGap (op :: c :: (u ++ rest)) :=
          spares_cons_iff.mpr (not_isGap_of_isArithmetic hop)
        have htext : spaces ++ op :: c :: u ++ rest = spaces ++ op :: c :: (u ++ rest) := by simp
        rw [htext]
        refine ⟨spares_append_of_forall hspaces (fun c => not_continuesWord_of_isSpace) hword, ?_⟩
        rw [dropWhile_append_of_spares (fun c hc => isGap_of_isSpace (hspaces c hc)) hgap]
        exact operatorLexer_cons_eq_none hop hc

/-- The operands are the texts that their lexer takes up in full. -/
theorem iff_operandLexer : Operand s ↔ operandLexer s = some [] := by
  constructor
  · intro h
    simpa using h.lexer_append ⟨spares_nil.stops s, .nothing⟩
  · intro h
    obtain ⟨t, ht, hoperand⟩ := operandLexer_sound h
    rwa [ht, List.append_nil]

end Operand

end NpcScript.Grammar
