import NpcScript.Proofs.Grammar.Word
import NpcScript.Proofs.Text.Literal

/-!
The lexemes of a line, operands aside. For each there is a class of texts and two facts about its
lexer: what the lexer takes off a text belongs to the class, and a text of the class is taken off
whole, whatever follows it, as long as the next character cannot continue it.
-/

namespace NpcScript.Grammar

open Text

/-- No character of a class stands at the front of the text. -/
def Spares (p : Char → Bool) (s : List Char) : Prop :=
  ∀ c, s.head? = some c → p c = false

section Spares

variable {p q : Char → Bool} {s t : List Char}

@[simp] theorem spares_nil : Spares p [] := by
  simp [Spares]

@[simp] theorem spares_cons_iff {c : Char} : Spares p (c :: s) ↔ p c = false := by
  simp [Spares]

theorem Spares.mono (h : Spares q s) (hpq : ∀ c, p c = true → q c = true) : Spares p s := by
  intro c hc
  by_contra hp
  have hq := hpq c (by simpa using hp)
  rw [h c hc] at hq
  cases hq

theorem Spares.append (hs : Spares p s) (hne : s ≠ []) (t : List Char) : Spares p (s ++ t) := by
  intro c hc
  rw [List.head?_append_of_ne_nil s hne] at hc
  exact hs c hc

theorem Spares.of_append (h : Spares p (s ++ t)) : Spares p s := by
  intro c hc
  exact h c (by simp [List.head?_append, hc])

theorem spares_dropWhile (p : Char → Bool) (s : List Char) : Spares p (s.dropWhile p) := by
  intro c hc
  have hnot := List.head?_dropWhile_not p s
  rw [hc] at hnot
  exact hnot

theorem dropWhile_append_of_spares (hs : ∀ c ∈ s, p c = true) (ht : Spares p t) :
    (s ++ t).dropWhile p = t := by
  rw [List.dropWhile_append_of_pos hs]
  cases t with
  | nil => rfl
  | cons c t => exact List.dropWhile_cons_of_neg (by simpa using ht)

theorem takeWhile_append_of_spares (hs : ∀ c ∈ s, p c = true) (ht : Spares p t) :
    (s ++ t).takeWhile p = s := by
  rw [List.takeWhile_append_of_pos hs]
  cases t with
  | nil => simp
  | cons c t =>
      rw [spares_cons_iff] at ht
      simp [ht]

/-- Where a stretch of characters of a class ends is told by the text alone. -/
theorem append_inj_of_spares {s' t' : List Char} (hs : ∀ c ∈ s, p c = true)
    (hs' : ∀ c ∈ s', p c = true) (ht : Spares p t) (ht' : Spares p t')
    (h : s ++ t = s' ++ t') : s = s' ∧ t = t' := by
  constructor
  · rw [← takeWhile_append_of_spares hs ht, h, takeWhile_append_of_spares hs' ht']
  · rw [← dropWhile_append_of_spares hs ht, h, dropWhile_append_of_spares hs' ht']

end Spares

/-! ### Words and numbers -/

theorem wordLexer_append {w rest : List Char} (hw : IsWord w)
    (hrest : Spares continuesWord rest) : wordLexer (w ++ rest) = some rest := by
  obtain ⟨hc, hs⟩ := hw
  rw [List.cons_append, wordLexer, if_pos hc, dropWhile_append_of_spares hs hrest]

theorem spares_of_wordLexer {s rest : List Char} (h : wordLexer s = some rest) :
    Spares continuesWord rest := by
  cases s with
  | nil => cases h
  | cons c s =>
      simp only [wordLexer, Option.ite_none_right_eq_some, Option.some.injEq] at h
      obtain ⟨-, rfl⟩ := h
      exact spares_dropWhile continuesWord s

theorem wordLexer_eq_none {s : List Char} (h : Spares beginsWord s) : wordLexer s = none := by
  cases s with
  | nil => rfl
  | cons c s =>
      rw [spares_cons_iff] at h
      simp [wordLexer, h]

theorem IsWord.head_ne {s : List Char} (hs : IsWord s) {c : Char} (hc : beginsWord c = false) :
    s.head? ≠ some c := by
  obtain ⟨hd, -⟩ := hs
  rintro ⟨⟩
  rw [hc] at hd
  cases hd

theorem IsWord.beginsWord_head? {s : List Char} (hs : IsWord s) :
    s.head?.any beginsWord = true := by
  obtain ⟨hc, -⟩ := hs
  exact hc

theorem IsWord.spares_isDigit {s : List Char} (hs : IsWord s) : Spares Char.isDigit s := by
  intro c hc
  by_contra hdigit
  exact hs.head_ne (not_beginsWord_of_isDigit (by simpa using hdigit)) hc

theorem digitsLexer_append {w rest : List Char} (hw : IsDigits w)
    (hrest : Spares Char.isDigit rest) : digitsLexer (w ++ rest) = some rest := by
  obtain ⟨hc, hs⟩ := hw
  rw [List.cons_append, digitsLexer, if_pos hc, dropWhile_append_of_spares hs hrest]

theorem spares_of_digitsLexer {s rest : List Char} (h : digitsLexer s = some rest) :
    Spares Char.isDigit rest := by
  cases s with
  | nil => cases h
  | cons c s =>
      simp only [digitsLexer, Option.ite_none_right_eq_some, Option.some.injEq] at h
      obtain ⟨-, rfl⟩ := h
      exact spares_dropWhile Char.isDigit s

theorem digitsLexer_eq_none {s : List Char} (h : Spares Char.isDigit s) :
    digitsLexer s = none := by
  cases s with
  | nil => rfl
  | cons c s =>
      rw [spares_cons_iff] at h
      simp [digitsLexer, h]

/-- Digits with or without a minus sign in front. -/
inductive IsNumber : List Char → Prop
  | plain {s : List Char} (hs : IsDigits s) : IsNumber s
  | negative {s : List Char} (hs : IsDigits s) : IsNumber ('-' :: s)

theorem IsDigits.head_ne {s : List Char} (hs : IsDigits s) {c : Char}
    (hc : c.isDigit = false) : s.head? ≠ some c := by
  obtain ⟨hd, -⟩ := hs
  rintro ⟨⟩
  rw [hc] at hd
  cases hd

theorem IsNumber.spares_beginsWord {s : List Char} (hs : IsNumber s) : Spares beginsWord s := by
  cases hs with
  | plain hs =>
      obtain ⟨hd, -⟩ := hs
      exact spares_cons_iff.mpr (not_beginsWord_of_isDigit hd)
  | negative _ => exact spares_cons_iff.mpr (by decide)

theorem IsNumber.head_ne {s : List Char} (hs : IsNumber s) {c : Char} (hc : c.isDigit = false)
    (hminus : c ≠ '-') : s.head? ≠ some c := by
  cases hs with
  | plain hs => exact hs.head_ne hc
  | negative hs => simpa using hminus.symm

theorem unsignedLexer_append {s rest : List Char} (hs : IsDigits s)
    (hrest : Spares continuesWord rest) : unsignedLexer (s ++ rest) = some rest := by
  have hdigits : Spares Char.isDigit rest := hrest.mono fun c => continuesWord_of_isDigit
  have hword : rest.head?.any beginsWord = false := by
    cases rest with
    | nil => rfl
    | cons c rest =>
        exact (hrest.mono fun c => continuesWord_of_beginsWord) c rfl
  rw [unsignedLexer, digitsLexer_append hs hdigits]
  simp [hword]

theorem numberLexer_of_head_ne {s : List Char} (h : s.head? ≠ some '-') :
    numberLexer s = unsignedLexer s := by
  unfold numberLexer
  split
  · exact absurd rfl h
  · rfl

theorem numberLexer_append {s rest : List Char} (hs : IsNumber s)
    (hrest : Spares continuesWord rest) : numberLexer (s ++ rest) = some rest := by
  cases hs with
  | plain hs =>
      have hhead : (s ++ rest).head? ≠ some '-' := by
        rw [List.head?_append_of_ne_nil s hs.ne_nil]
        exact hs.head_ne (by decide)
      rw [numberLexer_of_head_ne hhead]
      exact unsignedLexer_append hs hrest
  | negative hs => exact unsignedLexer_append hs hrest

theorem unsignedLexer_sound {s rest : List Char} (h : unsignedLexer s = some rest) :
    ∃ t, s = t ++ rest ∧ IsDigits t := by
  unfold unsignedLexer at h
  split at h
  · cases h
  · rename_i behind hdigits
    split at h
    · cases h
    · cases h
      exact digitsLexer_sound hdigits

theorem numberLexer_sound {s rest : List Char} (h : numberLexer s = some rest) :
    ∃ t, s = t ++ rest ∧ IsNumber t := by
  unfold numberLexer at h
  split at h
  · obtain ⟨t, rfl, ht⟩ := unsignedLexer_sound h
    exact ⟨'-' :: t, rfl, .negative ht⟩
  · obtain ⟨t, rfl, ht⟩ := unsignedLexer_sound h
    exact ⟨t, rfl, .plain ht⟩

theorem numberLexer_eq_none {s : List Char} (hminus : s.head? ≠ some '-')
    (hdigit : Spares Char.isDigit s) : numberLexer s = none := by
  rw [numberLexer_of_head_ne hminus, unsignedLexer, digitsLexer_eq_none hdigit]

/-! ### Where words and numbers stop -/

/-- A letter, digit or underscore stands at the front of `s` only if it stands there in the text. -/
def StartsAs (text s : List Char) : Prop :=
  ∀ c, s.head? = some c → continuesWord c = true → text.head? = some c

section Starts

variable {text s : List Char}

theorem StartsAs.refl (text : List Char) : StartsAs text text :=
  fun _ hc _ => hc

theorem startsAs_nil (text : List Char) : StartsAs text [] := by
  simp [StartsAs]

theorem Spares.startsAs (h : Spares continuesWord s) (text : List Char) : StartsAs text s := by
  intro c hc hword
  rw [h c hc] at hword
  cases hword

theorem StartsAs.spares {p : Char → Bool} (h : StartsAs text s)
    (hp : ∀ c, p c = true → continuesWord c = true) (htext : Spares p text) : Spares p s := by
  intro c hc
  by_contra hpc
  have hpc : p c = true := by simpa using hpc
  rw [htext c (h c hc (hp c hpc))] at hpc
  cases hpc

theorem StartsAs.append {rest t : List Char} (h : StartsAs rest t) (s : List Char) :
    StartsAs (s ++ rest) (s ++ t) := by
  intro c hc hword
  cases s with
  | nil => exact h c hc hword
  | cons d s => exact hc

end Starts

/-- Nothing at the front of `rest` continues a word or a row of digits that `s` ends in. -/
structure Stops (s rest : List Char) : Prop where
  word : ∀ {t w : List Char}, s = t ++ w → IsWord w → Spares continuesWord rest
  digits : ∀ {t w : List Char}, s = t ++ w → IsDigits w → Spares Char.isDigit rest

section Stops

variable {s t rest : List Char}

theorem Spares.stops (h : Spares continuesWord rest) (s : List Char) : Stops s rest :=
  ⟨fun _ _ => h, fun _ _ => h.mono fun _ => continuesWord_of_isDigit⟩

theorem IsDigits.stops (hs : IsDigits s) (h : Spares Char.isDigit rest) : Stops s rest := by
  refine ⟨?_, fun _ _ => h⟩
  rintro t w rfl ⟨hc, -⟩
  -- No digit begins a word, so no word is part of a row of digits.
  rw [not_beginsWord_of_isDigit (hs.isDigit _ (by simp))] at hc
  cases hc

theorem Stops.of_append (h : Stops (t ++ s) rest) : Stops s rest := by
  refine ⟨?_, ?_⟩
  · rintro u w rfl hw
    exact h.word (List.append_assoc t u w).symm hw
  · rintro u w rfl hw
    exact h.digits (List.append_assoc t u w).symm hw

/-- Only the first character of what follows counts, and only if it can stand in a word. -/
theorem Stops.of_head? {rest' : List Char} (h : Stops s rest) (hstarts : StartsAs rest rest') :
    Stops s rest' :=
  ⟨fun ht hw => hstarts.spares (fun _ hc => hc) (h.word ht hw),
    fun ht hw => hstarts.spares (fun _ => continuesWord_of_isDigit) (h.digits ht hw)⟩

/-- What is added behind a text counts only if nothing stands in front of it. -/
theorem Stops.append_right {u : List Char} (h : Stops s rest) (hu : Spares continuesWord u) :
    Stops s (rest ++ u) := by
  refine h.of_head? fun c hc hword => ?_
  cases rest with
  | nil =>
      rw [hu c hc] at hword
      cases hword
  | cons d rest => exact hc

/-- A stretch of letters, digits and underscores does not reach over other characters. -/
theorem exists_suffix_of_forall {u w : List Char} (hu : ∀ c ∈ u, continuesWord c = false)
    (hne : u ≠ []) (hw : ∀ c ∈ w, continuesWord c = true) {t' : List Char}
    (h : t ++ (u ++ s) = t' ++ w) : ∃ v, s = v ++ w := by
  rcases List.append_eq_append_iff.mp h with ⟨v, rfl, hv⟩ | ⟨v, rfl, rfl⟩
  · rcases List.append_eq_append_iff.mp hv with ⟨v', rfl, rfl⟩ | ⟨v', rfl, rfl⟩
    · exact ⟨v', rfl⟩
    · cases v' with
      | nil => exact ⟨[], rfl⟩
      | cons c v' =>
          have hc := hw c (by simp)
          rw [hu c (by simp)] at hc
          cases hc
  · obtain ⟨c, u, rfl⟩ := List.exists_cons_of_ne_nil hne
    have hc := hw c (by simp)
    rw [hu c (by simp)] at hc
    cases hc

/-- What stands in front of a text does not count if characters of no word lie between. -/
theorem Stops.append {u : List Char} (h : Stops s rest) (hne : u ≠ [])
    (hu : ∀ c ∈ u, continuesWord c = false) (t : List Char) : Stops (t ++ (u ++ s)) rest := by
  refine ⟨fun hs hw => ?_, fun hs hw => ?_⟩
  · obtain ⟨v, hv⟩ := exists_suffix_of_forall hu hne hw.continuesWord hs
    exact h.word hv hw
  · obtain ⟨v, hv⟩ := exists_suffix_of_forall hu hne hw.continuesWord hs
    exact h.digits hv hw

theorem stops_nil (rest : List Char) : Stops [] rest := by
  refine ⟨fun hs hw => ?_, fun hs hw => ?_⟩
  · exact absurd (List.append_eq_nil_iff.mp hs.symm).2 hw.ne_nil
  · exact absurd (List.append_eq_nil_iff.mp hs.symm).2 hw.ne_nil

/-- A mark is never continued. -/
theorem stops_append_singleton {c : Char} (hc : continuesWord c = false) (t rest : List Char) :
    Stops (t ++ [c]) rest := by
  have h := (stops_nil rest).append (u := [c]) (by simp) (by simpa using hc) t
  rwa [List.append_nil] at h

end Stops

/-! ### Keywords -/

inductive IsKeyword : List Char → Prop
  | plain {s : List Char} (hs : IsWord s) : IsKeyword s
  | percent {s : List Char} (hs : IsWord s) : IsKeyword ('%' :: s)

theorem IsKeyword.head_ne_quote {s : List Char} (hs : IsKeyword s) : s.head? ≠ some '"' := by
  cases hs with
  | plain hs => exact hs.head_ne (by decide)
  | percent hs => simp

theorem IsKeyword.spares_of_stops {s rest : List Char} (hs : IsKeyword s) (h : Stops s rest) :
    Spares continuesWord rest := by
  cases hs with
  | plain hs => exact h.word (t := []) rfl hs
  | percent hs => exact h.word (t := ['%']) rfl hs

theorem keywordLexer_of_head_ne {s : List Char} (h : s.head? ≠ some '%') :
    keywordLexer s = wordLexer s := by
  unfold keywordLexer
  split
  · exact absurd rfl h
  · rfl

theorem keywordLexer_append {s rest : List Char} (hs : IsKeyword s)
    (hrest : Spares continuesWord rest) : keywordLexer (s ++ rest) = some rest := by
  cases hs with
  | plain hs =>
      have hhead : (s ++ rest).head? ≠ some '%' := by
        rw [List.head?_append_of_ne_nil s hs.ne_nil]
        exact hs.head_ne (by decide)
      rw [keywordLexer_of_head_ne hhead]
      exact wordLexer_append hs hrest
  | percent hs => exact wordLexer_append hs hrest

theorem keywordLexer_sound {s rest : List Char} (h : keywordLexer s = some rest) :
    ∃ t, s = t ++ rest ∧ IsKeyword t := by
  unfold keywordLexer at h
  split at h
  · obtain ⟨t, rfl, ht⟩ := wordLexer_sound h
    exact ⟨'%' :: t, rfl, .percent ht⟩
  · obtain ⟨t, rfl, ht⟩ := wordLexer_sound h
    exact ⟨t, rfl, .plain ht⟩

theorem spares_of_keywordLexer {s rest : List Char} (h : keywordLexer s = some rest) :
    Spares continuesWord rest := by
  unfold keywordLexer at h
  split at h
  · exact spares_of_wordLexer h
  · exact spares_of_wordLexer h

/-! ### Literals -/

theorem closingQuoteLexer_cons_of_ne {c : Char} (hquote : c ≠ '"') (hbackslash : c ≠ '\\')
    (s : List Char) : closingQuoteLexer (c :: s) = closingQuoteLexer s := by
  rw [closingQuoteLexer.eq_def]
  split <;> simp_all

theorem closingQuoteLexer_append {body text : List Char} (h : StandsFor body text)
    (rest : List Char) : closingQuoteLexer (body ++ '"' :: rest) = some rest := by
  induction h with
  | nil => rfl
  | plain hquote hbackslash hs ih =>
      rw [List.cons_append, closingQuoteLexer_cons_of_ne hquote hbackslash]
      exact ih
  | pair c hs ih => exact ih

/-- A backslash is read on its own at the end, and elsewhere with the character behind it. -/
theorem ne_backslash_of_forall {c : Char} {s : List Char} (hlast : c = '\\' → s = [] → False)
    (hpair : ∀ d rest, c = '\\' → s = d :: rest → False) : c ≠ '\\' := by
  intro hc
  cases s with
  | nil => exact hlast hc rfl
  | cons d s => exact hpair d s hc rfl

theorem closingQuoteLexer_sound {s rest : List Char} (h : closingQuoteLexer s = some rest) :
    ∃ body text, s = body ++ '"' :: rest ∧ StandsFor body text := by
  fun_induction closingQuoteLexer s with
  | case1 => cases h
  | case2 s =>
      cases h
      exact ⟨[], [], rfl, .nil⟩
  | case3 => cases h
  | case4 c s ih =>
      obtain ⟨body, text, rfl, hbody⟩ := ih h
      exact ⟨_, _, rfl, .pair c hbody⟩
  | case5 c s hquote hlast hbackslash ih =>
      have hplain := ne_backslash_of_forall hlast hbackslash
      obtain ⟨body, text, rfl, hbody⟩ := ih h
      exact ⟨c :: body, c :: text, rfl, .plain hquote hplain hbody⟩

theorem literalLexer_append {s : List Char} (hs : IsLiteral s) (rest : List Char) :
    literalLexer (s ++ rest) = some rest := by
  obtain ⟨text, ⟨hbody⟩⟩ := hs
  rw [List.cons_append, List.append_assoc]
  exact closingQuoteLexer_append hbody rest

theorem literalLexer_sound {s rest : List Char} (h : literalLexer s = some rest) :
    ∃ t, s = t ++ rest ∧ IsLiteral t := by
  unfold literalLexer at h
  split at h
  · obtain ⟨body, text, rfl, hbody⟩ := closingQuoteLexer_sound h
    exact ⟨'"' :: (body ++ ['"']), by simp, text, .intro hbody⟩
  · cases h

theorem IsLiteral.stops {s : List Char} (h : IsLiteral s) (rest : List Char) : Stops s rest := by
  obtain ⟨text, ⟨hbody⟩⟩ := h
  exact stops_append_singleton (t := '"' :: _) (by decide) rest

namespace IsWord

variable {w : List Char} (hw : IsWord w)

include hw

/-- Between quotes a word stands for itself. -/
theorem denotes : Denotes ('"' :: (w ++ ['"'])) w := by
  refine denotes_of_forall_ne fun c hc => ?_
  exact of_continuesWord (p := fun c => c ≠ '"' ∧ c ≠ '\\') (by decide) (hw.continuesWord c hc)

theorem isLiteral : IsLiteral ('"' :: (w ++ ['"'])) :=
  ⟨w, hw.denotes⟩

theorem unquote_eq : unquote ('"' :: (w ++ ['"'])) = w :=
  unquote_of_denotes hw.denotes

end IsWord

theorem literalLexer_eq_none {s : List Char} (h : s.head? ≠ some '"') :
    literalLexer s = none := by
  unfold literalLexer
  split
  · exact absurd rfl h
  · rfl

/-! ### Operators -/

def IsOperator (s : List Char) : Prop :=
  ∃ operator ∈ operators, s = operator.toList

theorem operatorLexer_sound {s rest : List Char} (h : operatorLexer s = some rest) :
    ∃ t, s = t ++ rest ∧ IsOperator t := by
  obtain ⟨operator, hmem, hfound⟩ := List.exists_of_findSome?_eq_some h
  simp only [exactly, Option.ite_none_right_eq_some, Option.some.injEq] at hfound
  obtain ⟨hbegins, rfl⟩ := hfound
  obtain ⟨behind, rfl⟩ := List.isPrefixOf_iff_prefix.mp hbegins
  exact ⟨operator.toList, by simp, operator, hmem, rfl⟩

/-- An equals sign behind an operator could make another operator of it. -/
theorem operatorLexer_append {s rest : List Char} (hs : IsOperator s)
    (hrest : rest.head? ≠ some '=') : operatorLexer (s ++ rest) = some rest := by
  obtain ⟨operator, hmem, rfl⟩ := hs
  have hequals : ¬ ['='] <+: rest := by
    rintro ⟨t, rfl⟩
    exact hrest rfl
  simp only [operators, List.mem_cons, List.not_mem_nil, or_false] at hmem
  rcases hmem with rfl | rfl | rfl | rfl | rfl | rfl | rfl | rfl | rfl | rfl
  all_goals simp [operatorLexer, operators, exactly, List.cons_prefix_cons, hequals]

theorem arrowLexer_sound {s rest : List Char} (h : arrowLexer s = some rest) :
    ∃ t, s = t ++ rest ∧ t = ['-', '>'] := by
  simp only [arrowLexer, exactly, Option.ite_none_right_eq_some, Option.some.injEq] at h
  obtain ⟨hbegins, rfl⟩ := h
  obtain ⟨behind, rfl⟩ := List.isPrefixOf_iff_prefix.mp hbegins
  exact ⟨['-', '>'], rfl, rfl⟩

def beginsOperator (c : Char) : Bool :=
  c == '+' || c == '-' || c == '=' || c == '!' || c == '~' || c == '<' || c == '>'

theorem IsOperator.exists_cons {s : List Char} (h : IsOperator s) :
    ∃ c t, s = c :: t ∧ beginsOperator c = true := by
  obtain ⟨operator, hmem, rfl⟩ := h
  have hall : operators.all fun operator => operator.toList.head?.any beginsOperator := by decide
  have hhead := List.all_eq_true.mp hall operator hmem
  cases hs : operator.toList with
  | nil =>
      rw [hs] at hhead
      cases hhead
  | cons c t =>
      rw [hs] at hhead
      exact ⟨c, t, rfl, hhead⟩

theorem IsOperator.not_continuesWord {s : List Char} (h : IsOperator s) :
    ∀ c ∈ s, continuesWord c = false := by
  obtain ⟨operator, hmem, rfl⟩ := h
  have hall : operators.all fun operator => operator.toList.all (!continuesWord ·) := by decide
  simpa using List.all_eq_true.mp hall operator hmem

theorem operatorLexer_eq_none {s : List Char} (h : Spares beginsOperator s) :
    operatorLexer s = none := by
  cases s with
  | nil => rfl
  | cons c s =>
      rw [spares_cons_iff] at h
      have hne : ∀ d, beginsOperator d = true → d ≠ c := by
        rintro d hd rfl
        rw [h] at hd
        cases hd
      simp [operatorLexer, operators, exactly, List.cons_prefix_cons, hne '+' rfl, hne '-' rfl,
        hne '=' rfl, hne '!' rfl, hne '~' rfl, hne '<' rfl, hne '>' rfl]

theorem operatorLexer_cons_eq_none {c d : Char} {s : List Char} (hc : isArithmetic c = true)
    (hd : d ≠ '=') : operatorLexer (c :: d :: s) = none := by
  simp only [isArithmetic, Bool.or_eq_true, beq_iff_eq] at hc
  rcases hc with ((rfl | rfl) | rfl) | rfl
  all_goals simp [operatorLexer, operators, exactly, List.cons_prefix_cons, hd.symm]

end NpcScript.Grammar
