import NpcScript.Grammar.Lexer
import NpcScript.Proofs.Text.Nesting

/-!
Words and rows of digits, as the lexers take them up. Neither holds a blank or a parenthesis, so
both are trimmed and balanced.
-/

namespace NpcScript.Grammar

open Text

/-- A letter or underscore, then letters, digits and underscores. -/
inductive IsWord : List Char → Prop
  | intro {c : Char} {s : List Char} (hc : beginsWord c = true)
      (hs : ∀ d ∈ s, continuesWord d = true) : IsWord (c :: s)

inductive IsDigits : List Char → Prop
  | intro {c : Char} {s : List Char} (hc : c.isDigit = true) (hs : ∀ d ∈ s, d.isDigit = true) :
      IsDigits (c :: s)

theorem wordLexer_sound {s rest : List Char} (h : wordLexer s = some rest) :
    ∃ w, s = w ++ rest ∧ IsWord w := by
  cases s with
  | nil => simp [wordLexer] at h
  | cons c s =>
      simp only [wordLexer, Option.ite_none_right_eq_some, Option.some.injEq] at h
      obtain ⟨hc, rfl⟩ := h
      exact ⟨c :: s.takeWhile continuesWord, by simp, hc, fun d hd => List.mem_takeWhile_imp hd⟩

theorem isWord_of_wordLexer {s : List Char} (h : wordLexer s = some []) : IsWord s := by
  obtain ⟨w, rfl, hw⟩ := wordLexer_sound h
  rwa [List.append_nil]

theorem digitsLexer_sound {s rest : List Char} (h : digitsLexer s = some rest) :
    ∃ w, s = w ++ rest ∧ IsDigits w := by
  cases s with
  | nil => simp [digitsLexer] at h
  | cons c s =>
      simp only [digitsLexer, Option.ite_none_right_eq_some, Option.some.injEq] at h
      obtain ⟨hc, rfl⟩ := h
      exact ⟨c :: s.takeWhile Char.isDigit, by simp, hc, fun d hd => List.mem_takeWhile_imp hd⟩

/-! ### The characters of words -/

theorem toNat_lt_of_continuesWord {c : Char} (h : continuesWord c = true) : c.toNat < 128 := by
  -- The classes are bounds on the code point once they are written out.
  delta continuesWord Char.isAlphanum Char.isAlpha Char.isUpper Char.isLower Char.isDigit at h
  simp only [Bool.or_eq_true, Bool.and_eq_true, decide_eq_true_eq, beq_iff_eq,
    UInt32.le_iff_toNat_le, ge_iff_le, Char.toNat_val] at h
  rcases h with ((⟨-, h⟩ | ⟨-, h⟩) | ⟨-, h⟩) | rfl
  · exact Nat.lt_of_le_of_lt h (by decide)
  · exact Nat.lt_of_le_of_lt h (by decide)
  · exact Nat.lt_of_le_of_lt h (by decide)
  · decide

/-- To know something of all letters, digits and underscores, it is enough to try those below
128. -/
theorem of_continuesWord {p : Char → Prop}
    (hall : ∀ n < 128, continuesWord (Char.ofNat n) = true → p (Char.ofNat n)) {c : Char}
    (h : continuesWord c = true) : p c := by
  have hc := hall c.toNat (toNat_lt_of_continuesWord h)
  rw [Char.ofNat_toNat] at hc
  exact hc h

theorem isBlank_of_continuesWord {c : Char} (h : continuesWord c = true) : isBlank c = false :=
  of_continuesWord (p := fun c => isBlank c = false) (by decide) h

theorem continuesWord_of_beginsWord {c : Char} (h : beginsWord c = true) :
    continuesWord c = true := by
  simp only [beginsWord, continuesWord, Char.isAlphanum, Bool.or_eq_true] at h ⊢
  tauto

theorem continuesWord_of_isDigit {c : Char} (h : c.isDigit = true) : continuesWord c = true := by
  simp [continuesWord, Char.isAlphanum, h]

theorem ne_of_continuesWord {c : Char} (h : continuesWord c = true) : c ≠ '(' ∧ c ≠ ')' :=
  ne_parentheses (by decide) (by decide) h

theorem not_beginsWord_of_isDigit {c : Char} (h : c.isDigit = true) : beginsWord c = false := by
  have hc := of_continuesWord (p := fun c => c.isDigit = true → beginsWord c = false) (by decide)
    (continuesWord_of_isDigit h)
  exact hc h

@[simp] theorem beginsWord_toLower (c : Char) : beginsWord c.toLower = beginsWord c :=
  apply_toLower (by decide) c

@[simp] theorem continuesWord_toLower (c : Char) : continuesWord c.toLower = continuesWord c :=
  apply_toLower (by decide) c

/-- A text of letters, digits and underscores has no blanks. -/
theorem isTrimmed_of_continuesWord {s : List Char} (h : ∀ c ∈ s, continuesWord c = true) :
    IsTrimmed s :=
  isTrimmed_of_forall fun c hc => isBlank_of_continuesWord (h c hc)

/-- A text of letters, digits and underscores has no parentheses. -/
theorem isBalanced_of_continuesWord {s : List Char} (h : ∀ c ∈ s, continuesWord c = true) :
    IsBalanced s :=
  isBalanced_of_forall_ne fun c hc => ne_of_continuesWord (h c hc)

variable {s : List Char}

theorem IsWord.ne_nil (h : IsWord s) : s ≠ [] := by
  cases h
  simp

theorem IsWord.continuesWord (h : IsWord s) : ∀ c ∈ s, continuesWord c = true := by
  obtain ⟨hc, hs⟩ := h
  intro d hd
  rcases List.mem_cons.mp hd with rfl | hd
  · exact continuesWord_of_beginsWord hc
  · exact hs d hd

/-- A word in other letter case is a word. -/
theorem IsWord.of_sameLetters {t : List Char} (ht : IsWord t) (h : sameLetters s t = true) :
    IsWord s := by
  obtain ⟨hc, ht⟩ := ht
  have hlower := sameLetters_iff.mp h
  cases s with
  | nil => cases hlower
  | cons d s =>
      obtain ⟨hhead, htail⟩ := List.cons_eq_cons.mp hlower
      refine .intro ?_ fun e he => ?_
      · rw [← beginsWord_toLower, hhead, beginsWord_toLower]
        exact hc
      · have hmem : e.toLower ∈ lower _ := htail ▸ List.mem_map_of_mem he
        obtain ⟨f, hf, hsame⟩ := List.mem_map.mp hmem
        rw [← continuesWord_toLower, ← hsame, continuesWord_toLower]
        exact ht f hf

theorem IsDigits.ne_nil (h : IsDigits s) : s ≠ [] := by
  cases h
  simp

theorem IsDigits.isDigit (h : IsDigits s) : ∀ c ∈ s, c.isDigit = true := by
  obtain ⟨hc, hs⟩ := h
  simpa using ⟨hc, hs⟩

theorem IsDigits.continuesWord (h : IsDigits s) : ∀ c ∈ s, continuesWord c = true :=
  fun c hc => continuesWord_of_isDigit (h.isDigit c hc)

end NpcScript.Grammar
