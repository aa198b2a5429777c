import NpcScript.Proofs.Text.Literal

/-!
Escaped quotes. A literal is read pair by pair from the left, so whether a backslash escapes the
quote behind it depends on how the characters before it pair up. A quote is escaped in this sense
exactly if the text that the literal stands for holds a quote. The test for escaped quotes looks for
a backslash directly before a quote, and the closing quote of the literal counts for it as well. It
therefore also finds the texts that end in a backslash.
-/

namespace NpcScript.Text

/-- One of the pairs that a text is read as, from the left, is a backslash with this character. -/
inductive HoldsPair (c : Char) : List Char → Prop
  | here {s : List Char} : HoldsPair c ('\\' :: c :: s)
  | plain {d : Char} {s : List Char} (hd : d ≠ '\\') (hs : HoldsPair c s) : HoldsPair c (d :: s)
  | pair {s : List Char} (d : Char) (hs : HoldsPair c s) : HoldsPair c ('\\' :: d :: s)

theorem mem_unescape_iff {c : Char} : '"' ∈ unescape c ↔ c = '"' := by
  unfold unescape
  split <;> simp_all [eq_comm]

theorem getLast?_unescape_iff {c : Char} : (unescape c).getLast? = some '\\' ↔ c = '\\' := by
  unfold unescape
  split <;> simp_all

theorem unescape_ne_nil (c : Char) : unescape c ≠ [] := by
  unfold unescape
  split <;> simp

namespace StandsFor

variable {s t : List Char}

/-- No quote stands bare between the quotes of a literal. -/
theorem head?_ne (h : StandsFor s t) : s.head? ≠ some '"' := by
  cases h with
  | nil => simp
  | plain hquote hbackslash hs => simpa using hquote
  | pair c hs => simp

theorem eq_nil_iff (h : StandsFor s t) : t = [] ↔ s = [] := by
  cases h with
  | nil => simp
  | plain hquote hbackslash hs => simp
  | pair c hs => simp [unescape_ne_nil]

theorem holdsPair_iff (h : StandsFor s t) : HoldsPair '"' s ↔ '"' ∈ t := by
  induction h with
  | nil =>
      constructor
      · rintro ⟨⟩
      · simp
  | @plain c s t hquote hbackslash hs ih =>
      rw [List.mem_cons, or_iff_right hquote.symm, ← ih]
      constructor
      · intro hpair
        cases hpair with
        | here => exact absurd rfl hbackslash
        | plain hd hs => exact hs
        | pair d hs => exact absurd rfl hbackslash
      · exact .plain hbackslash
  | @pair s t c hs ih =>
      rw [List.mem_append, mem_unescape_iff, ← ih]
      constructor
      · intro hpair
        cases hpair with
        | here => exact .inl rfl
        | plain hd hs => exact absurd rfl hd
        | pair d hs => exact .inr hs
      · rintro (rfl | hs)
        · exact .here
        · exact .pair c hs

end StandsFor

/-! ### The test for escaped quotes -/

theorem hasEscapedQuote_cons_of_ne {c : Char} (hc : c ≠ '\\') (s : List Char) :
    hasEscapedQuote (c :: s) = hasEscapedQuote s := by
  rw [hasEscapedQuote.eq_def]
  split <;> simp_all

theorem hasEscapedQuote_cons_of_head?_ne {s : List Char} (hs : s.head? ≠ some '"') (c : Char) :
    hasEscapedQuote (c :: s) = hasEscapedQuote s := by
  rw [hasEscapedQuote.eq_def]
  split <;> simp_all

/-- The test finds a quote in the text of a literal, or a backslash at the end of it. -/
theorem StandsFor.hasEscapedQuote_iff {s t : List Char} (h : StandsFor s t) :
    hasEscapedQuote (s ++ ['"']) = true ↔ '"' ∈ t ∨ t.getLast? = some '\\' := by
  induction h with
  | nil => simp [hasEscapedQuote]
  | @plain c s t hquote hbackslash hs ih =>
      rw [List.cons_append, hasEscapedQuote_cons_of_ne hbackslash, ih, List.mem_cons,
        or_iff_right hquote.symm, List.getLast?_cons]
      cases t.getLast? with
      | none => simp [hbackslash]
      | some d => simp
  | @pair s t c hs ih =>
      rw [List.cons_append, List.cons_append, List.mem_append, mem_unescape_iff,
        List.getLast?_append]
      by_cases hquote : c = '"'
      · subst hquote
        simp [hasEscapedQuote]
      · rw [hasEscapedQuote_cons_of_head?_ne (by simpa using hquote), or_iff_right hquote]
        by_cases hbackslash : c = '\\'
        · subst hbackslash
          cases s with
          | nil =>
              obtain rfl := hs.eq_nil_iff.mpr rfl
              simp [hasEscapedQuote, unescape]
          | cons d s =>
              -- The second backslash is used up, so what stands behind it counts by itself.
              have ht : t ≠ [] := fun ht => by simpa using hs.eq_nil_iff.mp ht
              have hlast := List.getLast?_eq_some_getLast ht
              have hd : (d :: s ++ ['"']).head? ≠ some '"' := by simpa using hs.head?_ne
              rw [hasEscapedQuote_cons_of_head?_ne hd, ih, hlast]
              simp
        · have hlast := mt getLast?_unescape_iff.mp hbackslash
          rw [hasEscapedQuote_cons_of_ne hbackslash, ih]
          cases t.getLast? with
          | none => simp [hlast]
          | some d => simp

end NpcScript.Text
