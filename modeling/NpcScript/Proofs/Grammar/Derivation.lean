import NpcScript.Proofs.Grammar.OperandFront

/-!
Derivations of sums. `Derives` says that a text is a sum; a derivation is the tree behind it, kept
as data so that its leaves and its operators can be told. Of the arithmetic signs in a text, those
that are not minus signs in front of a term join two terms, and none of them begins the text.
-/

namespace NpcScript.Grammar

/-- How a text is made up as a part of a sum, with a constructor for each one of `Derives`. -/
inductive Derivation : SumPart → List Char → Type
  | digits {s : List Char} (hs : IsDigits s) : Derivation .atom s
  | word {s : List Char} (hs : IsWord s) : Derivation .atom s
  | percent {s : List Char} (hs : IsWord s) : Derivation .atom ('%' :: s)
  | group {before inner after : List Char} (hbefore : ∀ c ∈ before, isSpace c = true)
      (inside : Derivation .sum inner) (hafter : ∀ c ∈ after, isSpace c = true) :
      Derivation .atom ('(' :: (before ++ inner ++ after ++ [')']))
  | plain {s : List Char} (atom : Derivation .atom s) : Derivation .term s
  | negative {s : List Char} (atom : Derivation .atom s) : Derivation .term ('-' :: s)
  | single {s : List Char} (term : Derivation .term s) : Derivation .sum s
  | operation {first before after second : List Char} {op : Char} (left : Derivation .sum first)
      (hbefore : ∀ c ∈ before, isSpace c = true) (hop : isArithmetic op = true)
      (hafter : ∀ c ∈ after, isSpace c = true) (right : Derivation .term second)
      (hcomment : ¬ ['-', '-'] <+: op :: (after ++ second)) :
      Derivation .sum (first ++ (before ++ op :: (after ++ second)))

/-- A text is a part of a sum exactly if there is a derivation of it. -/
theorem nonempty_derivation_iff {part : SumPart} {s : List Char} :
    Nonempty (Derivation part s) ↔ Derives part s := by
  constructor
  · rintro ⟨derivation⟩
    induction derivation with
    | digits hs => exact .digits hs
    | word hs => exact .word hs
    | percent hs => exact .percent hs
    | group hbefore inside hafter ih => exact .group hbefore ih hafter
    | plain atom ih => exact .plain ih
    | negative atom ih => exact .negative ih
    | single term ih => exact .single ih
    | operation left hbefore hop hafter right hcomment ihleft ihright =>
        exact .operation ihleft hbefore hop hafter ihright hcomment
  · intro h
    induction h with
    | digits hs => exact ⟨.digits hs⟩
    | word hs => exact ⟨.word hs⟩
    | percent hs => exact ⟨.percent hs⟩
    | group hbefore hinner hafter ih => exact ih.map fun inside => .group hbefore inside hafter
    | plain hs ih => exact ih.map .plain
    | negative hs ih => exact ih.map .negative
    | single hs ih => exact ih.map .single
    | operation hfirst hbefore hop hafter hsecond hcomment ihfirst ihsecond =>
        obtain ⟨left⟩ := ihfirst
        obtain ⟨right⟩ := ihsecond
        exact ⟨.operation left hbefore hop hafter right hcomment⟩

namespace Derivation

variable {part : SumPart} {s : List Char}

theorem derives (derivation : Derivation part s) : Derives part s :=
  nonempty_derivation_iff.mp ⟨derivation⟩

/-- The leaves, in the order in which they are written: digits, words, and variables with their
percent sign. -/
def leaves {part : SumPart} {s : List Char} : Derivation part s → List (List Char)
  | @digits s _ => [s]
  | @word s _ => [s]
  | @percent s _ => ['%' :: s]
  | group _ inside _ => inside.leaves
  | plain atom => atom.leaves
  | negative atom => atom.leaves
  | single term => term.leaves
  | operation left _ _ _ right _ => left.leaves ++ right.leaves

def joinsTerms {part : SumPart} {s : List Char} : Derivation part s → Bool
  | digits _ | word _ | percent _ => false
  | group _ inside _ => inside.joinsTerms
  | plain atom => atom.joinsTerms
  | negative atom => atom.joinsTerms
  | single term => term.joinsTerms
  | operation _ _ _ _ _ _ => true

/-- Where no terms are joined, every arithmetic sign is a minus sign. -/
theorem eq_minus_of_joinsTerms_eq_false (derivation : Derivation part s)
    (h : derivation.joinsTerms = false) {c : Char} (hc : c ∈ s) (hsign : isArithmetic c = true) :
    c = '-' := by
  have hword {w : List Char} (hw : ∀ d ∈ w, continuesWord d = true) (hc : c ∈ w) : c = '-' := by
    have hnot := not_continuesWord_of_isArithmetic hsign
    rw [hw c hc] at hnot
    cases hnot
  have hspace {spaces : List Char} (hspaces : ∀ d ∈ spaces, isSpace d = true) (hc : c ∈ spaces) :
      c = '-' := by
    have hnot := isArithmetic_ne_space hsign
    rw [hspaces c hc] at hnot
    cases hnot
  induction derivation with
  | digits hs => exact hword hs.continuesWord hc
  | word hs => exact hword hs.continuesWord hc
  | percent hs =>
      rcases List.mem_cons.mp hc with rfl | hc
      · cases hsign
      · exact hword hs.continuesWord hc
  | @group before inner after hbefore inside hafter ih =>
      have hcases : c = '(' ∨ c ∈ before ∨ c ∈ inner ∨ c ∈ after ∨ c = ')' := by
        simpa [or_assoc] using hc
      rcases hcases with rfl | hc | hc | hc | rfl
      · cases hsign
      · exact hspace hbefore hc
      · exact ih h hc
      · exact hspace hafter hc
      · cases hsign
  | plain atom ih => exact ih h hc
  | negative atom ih =>
      rcases List.mem_cons.mp hc with rfl | hc
      · rfl
      · exact ih h hc
  | single term ih => exact ih h hc
  | operation left hbefore hop hafter right hcomment ihleft ihright => cases h

/-- An operator that joins two terms has a term in front of it. -/
theorem exists_mem_tail_of_joinsTerms (derivation : Derivation part s)
    (h : derivation.joinsTerms = true) : ∃ c ∈ s.tail, isArithmetic c = true := by
  induction derivation with
  | digits hs => cases h
  | word hs => cases h
  | percent hs => cases h
  | @group before inner after hbefore inside hafter ih =>
      obtain ⟨c, hc, hsign⟩ := ih h
      refine ⟨c, ?_, hsign⟩
      simp [List.mem_of_mem_tail hc]
  | plain atom ih => exact ih h
  | negative atom ih =>
      obtain ⟨c, hc, hsign⟩ := ih h
      exact ⟨c, List.mem_of_mem_tail hc, hsign⟩
  | single term ih => exact ih h
  | @operation first before after second op left hbefore hop hafter right hcomment ihleft
      ihright =>
      refine ⟨op, ?_, hop⟩
      rw [List.tail_append_of_ne_nil left.derives.ne_nil]
      simp

/-- Behind the first character of a text, an arithmetic sign joins two terms or is a minus sign. -/
theorem any_isArithmetic_tail_iff (derivation : Derivation part s) :
    s.tail.any isArithmetic = true ↔ derivation.joinsTerms = true ∨ '-' ∈ s.tail := by
  rw [List.any_eq_true]
  constructor
  · rintro ⟨c, hc, hsign⟩
    cases hjoins : derivation.joinsTerms with
    | true => exact .inl rfl
    | false =>
        obtain rfl :=
          derivation.eq_minus_of_joinsTerms_eq_false hjoins (List.mem_of_mem_tail hc) hsign
        exact .inr hc
  · rintro (hjoins | hminus)
    · exact derivation.exists_mem_tail_of_joinsTerms hjoins
    · exact ⟨'-', hminus, rfl⟩

inductive IsTermLeaf : List Char → Prop
  | digits {s : List Char} (hs : IsDigits s) : IsTermLeaf s
  | percent {s : List Char} (hs : IsWord s) : IsTermLeaf ('%' :: s)

/-- The sum has something to compute: its leaves are numbers and variables, and there is more to it
than a single one of them with a sign in front. -/
structure IsCalculation (derivation : Derivation .sum s) : Prop where
  leaves : ∀ leaf ∈ derivation.leaves, IsTermLeaf leaf
  operates : derivation.joinsTerms = true ∨ '-' ∈ s.tail

end Derivation

end NpcScript.Grammar
