import NpcScript.Proofs.Grammar.Assignment
import NpcScript.Proofs.Grammar.Dialogue

/-!
The last characters of the pieces of a line. No piece ends in a blank or a comma, so where a piece
is cut off by blanks or a comma the cut lies behind it. What is read as a line without the blanks
around it is therefore read as the same line with them, and the other way round.
-/

namespace NpcScript.Grammar

open Reader (isGap)
open Text (IsLiteral)

def isSeparator (c : Char) : Bool :=
  isGap c || c == ','

/-- The text is not empty, and no blank or comma stands at its end. -/
def EndsPlainly (s : List Char) : Prop :=
  ∃ c, s.getLast? = some c ∧ isSeparator c = false

section Ends

variable {s : List Char}

theorem EndsPlainly.append (h : EndsPlainly s) (t : List Char) : EndsPlainly (t ++ s) := by
  obtain ⟨c, hc, hplain⟩ := h
  exact ⟨c, by simp [List.getLast?_append, hc], hplain⟩

theorem endsPlainly_append_singleton {c : Char} (hc : isSeparator c = false) (t : List Char) :
    EndsPlainly (t ++ [c]) :=
  ⟨c, by simp, hc⟩

theorem endsPlainly_of_continuesWord (hs : ∀ c ∈ s, continuesWord c = true) (hne : s ≠ []) :
    EndsPlainly s := by
  refine ⟨s.getLast hne, List.getLast?_eq_some_getLast hne, ?_⟩
  exact of_continuesWord (p := fun c => isSeparator c = false) (by decide)
    (hs _ (List.getLast_mem hne))

theorem IsWord.endsPlainly (h : IsWord s) : EndsPlainly s :=
  endsPlainly_of_continuesWord h.continuesWord h.ne_nil

theorem Derives.endsPlainly {part : SumPart} (h : Derives part s) : EndsPlainly s := by
  induction h with
  | digits hs => exact endsPlainly_of_continuesWord hs.continuesWord hs.ne_nil
  | word hs => exact hs.endsPlainly
  | percent hs => exact hs.endsPlainly.append ['%']
  | @group before inner after hbefore hinner hafter ih =>
      exact endsPlainly_append_singleton (by decide) ('(' :: (before ++ inner ++ after))
  | plain hs ih => exact ih
  | negative hs ih => exact ih.append ['-']
  | single hs ih => exact ih
  | @operation first before after second op hfirst hbefore hop hafter hsecond hcomment ihfirst
      ihsecond => simpa using ihsecond.append (first ++ before ++ op :: after)

theorem Operand.endsPlainly (h : Operand s) : EndsPlainly s := by
  cases h with
  | @expr name body hname hbody =>
      simpa using endsPlainly_append_singleton (c := ')') (by decide) (name ++ '(' :: body)
  | sum hs => exact hs.endsPlainly

theorem IsNumber.endsPlainly (h : IsNumber s) : EndsPlainly s := by
  cases h with
  | plain hs => exact endsPlainly_of_continuesWord hs.continuesWord hs.ne_nil
  | negative hs =>
      exact (endsPlainly_of_continuesWord hs.continuesWord hs.ne_nil).append ['-']

theorem IsLiteral.endsPlainly (h : IsLiteral s) : EndsPlainly s := by
  obtain ⟨text, ⟨hbody⟩⟩ := h
  exact endsPlainly_append_singleton (c := '"') (by decide) ('"' :: _)

theorem IsKeyword.endsPlainly (h : IsKeyword s) : EndsPlainly s := by
  cases h with
  | plain hs => exact hs.endsPlainly
  | percent hs => exact hs.endsPlainly.append ['%']

theorem IsParenthesised.endsPlainly {α : Type} {item : List Char → Nat → α → Prop} {offset : Nat}
    {as : List α} (h : IsParenthesised item s offset as) : EndsPlainly s := by
  obtain ⟨hbefore, hinside, hafter⟩ := h
  rename_i before inside after
  simpa using endsPlainly_append_singleton (c := ')') (by decide)
    ('(' :: (before ++ (inside ++ after)))

theorem Comparison.IsWritten.endsPlainly {offset : Nat} {found : Comparison}
    (h : found.IsWritten s offset) : EndsPlainly s := by
  obtain ⟨hoperator, hgap, hoperand⟩ := h
  exact (hoperand.endsPlainly.append _).append _

theorem Clause.IsWritten.endsPlainly {offset : Nat} {found : Clause}
    (h : found.IsWritten s offset) : EndsPlainly s := by
  cases h with
  | answer hs => exact IsLiteral.endsPlainly hs
  | keyword hs =>
      obtain ⟨hkeyword, harguments, hfound⟩ := hs
      cases hfound with
      | some hgap hfound => exact ((hfound.endsPlainly.append _).append _).append _
      | none =>
          cases harguments with
          | some hgap harguments =>
              rw [List.append_nil]
              exact (harguments.endsPlainly.append _).append _
          | none => simpa using hkeyword.endsPlainly

theorem Value.IsWritten.endsPlainly {offset : Nat} {value : Value} (h : value.IsWritten s offset) :
    EndsPlainly s := by
  cases h with
  | quoted hs => exact IsLiteral.endsPlainly hs
  | number hs => exact hs.endsPlainly
  | word hs => exact hs.endsPlainly
  | call hname hgap harguments => exact (harguments.endsPlainly.append _).append _

/-- A chain ends where its last member ends, or in front of its first one. -/
theorem IsChain.endsPlainly {α : Type} {separator : List Char → Prop}
    {item : List Char → Nat → α → Prop} {offset : Nat} {as : List α}
    (hitem : ∀ {s offset a}, item s offset a → EndsPlainly s)
    (h : IsChain separator item s offset as) {t : List Char} (ht : EndsPlainly t) :
    EndsPlainly (t ++ s) := by
  induction h generalizing t with
  | nil => simpa using ht
  | @cons offset sep s others a as hsep ha has ih =>
      simpa using ih (t := t ++ (sep ++ s)) (((hitem ha).append sep).append t)

end Ends

/-! ### Blanks around a line -/

section Cuts

variable {u v s t gap ending : List Char}

/-- Blanks at the end of a text lie behind a part that ends plainly. -/
theorem EndsPlainly.cut_at_gap (hu : EndsPlainly u) (hgap : IsGap gap) (h : u ++ v = t ++ gap) :
    ∃ v', t = u ++ v' ∧ v = v' ++ gap := by
  rcases List.append_eq_append_iff.mp h with ⟨v', rfl, rfl⟩ | ⟨part, rfl, rfl⟩
  · exact ⟨v', rfl, rfl⟩
  · cases part with
    | nil => exact ⟨[], by simp, by simp⟩
    | cons c part =>
        obtain ⟨d, hd, hplain⟩ := hu
        have hmem : d ∈ c :: part := List.mem_of_getLast? (by simpa using hd)
        have hblank := hgap d (List.mem_append_left v hmem)
        simp [isSeparator, hblank] at hplain

/-- Blanks at the beginning of a text lie in front of what is not blank. -/
theorem IsGap.cut_at_front (hgap : IsGap gap) (hv : Spares isGap v) (h : gap ++ t = u ++ v) :
    ∃ u', u = gap ++ u' ∧ t = u' ++ v := by
  rcases List.append_eq_append_iff.mp h with ⟨u', rfl, rfl⟩ | ⟨part, rfl, rfl⟩
  · exact ⟨u', rfl, rfl⟩
  · cases part with
    | nil => exact ⟨[], by simp, by simp⟩
    | cons c part =>
        have hblank := hgap c (by simp)
        rw [hv c rfl] at hblank
        cases hblank

/-- The two minus signs of a comment are no blanks, so they stand in front of blanks at the end. -/
theorem IsEnding.of_append_gap (hgap : IsGap gap) (h : IsEnding (s ++ gap)) : IsEnding s := by
  have hminus : '-' ∉ gap := fun hmem => Bool.false_ne_true (hgap '-' hmem)
  generalize htext : s ++ gap = text at h
  cases h with
  | blank hblank =>
      subst htext
      exact .blank fun c hc => hblank c (List.mem_append_left gap hc)
  | @comment front hfront comment =>
      rcases List.append_eq_append_iff.mp htext with ⟨part, rfl, rfl⟩ | ⟨part, rfl, hpart⟩
      · exact absurd (by simp) hminus
      · match part, hpart with
        | [], hpart =>
            obtain rfl : '-' :: '-' :: comment = gap := by simpa using hpart
            exact absurd (by simp) hminus
        | [c], hpart =>
            obtain ⟨-, rfl⟩ : '-' = c ∧ '-' :: comment = gap := by simpa using hpart
            exact absurd (by simp) hminus
        | c :: d :: part, hpart =>
            obtain ⟨rfl, rfl, -⟩ : '-' = c ∧ '-' = d ∧ comment = part ++ gap := by
              simpa using hpart
            exact .comment hfront part

theorem IsTail.of_append_gap {separator : List Char → Prop} {offset : Nat} {clauses : List Clause}
    (hgap : IsGap gap) (h : IsTail separator (s ++ gap) offset clauses) :
    IsTail separator s offset clauses := by
  generalize htext : s ++ gap = text at h
  induction h generalizing s with
  | nil hs =>
      subst htext
      exact .nil (hs.of_append_gap hgap)
  | @cons _ offset sep t rest found others hsep hfound hstops hothers ih =>
      rw [← List.append_assoc] at htext
      obtain ⟨rest', rfl, rfl⟩ := (hfound.endsPlainly.append sep).cut_at_gap hgap htext.symm
      have hstops' : Stops t rest' := hstops.of_head? fun c hc _ => by
        simp [List.head?_append, hc]
      simpa using IsTail.cons hsep hfound hstops' (ih rfl)

theorem Assignment.IsWritten.of_append_gap {assignment : Assignment} (hgap : IsGap gap)
    (h : assignment.IsWritten (s ++ gap)) : assignment.IsWritten s := by
  generalize htext : s ++ gap = line at h
  obtain ⟨hstart, hkey, hlink, hvalues, hne, hending⟩ := h
  rename_i start key link text ending values
  have hplain : EndsPlainly (start ++ (key ++ (link ++ text))) := by
    cases hvalues with
    | nil => exact absurd rfl hne
    | cons ha has =>
        exact (((has.endsPlainly Value.IsWritten.endsPlainly ha.endsPlainly).append _).append
          _).append _
  obtain ⟨ending', rfl, rfl⟩ :=
    hplain.cut_at_gap (v := ending) hgap (by simpa using htext.symm)
  simpa using Assignment.IsWritten.intro hstart hkey hlink hvalues hne (hending.of_append_gap hgap)

theorem DialogueForm.IsSpelt.of_append_gap {form : DialogueForm} (hgap : IsGap gap)
    (h : form.IsSpelt (s ++ gap)) : form.IsSpelt s := by
  generalize htext : s ++ gap = line at h
  obtain ⟨hstart, htrigger, hbefore, hgap', htail⟩ := h
  rename_i start trigger before gap' tail conditions others
  have hplain : EndsPlainly (start ++ (trigger ++ (before ++ (gap' ++ ['-', '>'])))) :=
    ((((endsPlainly_append_singleton (by decide) ['-']).append _).append _).append _).append _
  obtain ⟨tail', rfl, rfl⟩ :=
    hplain.cut_at_gap (v := tail) hgap (by simpa using htext.symm)
  simpa using DialogueForm.IsSpelt.intro hstart htrigger hbefore hgap' (htail.of_append_gap hgap)

end Cuts

end NpcScript.Grammar
