import NpcScript.Proofs.Grammar.LastCharacter
import NpcScript.Proofs.Script.Clauses

/-!
Commas behind the arrow. A comma that separates two clauses may be left out for a blank: the line is
then read as the same form, so it adds the same statement and reports the same issues. What decides
is that a clause ends where its text ends, whatever separates it from the next one.
-/

namespace NpcScript

namespace Grammar

open Reader (isGap)
open Text (IsLiteral)

def Clause.column : Clause → Nat
  | .answer source => source.column
  | .keyword clause => clause.keyword.column

theorem Clause.IsWritten.column_eq {s : List Char} {offset : Nat} {found : Clause}
    (h : found.IsWritten s offset) : found.column = offset + 1 := by
  cases h with
  | answer hs => rfl
  | keyword hs =>
      obtain ⟨hkeyword, harguments, hfound⟩ := hs
      rfl

/-- The clauses of a tail stand in the tail. -/
theorem IsTail.lt_column {separator : List Char → Prop} {s : List Char} {offset : Nat}
    {clauses : List Clause} (h : IsTail separator s offset clauses) :
    ∀ clause ∈ clauses, offset < clause.column := by
  induction h with
  | nil hs => simp
  | cons hsep hfound hstops hothers ih =>
      intro clause hclause
      rcases List.mem_cons.mp hclause with rfl | hclause
      · rw [hfound.column_eq]
        omega
      · have hlt := ih clause hclause
        omega

section Commas

variable {front rest : List Char}

/-- A comma with only blanks behind it does not lie in a text that ends plainly. -/
theorem EndsPlainly.cut_at_comma {u v : List Char} (hu : EndsPlainly u)
    (h : u ++ v = front ++ ',' :: rest)
    (hlength : u.length ≤ front.length + 1 + (rest.takeWhile isGap).length) :
    ∃ front', front = u ++ front' ∧ v = front' ++ ',' :: rest := by
  rcases List.append_eq_append_iff.mp h with ⟨front', rfl, rfl⟩ | ⟨part, rfl, hpart⟩
  · exact ⟨front', rfl, rfl⟩
  · cases part with
    | nil => exact ⟨[], by simp, by simpa using hpart.symm⟩
    | cons c part =>
        -- The text would end in the comma or in one of the blanks behind it.
        obtain ⟨rfl, rfl⟩ : ',' = c ∧ rest = part ++ v := by simpa using hpart
        exfalso
        have hgaps : part <+: (part ++ v).takeWhile isGap := by
          refine List.prefix_of_prefix_length_le (List.prefix_append part v)
            (List.takeWhile_prefix isGap) ?_
          simp only [List.length_append, List.length_cons] at hlength
          omega
        obtain ⟨d, hd, hplain⟩ := hu
        have hmem : d ∈ ',' :: part := List.mem_of_getLast? (by simpa using hd)
        rcases List.mem_cons.mp hmem with rfl | hmem
        · cases hplain
        · have hgap := isGap_takeWhile (part ++ v) d (hgaps.subset hmem)
          simp [isSeparator, hgap] at hplain

/-- A separator with a comma in it is one with a blank in place of the comma. -/
theorem IsLooseBreak.isGap_of_comma {gap : List Char} (h : IsLooseBreak (front ++ ',' :: gap)) :
    IsGap (front ++ ' ' :: gap) := by
  have hcomma {s : List Char} (hs : IsGap s) (hmem : ',' ∈ s) : False := by
    cases hs ',' hmem
  -- A separator has at most one comma, so there are blanks on either side of this one.
  suffices hsides : IsGap front ∧ IsGap gap by
    exact hsides.1.append (isGap_space.append hsides.2)
  generalize htext : front ++ ',' :: gap = text at h
  cases h with
  | blank hs => exact (hcomma hs (by simp [← htext])).elim
  | comma hs =>
      obtain ⟨hbefore, hafter⟩ := hs
      rcases List.append_eq_append_iff.mp htext with ⟨part, rfl, hpart⟩ | ⟨part, rfl, hpart⟩
      · cases part with
        | nil => exact ⟨by simpa using hbefore, by simp_all⟩
        | cons c part =>
            obtain ⟨rfl, -⟩ : ',' = c ∧ _ := by simpa using hpart
            exact (hcomma hbefore (by simp)).elim
      · cases part with
        | nil => exact ⟨by simpa using hbefore, by simp_all⟩
        | cons c part =>
            obtain ⟨rfl, rfl⟩ : ',' = c ∧ _ = part ++ ',' :: gap := by simpa using hpart
            exact (hcomma hafter (by simp)).elim

theorem Stops.space_of_comma {s : List Char} (h : Stops s (front ++ ',' :: rest)) :
    Stops s (front ++ ' ' :: rest) := by
  refine h.of_head? fun c hc hword => ?_
  cases front with
  | nil =>
      cases hc
      cases hword
  | cons d front => exact hc

/-- In a tail the comma in front of a clause may be a blank, if this is not the first clause behind
the arrow. -/
theorem IsTail.space_of_comma {separator : List Char → Prop} {s : List Char} {offset : Nat}
    {clauses others : List Clause} {second : Clause}
    (h : IsTail separator s offset (clauses ++ second :: others))
    (hsep : clauses = [] → separator = IsLooseBreak) (hs : s = front ++ ',' :: rest)
    (hcolumn : second.column = offset + front.length + 1 + (rest.takeWhile isGap).length + 1) :
    IsTail separator (front ++ ' ' :: rest) offset (clauses ++ second :: others) := by
  induction clauses generalizing separator s offset front with
  | nil =>
      obtain rfl := hsep rfl
      cases h with
      | @cons _ _ sep t behind _ _ hloose hfound hstops hothers =>
          have hlength : sep.length = (front ++ ',' :: rest.takeWhile isGap).length := by
            rw [hfound.column_eq] at hcolumn
            simp only [List.length_append, List.length_cons]
            omega
          have hcut : front ++ ',' :: rest =
              front ++ ',' :: rest.takeWhile isGap ++ rest.dropWhile isGap := by simp
          obtain ⟨rfl, hbehind⟩ := List.append_inj (hs.trans hcut) hlength
          have htext : front ++ ' ' :: rest =
              front ++ ' ' :: rest.takeWhile isGap ++ (t ++ behind) := by simp [hbehind]
          have hsame : (front ++ ' ' :: rest.takeWhile isGap).length =
              (front ++ ',' :: rest.takeWhile isGap).length := by simp
          rw [← hsame] at hfound hothers
          rw [htext]
          exact .cons (.blank hloose.isGap_of_comma) hfound hstops hothers
  | cons first clauses ih =>
      cases h with
      | @cons _ _ sep t behind _ _ hsep' hfound hstops hothers =>
          have hlt := hothers.lt_column second (by simp)
          rw [← List.append_assoc] at hs
          obtain ⟨front', rfl, rfl⟩ := (hfound.endsPlainly.append sep).cut_at_comma hs
            (by rw [List.length_append]; omega)
          have hothers := ih hothers (fun _ => rfl) rfl (by
            simp only [List.length_append] at hcolumn
            omega)
          simpa using IsTail.cons hsep' hfound hstops.space_of_comma hothers

end Commas

/-- Behind `front`, a comma and the blanks at the front of `rest` stands a clause that is not the
first one behind the arrow. -/
def DialogueForm.IsSeparatedAt (form : DialogueForm) (front rest : List Char) : Prop :=
  ∃ second ∈ form.after.tail,
    second.column = front.length + 1 + (rest.takeWhile isGap).length + 1

/-- A comma that separates two clauses behind the arrow may be a blank. -/
theorem DialogueForm.IsSpelt.space_of_comma {form : DialogueForm} {front rest : List Char}
    (h : form.IsSpelt (front ++ ',' :: rest)) (hsep : form.IsSeparatedAt front rest) :
    form.IsSpelt (front ++ ' ' :: rest) := by
  generalize hline : front ++ ',' :: rest = line at h
  obtain ⟨hstart, htrigger, hbefore, hgap, htail⟩ := h
  rename_i start trigger before gap tail conditions others
  obtain ⟨second, hsecond, hcolumn⟩ := hsep
  obtain ⟨first, clauses, behind, rfl⟩ :
      ∃ first clauses behind, others = (first :: clauses) ++ second :: behind := by
    cases others with
    | nil => cases hsecond
    | cons first others =>
        obtain ⟨clauses, behind, hothers⟩ := List.append_of_mem hsecond
        exact ⟨first, clauses, behind, by simpa using hothers⟩
  have hlt := htail.lt_column second (by simp)
  -- The comma stands behind the arrow, since only blanks are between it and the second clause.
  have harrow : EndsPlainly (start ++ (trigger ++ (before ++ (gap ++ ['-', '>'])))) :=
    ((((endsPlainly_append_singleton (by decide) ['-']).append _).append _).append _).append _
  obtain ⟨front', rfl, rfl⟩ := harrow.cut_at_comma (v := tail) (by simpa using hline.symm) (by
    simp only [List.length_append, List.length_cons, List.length_nil]
    omega)
  have htail' := htail.space_of_comma (by simp) rfl (by
    simp only [List.length_append, List.length_cons, List.length_nil] at hcolumn
    omega)
  simpa using DialogueForm.IsSpelt.intro hstart htrigger hbefore hgap htail'

end Grammar

open Grammar (DialogueForm)

/-- A comma between two clauses behind the arrow does not count: with a blank in its place the line
is accepted as well, adds the same dialogue line and reports the same issues, columns included. -/
theorem Scanner.feed_space_eq_comma {line line' : SourceLine} {form : DialogueForm}
    {front rest : List Char} (hline : line.text.toList = front ++ ',' :: rest)
    (hline' : line'.text.toList = front ++ ' ' :: rest) (hnumber : line'.number = line.number)
    (hform : DialogueForm.ofLine line.text.toList = .ok form)
    (hsep : form.IsSeparatedAt front rest) :
    DialogueForm.ofLine line'.text.toList = .ok form ∧ ∀ context document state,
      feed context ⟨document, state⟩ line' = feed context ⟨document, state⟩ line := by
  have hform' : DialogueForm.ofLine line'.text.toList = .ok form := by
    rw [hline, DialogueForm.ofLine_iff_isSpelt] at hform
    rw [hline', DialogueForm.ofLine_iff_isSpelt]
    exact hform.space_of_comma hsep
  refine ⟨hform', fun context document state => ?_⟩
  rw [feed_of_ofLine hform', feed_of_ofLine hform, hnumber]

/-- Without its comma `"hi" -> money += 2 * %number, introduce` has the same two clauses. -/
theorem Scanner.feed_space_eq_comma_introduce :
    let line : SourceLine := ⟨1, "\"hi\" -> money += 2 * %number, introduce"⟩
    let line' : SourceLine := ⟨1, "\"hi\" -> money += 2 * %number  introduce"⟩
    ∃ form : DialogueForm, DialogueForm.ofLine line'.text.toList = .ok form ∧
      form.after.map Grammar.Clause.column = [9, 31] ∧ ∀ context document state,
        feed context ⟨document, state⟩ line' = feed context ⟨document, state⟩ line := by
  intro line line'
  let money : Grammar.KeywordClause :=
    ⟨⟨9, "money".toList⟩, none, some ⟨⟨15, "+=".toList⟩, ⟨18, "2 * %number".toList⟩⟩⟩
  let introduce : Grammar.KeywordClause := ⟨⟨31, "introduce".toList⟩, none, none⟩
  let form : DialogueForm := ⟨⟨1, "\"hi\"".toList⟩, [], [.keyword money, .keyword introduce]⟩
  let front : List Char := "\"hi\" -> money += 2 * %number".toList
  let rest : List Char := " introduce".toList
  have hline : line.text.toList = front ++ ',' :: rest := by decide +kernel
  have hline' : line'.text.toList = front ++ ' ' :: rest := by decide +kernel
  have hform : DialogueForm.ofLine line.text.toList = .ok form := by decide +kernel
  have hsep : form.IsSeparatedAt front rest :=
    ⟨.keyword introduce, List.mem_singleton.mpr rfl, by decide +kernel⟩
  obtain ⟨hform', hfeed⟩ := feed_space_eq_comma hline hline' rfl hform hsep
  exact ⟨form, hform', rfl, hfeed⟩

end NpcScript
