import NpcScript.Proofs.Grammar.Clause

/-!
The text of dialogue lines. `IsWritten` says which texts a line can be written as; beside the blanks
between tokens a writer chooses the separators between the clauses behind the arrow and a comment at
the end. Lines are read as they are written in this sense. The reader does not insist on a separator
between two clauses behind the arrow: `IsSpelt` says which lines it accepts, and what it reads them
as.
-/

namespace NpcScript.Grammar

open Reader
open Text (IsLiteral Denotes)

/-- What separates the clauses behind the arrow: a comma, or at least one blank. -/
inductive IsBreak : List Char → Prop
  | comma {s : List Char} (hs : IsMark ',' s) : IsBreak s
  | blank {s : List Char} (hs : IsGap s) (hne : s ≠ []) : IsBreak s

/-- What the reader accepts between the clauses behind the arrow. -/
inductive IsLooseBreak : List Char → Prop
  | comma {s : List Char} (hs : IsMark ',' s) : IsLooseBreak s
  | blank {s : List Char} (hs : IsGap s) : IsLooseBreak s

/-- The lines that a dialogue line can be written as, given what may separate the clauses behind the
arrow. -/
inductive DialogueForm.IsWritten (separator : List Char → Prop) : List Char → DialogueForm → Prop
  | intro {start trigger before gap gap' after ending : List Char} {conditions others : List Clause}
      (hstart : IsGap start) (htrigger : IsLiteral trigger)
      (hbefore : IsChain (IsMark ',') Clause.IsWritten before
        (start.length + trigger.length) conditions)
      (hgap : IsGap gap) (hgap' : IsGap gap')
      (hafter : IsRow separator Clause.IsWritten after
        (start.length + trigger.length + before.length + gap.length + 2 + gap'.length) others)
      (hending : IsEnding ending) :
      IsWritten separator
        (start ++ (trigger ++ (before ++ (gap ++ '-' :: '>' :: (gap' ++ (after ++ ending))))))
        ⟨⟨start.length + 1, trigger⟩, conditions, others⟩

/-- What stands behind the arrow of a line that is accepted: the clauses and the end of the line.
The last word or number of a clause does not go on behind it. Between clauses a separator may be
missing. -/
inductive IsTail : (List Char → Prop) → List Char → Nat → List Clause → Prop
  | nil {separator : List Char → Prop} {offset : Nat} {s : List Char} (hs : IsEnding s) :
      IsTail separator s offset []
  | cons {separator : List Char → Prop} {offset : Nat} {sep s rest : List Char} {found : Clause}
      {others : List Clause} (hsep : separator sep)
      (hfound : found.IsWritten s (offset + sep.length)) (hstops : Stops s rest)
      (hothers : IsTail IsLooseBreak rest (offset + sep.length + s.length) others) :
      IsTail separator (sep ++ (s ++ rest)) offset (found :: others)

inductive DialogueForm.IsSpelt : List Char → DialogueForm → Prop
  | intro {start trigger before gap tail : List Char} {conditions others : List Clause}
      (hstart : IsGap start) (htrigger : IsLiteral trigger)
      (hbefore : IsChain (IsMark ',') Clause.IsWritten before
        (start.length + trigger.length) conditions)
      (hgap : IsGap gap)
      (htail : IsTail IsGap tail
        (start.length + trigger.length + before.length + gap.length + 2) others) :
      IsSpelt (start ++ (trigger ++ (before ++ (gap ++ '-' :: '>' :: tail))))
        ⟨⟨start.length + 1, trigger⟩, conditions, others⟩

/-! ### Tails -/

theorem IsLooseBreak.append {sep gap : List Char} (hgap : IsGap gap) (hsep : IsLooseBreak sep) :
    IsLooseBreak (gap ++ sep) := by
  cases hsep with
  | comma hs => exact .comma (hs.append hgap)
  | blank hs => exact .blank (hgap.append hs)

theorem IsLooseBreak.of_parts {before comma after : List Char} (hbefore : IsGap before)
    (hcomma : comma = [] ∨ comma = [',']) (hafter : IsGap after) :
    IsLooseBreak (before ++ (comma ++ after)) := by
  rcases hcomma with rfl | rfl
  · exact .blank (hbefore.append hafter)
  · exact .comma (.intro hbefore hafter)

section Tails

variable {separator : List Char → Prop} {offset : Nat} {s rest : List Char} {clauses : List Clause}

/-- Blanks in front of a tail belong to the separator of its first clause, or to its end. -/
theorem IsTail.append {gap : List Char} (hgap : IsGap gap)
    (hsep : ∀ sep, separator sep → separator (gap ++ sep))
    (h : IsTail separator s (offset + gap.length) clauses) :
    IsTail separator (gap ++ s) offset clauses := by
  cases h with
  | nil hs => exact .nil (hs.append hgap)
  | cons hs hfound hstops hothers =>
      rw [← List.append_assoc]
      refine .cons (hsep _ hs) ?_ hstops ?_
      · rwa [List.length_append, ← Nat.add_assoc]
      · rwa [List.length_append, ← Nat.add_assoc]

/-- A clause that was cut off in front of one text stands as well in front of another one, if the
clause goes on with neither. -/
theorem IsTail.of_cutOff {sep u : List Char} {found : Clause} {others : List Clause}
    (hsep : separator sep)
    (hfound : IsCutOff Clause.IsWritten s (offset + sep.length) found rest)
    (hstarts : StartsAs rest u)
    (hothers : IsTail IsLooseBreak u (offset + sep.length + s.length) others) :
    IsTail separator (sep ++ (s ++ u)) offset (found :: others) := by
  obtain ⟨t, gap, rfl, hfound, hgap, hstops⟩ := hfound
  have htail : IsTail IsLooseBreak (gap ++ u) (offset + sep.length + t.length) others := by
    refine IsTail.append hgap (fun _ hsep => hsep.append hgap) ?_
    simpa [Nat.add_assoc] using hothers
  simpa using IsTail.cons hsep hfound (hstops.of_head? (hstarts.append gap)) htail

/-- Blanks and a comment may be added to any tail. -/
theorem IsTail.append_ending {ending : List Char} (h : IsTail separator s offset clauses)
    (hending : IsEnding ending) : IsTail separator (s ++ ending) offset clauses := by
  induction h with
  | nil hs => exact .nil (hs.append_ending hending)
  | cons hsep hfound hstops hothers ih =>
      simpa using IsTail.cons hsep hfound (hstops.append_right hending.endsPiece.spares) ih

/-- Nothing in a tail continues the clause in front of it, unless it is the rest of a word. -/
theorem IsTail.isNext (h : IsTail IsLooseBreak s offset clauses) :
    IsNext (s.dropWhile isGap) := by
  cases h with
  | nil hs => exact hs.endsPiece.next
  | cons hsep hfound hstops hothers =>
      have hnext := hfound.isNext
      cases hsep with
      | comma hs => exact (hs.endsPiece _).next
      | blank hs =>
          rw [dropWhile_append_of_spares hs (hnext _).spares_isGap]
          exact hnext _

/-- A tail is made of the clauses with separators between them, and of the end of the line. -/
theorem IsTail.exists_isChain (h : IsTail IsLooseBreak s offset clauses) :
    ∃ others ending, s = others ++ ending ∧
      IsChain IsLooseBreak Clause.IsWritten others offset clauses ∧ IsEnding ending := by
  generalize hsep : IsLooseBreak = separator at h
  induction h with
  | nil hs => exact ⟨[], _, rfl, .nil, hs⟩
  | cons hs hfound hstops hothers ih =>
      subst hsep
      obtain ⟨others, ending, rfl, hchain, hending⟩ := ih rfl
      exact ⟨_, ending, by simp, .cons hs hfound hchain, hending⟩

theorem IsTail.exists_isRow (h : IsTail IsGap s offset clauses) :
    ∃ gap after ending, s = gap ++ (after ++ ending) ∧ IsGap gap ∧
      IsRow IsLooseBreak Clause.IsWritten after (offset + gap.length) clauses ∧
      IsEnding ending := by
  cases h with
  | nil hs => exact ⟨[], [], _, rfl, isGap_nil, .nil, hs⟩
  | cons hsep hfound hstops hothers =>
      obtain ⟨others, ending, rfl, hchain, hending⟩ := hothers.exists_isChain
      exact ⟨_, _, ending, by simp, hsep, .cons hfound hchain, hending⟩

theorem IsBehind.endsPiece_of_isBreak {clause : Clause}
    (h : IsBehind IsBreak Clause.IsWritten s offset clause) (rest : List Char) :
    EndsPiece (s ++ rest) := by
  obtain ⟨hsep, hclause⟩ := h
  rw [List.append_assoc]
  cases hsep with
  | comma hs => exact hs.endsPiece _
  | blank hs hne => exact (hclause.isNext rest).endsPiece hs (.inl hne)

/-- Where clauses are separated, none goes on behind its end. -/
theorem IsChain.isTail (h : IsChain IsBreak Clause.IsWritten s offset clauses)
    (hrest : IsEnding rest) : IsTail IsLooseBreak (s ++ rest) offset clauses := by
  induction h with
  | nil => exact .nil hrest
  | cons hsep hfound hothers ih =>
      have hspares := (endsPiece_of_isChain IsBehind.endsPiece_of_isBreak hothers
        hrest.endsPiece).spares
      rw [List.append_assoc, List.append_assoc]
      refine .cons ?_ hfound (hspares.stops _) ih
      cases hsep with
      | comma hs => exact .comma hs
      | blank hs hne => exact .blank hs

theorem IsRow.isTail {gap : List Char} (hgap : IsGap gap)
    (h : IsRow IsBreak Clause.IsWritten s (offset + gap.length) clauses) (hrest : IsEnding rest) :
    IsTail IsGap (gap ++ (s ++ rest)) offset clauses := by
  cases h with
  | nil => exact .nil (hrest.append hgap)
  | cons hfound hothers =>
      have hspares := (endsPiece_of_isChain IsBehind.endsPiece_of_isBreak hothers
        hrest.endsPiece).spares
      rw [List.append_assoc]
      exact .cons hgap hfound (hspares.stops _) (hothers.isTail hrest)

end Tails

theorem DialogueForm.IsWritten.isSpelt {line : List Char} {form : DialogueForm}
    (h : form.IsWritten IsBreak line) : form.IsSpelt line := by
  obtain ⟨hstart, htrigger, hbefore, hgap, hgap', hafter, hending⟩ := h
  exact .intro hstart htrigger hbefore hgap (hafter.isTail hgap' hending)

theorem DialogueForm.IsSpelt.isWritten {line : List Char} {form : DialogueForm}
    (h : form.IsSpelt line) : form.IsWritten IsLooseBreak line := by
  obtain ⟨hstart, htrigger, hbefore, hgap, htail⟩ := h
  obtain ⟨gap', after, ending, rfl, hgap', hafter, hending⟩ := htail.exists_isRow
  exact .intro hstart htrigger hbefore hgap hgap' hafter hending

theorem DialogueForm.IsSpelt.append_ending {line ending : List Char} {form : DialogueForm}
    (h : form.IsSpelt line) (hending : IsEnding ending) : form.IsSpelt (line ++ ending) := by
  obtain ⟨hstart, htrigger, hbefore, hgap, htail⟩ := h
  simpa using DialogueForm.IsSpelt.intro hstart htrigger hbefore hgap (htail.append_ending hending)

/-! ### What is read is spelt so -/

theorem clause_spells_isTrailed (offset : Nat) (text : List Char) :
    Spells clause offset text fun s found _ => IsTrailed Clause.IsWritten s offset found := by
  refine (clause_spells offset text).mono fun s found rest hs => ?_
  obtain ⟨t, gap, hs, hfound, hgap, -⟩ := hs
  exact ⟨t, gap, hs, hfound, hgap⟩

theorem clausesBefore_spells (offset : Nat) (text : List Char) :
    Spells clausesBefore offset text fun s found _ =>
      IsTrailed (IsChain (IsMark ',') Clause.IsWritten) s offset found :=
  (Spells.many fun _ _ => .behindComma clause_spells_isTrailed).mono fun _ _ _ h =>
    h.of_trailed fun _ _ hgap hsep => hsep.append hgap

/-- One more clause behind the arrow makes a longer tail, also of another text than the one that
stands behind the clause. -/
theorem behindBreak_spells (offset : Nat) (text : List Char) :
    Spells (do blanks; let _ ← maybe (mark ','); blanks; clause) offset text fun s found rest =>
      ∀ u others, StartsAs rest u → IsTail IsLooseBreak u (offset + s.length) others →
        IsTail IsLooseBreak (s ++ u) offset (found :: others) := by
  refine .bind .blanks fun before _ _ hbefore => ?_
  refine .bind (.maybeMark ',') fun comma _ _ hcomma => ?_
  refine .bind .blanks fun after _ _ hafter => ?_
  refine (clause_spells _ _).mono fun s found rest hs u others hstarts hothers => ?_
  have hoffset : offset + before.length + comma.length + after.length =
      offset + (before ++ (comma ++ after)).length := by
    simp only [List.length_append]
    omega
  rw [hoffset] at hs
  have htail := IsTail.of_cutOff (IsLooseBreak.of_parts hbefore hcomma hafter) hs hstarts
    (by simpa [Nat.add_assoc] using hothers)
  simpa using htail

theorem clausesAfter_spells (offset : Nat) (text : List Char) :
    Spells clausesAfter offset text fun s found rest =>
      IsEnding rest → IsTail IsGap (s ++ rest) offset found := by
  refine .bind (clause_spells offset text) fun s first _ hfirst => ?_
  refine .bind (.cut (.many_of fun offset text => (behindBreak_spells offset text).mono
    fun _ _ rest hs others => hs rest others (.refl rest))) fun u others rest hothers =>
    .pure fun hrest => ?_
  obtain ⟨rfl, hothers⟩ := hothers
  have htail : IsTail IsGap ([] ++ (s ++ (u ++ rest))) offset (first :: others) :=
    .of_cutOff isGap_nil hfirst (.refl _) (hothers (.nil hrest))
  simpa using htail

theorem dialogueForm_isSpelt (line : List Char) :
    Spells dialogueForm 0 line fun s form rest => form.IsSpelt s ∧ rest = [] := by
  refine .bind .blanks fun start _ _ hstart => ?_
  refine .bind (.lexeme fun _ _ => literalLexer_sound) fun trigger found _ htrigger => ?_
  obtain ⟨rfl, htrigger, -⟩ := htrigger
  refine .bind (clausesBefore_spells _ _) fun s conditions _ hconditions => ?_
  obtain ⟨before, gap, rfl, hbefore, hgap⟩ := hconditions
  refine .bind .blanks fun gap' _ _ hgap' => ?_
  refine .bind (.lexeme fun _ _ => arrowLexer_sound) fun arrow _ _ harrow => ?_
  obtain ⟨-, rfl, -⟩ := harrow
  refine .bind .blanks fun between _ _ hbetween => ?_
  refine .bind (.maybe
    (fun s found rest => IsEnding rest → IsTail IsGap (s ++ rest) _ (found.getD []))
    (clausesAfter_spells _ _) .nil) fun s others _ hothers => ?_
  refine (Spells.ending _).cut.mono fun ending form _ h => ?_
  obtain ⟨rfl, rfl, hending, rfl⟩ := h
  rw [List.append_nil] at hothers
  have htail := (hothers hending).append hbetween fun _ hsep => hbetween.append hsep
  have hoffset : start.length + trigger.length + (before ++ gap).length + gap'.length +
      ['-', '>'].length =
      start.length + trigger.length + before.length + (gap ++ gap').length + 2 := by
    simp only [List.length_append, List.length_cons, List.length_nil]
    omega
  rw [Nat.zero_add] at hbefore htail
  rw [hoffset] at htail
  have hspelt := DialogueForm.IsSpelt.intro hstart htrigger hbefore (hgap.append hgap') htail
  rw [Nat.zero_add]
  simpa using hspelt

/-! ### What is spelt so is read -/

section Clauses

variable {offset : Nat} {s rest : List Char} {clauses : List Clause} {cursor : Cursor}

theorem clausesBefore_reads (h : IsChain (IsMark ',') Clause.IsWritten s offset clauses)
    (hrest : EndsPiece rest) (hcomma : (rest.dropWhile isGap).head? ≠ some ',') :
    ∃ last, Reads clausesBefore ⟨offset, s ++ rest⟩ clauses last ∧
      SkipsBlanks ⟨offset + s.length, rest⟩ last := by
  have hpiece :=
    (clause_takes (s.length + rest.length + 1)).behindComma Clause.IsWritten.startsPiece
  refine Reads.many hpiece Clause.IsWritten.startsPiece ?_ h hrest ?_ (Nat.lt_succ_self _) (.refl _)
  · rintro offset s clause ⟨hsep, hclause⟩ rest
    rw [List.append_assoc]
    exact hsep.endsPiece _
  · intro offset cursor hcursor
    refine (Reads.blanks cursor).bind_misses (Misses.bind (Misses.mark ?_))
    rw [hcursor.settle_eq]
    exact hcomma

/-- One more clause behind the arrow, with what separates it from the clause in front of it. -/
theorem behindBreak_reads {sep : List Char} {found : Clause} (hsep : IsLooseBreak sep)
    (hfound : found.IsWritten s (offset + sep.length)) (hrest : EndsBefore s rest)
    (hcursor : SkipsBlanks ⟨offset, sep ++ (s ++ rest)⟩ cursor) :
    ∃ last, Reads (do blanks; let _ ← maybe (mark ','); blanks; clause) cursor found last ∧
      SkipsBlanks ⟨offset + sep.length + s.length, rest⟩ last := by
  have hstart := hfound.startsPiece.append rest
  have hmark : IsMark ',' sep ∨ IsGap sep := by
    cases hsep with
    | comma hs => exact .inl hs
    | blank hs => exact .inr hs
  obtain ⟨comma, middle, hcomma, hmiddle⟩ := maybeMark_reads hmark (by decide)
    hstart.spares_isGap (hstart.head_ne (by decide) (by decide)) offset
  obtain ⟨last, hreads, hlast⟩ := clause_reads hfound hrest
  refine ⟨last, ?_, hlast⟩
  refine (Reads.blanks cursor).bind ?_
  rw [hcursor.settle_eq]
  refine hcomma.bind ((Reads.blanks middle).bind ?_)
  rw [hmiddle]
  exact hreads

theorem clause_misses_ending (hrest : IsEnding rest) :
    Misses clause (Cursor.settle ⟨offset, rest⟩) := by
  rcases hrest.dropWhile_eq with hs | ⟨text, hs⟩
  · exact clause_misses (by simp [hs]) (by simp only [hs]; rfl)
  · exact clause_misses (by simp [hs]) (by simp only [hs]; rfl)

theorem behindBreak_misses_ending (hrest : IsEnding rest)
    (hcursor : SkipsBlanks ⟨offset, rest⟩ cursor) :
    Misses (do blanks; let _ ← maybe (mark ','); blanks; clause) cursor := by
  refine (Reads.blanks cursor).bind_misses ?_
  rw [hcursor.settle_eq]
  refine (Misses.maybe (Misses.mark hrest.head?_dropWhile_ne)).bind_misses ?_
  refine (Reads.blanks _).bind_misses ?_
  rw [(SkipsBlanks.settle ⟨offset, rest⟩).settle_eq]
  exact clause_misses_ending hrest

inductive IsAtEnding : Cursor → Prop
  | intro {offset : Nat} {ending : List Char} {cursor : Cursor} (hending : IsEnding ending)
      (hcursor : SkipsBlanks ⟨offset, ending⟩ cursor) : IsAtEnding cursor

/-- The clauses of a tail are read one after another, up to the end of the line. -/
theorem IsTail.collect_eq (h : IsTail IsLooseBreak s offset clauses)
    (hcursor : SkipsBlanks ⟨offset, s⟩ cursor) :
    ∃ last missed,
      collect (do blanks; let _ ← maybe (mark ','); blanks; clause) cursor =
        (clauses, last, missed) ∧ IsAtEnding last := by
  generalize hsep : IsLooseBreak = separator at h
  induction h generalizing cursor with
  | nil hs =>
      obtain ⟨missed, hmissed⟩ := collect_of_misses (behindBreak_misses_ending hs hcursor)
      exact ⟨cursor, missed, hmissed, .intro hs hcursor⟩
  | @cons _ offset sep s rest found others hs hfound hstops hothers ih =>
      subst hsep
      obtain ⟨middle, hreads, hmiddle⟩ :=
        behindBreak_reads hs hfound ⟨hstops, hothers.isNext⟩ hcursor
      obtain ⟨last, missed, hcollect, hlast⟩ := ih hmiddle rfl
      have hlt : middle.rest.length < cursor.rest.length := by
        obtain ⟨c, hc, hgap⟩ := hfound.startsPiece.exists_not_isGap
        rw [← List.append_assoc] at hcursor
        exact Nat.lt_of_le_of_lt hmiddle.length_le
          (hcursor.length_lt (c := c) (by simp [hc]) hgap)
      obtain ⟨missed', hcollect⟩ := collect_of_reads hreads hlt hcollect
      exact ⟨last, missed', hcollect, hlast⟩

theorem IsTail.reads (h : IsTail IsGap s offset clauses) :
    ∃ found last, Reads (maybe clausesAfter) (Cursor.settle ⟨offset, s⟩) found last ∧
      found.getD [] = clauses ∧ IsAtEnding last := by
  cases h with
  | nil hs =>
      exact ⟨none, _, Misses.maybe (Misses.bind (clause_misses_ending hs)), rfl,
        .intro hs (.settle _)⟩
  | @cons _ _ gap s rest found others hgap hfound hstops hothers =>
      obtain ⟨middle, hreads, hmiddle⟩ := clause_reads hfound ⟨hstops, hothers.isNext⟩
      obtain ⟨last, missed, hcollect, hlast⟩ := hothers.collect_eq hmiddle
      have hmany : Reads (many do blanks; let _ ← maybe (mark ','); blanks; clause) middle others
          last := by
        show (Reader.many _ middle).result = _
        rw [Reader.many, hcollect]
      have hafter : Reads clausesAfter ⟨offset + gap.length, s ++ rest⟩ (found :: others) last :=
        hreads.bind (hmany.bind (.pure _ _))
      refine ⟨some (found :: others), last, ?_, rfl, hlast⟩
      rw [Cursor.settle_append hgap (hfound.startsPiece.append rest).spares_isGap]
      exact hafter.maybe

end Clauses

theorem DialogueForm.IsSpelt.reads {line : List Char} {form : DialogueForm}
    (h : form.IsSpelt line) : ∃ last, Reads dialogueForm ⟨0, line⟩ form last := by
  obtain ⟨hstart, htrigger, hbefore, hgap, htail⟩ := h
  rename_i start trigger before gap tail conditions others
  have htrigger' := ((IsLiteral.startsPiece htrigger).append
    (before ++ (gap ++ '-' :: '>' :: tail))).spares_isGap
  have harrow : Spares isGap ('-' :: '>' :: tail) := spares_cons_iff.mpr (by decide)
  have hends : EndsPiece (gap ++ '-' :: '>' :: tail) :=
    (IsNext.arrow _).endsPiece hgap (.inr (spares_cons_iff.mpr (by decide)))
  have hcomma : ((gap ++ '-' :: '>' :: tail).dropWhile isGap).head? ≠ some ',' := by
    rw [dropWhile_append_of_spares hgap harrow]
    simp
  obtain ⟨middle, hconditions, hmiddle⟩ := clausesBefore_reads hbefore hends hcomma
  obtain ⟨found, behind, hfound, rfl, hending, hbehind⟩ := htail.reads
  obtain ⟨last, hlast⟩ := Reads.ending hending hbehind
    (DialogueForm.mk ⟨start.length + 1, trigger⟩ conditions (found.getD []))
  refine ⟨last, (Reads.blanks _).bind ?_⟩
  rw [Cursor.settle_append hstart htrigger', Nat.zero_add]
  refine (Reads.lexeme (literalLexer_append htrigger _)).bind ?_
  refine hconditions.bind ?_
  refine (Reads.blanks middle).bind ?_
  rw [hmiddle.settle_eq_of_spares hgap harrow]
  have harrow' : Reads (lexeme arrowLexer)
      ⟨start.length + trigger.length + before.length + gap.length, ['-', '>'] ++ tail⟩ _ _ :=
    Reads.lexeme rfl
  exact harrow'.bind ((Reads.blanks _).bind (hfound.bind hlast))

/-- The accepted lines are those that are spelt as dialogue lines, and a line is spelt as nothing
but what it is read as. -/
theorem DialogueForm.ofLine_iff_isSpelt {line : List Char} {form : DialogueForm} :
    ofLine line = .ok form ↔ form.IsSpelt line := by
  constructor
  · intro h
    obtain ⟨s, rest, rfl, hspelt, rfl⟩ := (dialogueForm_isSpelt line).run h
    rwa [List.append_nil]
  · intro h
    obtain ⟨last, hreads⟩ := h.reads
    exact hreads.run

theorem DialogueForm.IsWritten.ofLine {line : List Char} {form : DialogueForm}
    (h : form.IsWritten IsBreak line) : DialogueForm.ofLine line = .ok form :=
  ofLine_iff_isSpelt.mpr h.isSpelt

theorem DialogueForm.isWritten_of_ofLine {line : List Char} {form : DialogueForm}
    (h : ofLine line = .ok form) : form.IsWritten IsLooseBreak line :=
  (ofLine_iff_isSpelt.mp h).isWritten

theorem DialogueForm.IsWritten.denotes {separator : List Char → Prop} {line : List Char}
    {form : DialogueForm} (h : form.IsWritten separator line) :
    Denotes form.trigger.text (Text.unquote form.trigger.text) := by
  obtain ⟨hstart, ⟨text, htext⟩, hbefore, hgap, hgap', hafter, hending⟩ := h
  rwa [Text.unquote_of_denotes htext]

/-- Dialogue lines are read exactly. Whatever the blanks, separators and comment that a line is
written with, the reader comes to the trigger and the clauses that it was written from, and there
are no other lines than these, separators behind the arrow apart, that it accepts. What may stand as
an operand is what the lexer for operands takes up in full. -/
theorem DialogueForm.ofLine_exact {line : List Char} {form : DialogueForm} :
    (form.IsWritten IsBreak line →
      ofLine line = .ok form ∧ Denotes form.trigger.text (Text.unquote form.trigger.text)) ∧
    (ofLine line = .ok form → form.IsWritten IsLooseBreak line) ∧
    ∀ s, Operand s ↔ operandLexer s = some [] :=
  ⟨fun h => ⟨h.ofLine, h.denotes⟩, isWritten_of_ofLine, fun _ => Operand.iff_operandLexer⟩

/-- The line `"hi", item(23, all >= 2) -> inform("Oh"), money += 5 "Bye" -- done`, with a comma and
a blank between the clauses behind the arrow. -/
theorem DialogueForm.ofLine_exact_inform :
    let line := "\"hi\", item(23, all >= 2) -> inform(\"Oh\"), money += 5 \"Bye\" -- done".toList
    let item : KeywordClause :=
      ⟨⟨7, ['i', 't', 'e', 'm']⟩,
        some [.operand ⟨12, ['2', '3']⟩,
          .comparison ⟨16, ['a', 'l', 'l']⟩ ⟨⟨20, ['>', '=']⟩, ⟨23, ['2']⟩⟩], none⟩
    let inform : KeywordClause :=
      ⟨⟨29, ['i', 'n', 'f', 'o', 'r', 'm']⟩, some [.quoted ⟨36, ['"', 'O', 'h', '"']⟩], none⟩
    let money : KeywordClause :=
      ⟨⟨43, ['m', 'o', 'n', 'e', 'y']⟩, none, some ⟨⟨49, ['+', '=']⟩, ⟨52, ['5']⟩⟩⟩
    let form : DialogueForm :=
      ⟨⟨1, ['"', 'h', 'i', '"']⟩, [.keyword item],
        [.keyword inform, .keyword money, .answer ⟨54, ['"', 'B', 'y', 'e', '"']⟩]⟩
    form.IsWritten IsBreak line ∧ ofLine line = .ok form ∧ form.IsWritten IsLooseBreak line := by
  intro line item inform money form
  have htrigger : IsLiteral form.trigger.text := ⟨_, Text.denotes_quote ['h', 'i']⟩
  have hanswer : IsLiteral ['"', 'B', 'y', 'e', '"'] := ⟨_, Text.denotes_quote ['B', 'y', 'e']⟩
  have hoh : IsLiteral ['"', 'O', 'h', '"'] := ⟨_, Text.denotes_quote ['O', 'h']⟩
  have hall : IsWord ['a', 'l', 'l'] := .intro rfl (List.all_eq_true.mp rfl)
  have hnumber : ∀ s ∈ [['2', '3'], ['2'], ['5']], Operand s := by
    simp only [Operand.iff_operandLexer]
    decide +kernel
  have hinner : Comparison.IsWritten (['>', '='] ++ ([' '] ++ ['2'])) 19
      ⟨⟨20, ['>', '=']⟩, ⟨23, ['2']⟩⟩ :=
    .intro ⟨">=", by decide, rfl⟩ isGap_space (hnumber _ (by simp))
  have houter : Comparison.IsWritten (['+', '='] ++ ([' '] ++ ['5'])) 48
      ⟨⟨49, ['+', '=']⟩, ⟨52, ['5']⟩⟩ :=
    .intro ⟨"+=", by decide, rfl⟩ isGap_space (hnumber _ (by simp))
  have hitem : item.IsWritten _ 6 :=
    .intro (.plain (.intro rfl (List.all_eq_true.mp rfl)))
      (.some isGap_nil (.intro isGap_nil (.cons (.operand (hnumber _ (by simp)))
        (.cons (.intro isGap_nil isGap_space) (.comparison hall isGap_space hinner) .nil))
        isGap_nil)) .none
  have hinform : inform.IsWritten _ 28 :=
    .intro (.plain (.intro rfl (List.all_eq_true.mp rfl)))
      (.some isGap_nil (.intro isGap_nil (.cons (.quoted hoh) .nil) isGap_nil)) .none
  have hmoney : money.IsWritten _ 42 :=
    .intro (.plain (.intro rfl (List.all_eq_true.mp rfl))) .none (.some isGap_space houter)
  have hparts : form.IsWritten IsBreak _ :=
    .intro isGap_nil htrigger (.cons (.intro isGap_nil isGap_space) (.keyword hitem) .nil)
      isGap_space isGap_space
      (.cons (.keyword hinform) (.cons (.comma (.intro isGap_nil isGap_space)) (.keyword hmoney)
        (.cons (.blank isGap_space (by simp)) (.answer hanswer) .nil)))
      (.comment isGap_space [' ', 'd', 'o', 'n', 'e'])
  have hwritten : form.IsWritten IsBreak line := by
    refine cast (congrArg (DialogueForm.IsWritten IsBreak · form) ?_) hparts
    decide +kernel
  have hread := (ofLine_exact.1 hwritten).1
  exact ⟨hwritten, hread, ofLine_exact.2.1 hread⟩

end NpcScript.Grammar
