import NpcScript.Grammar.Dialogue
import NpcScript.Proofs.Grammar.Reading
import NpcScript.Proofs.Grammar.Spelling

/-!
The text of clauses. `IsWritten` says of a clause and its parts which texts they can have; the
choices that a writer has are the blanks between tokens. A clause is read as it is written in this
sense wherever its text ends before what follows it, and what is read as a clause is written so.
-/

namespace NpcScript.Grammar

open Reader
open Text (IsLiteral)

inductive Comparison.IsWritten : List Char → Nat → Comparison → Prop
  | intro {offset : Nat} {operator gap operand : List Char} (hoperator : IsOperator operator)
      (hgap : IsGap gap) (hoperand : Operand operand) :
      IsWritten (operator ++ (gap ++ operand)) offset
        ⟨⟨offset + 1, operator⟩, ⟨offset + operator.length + gap.length + 1, operand⟩⟩

inductive Argument.IsWritten : List Char → Nat → Argument → Prop
  | quoted {offset : Nat} {s : List Char} (hs : IsLiteral s) :
      IsWritten s offset (.quoted ⟨offset + 1, s⟩)
  | operand {offset : Nat} {s : List Char} (hs : Operand s) :
      IsWritten s offset (.operand ⟨offset + 1, s⟩)
  | comparison {offset : Nat} {subject gap s : List Char} {found : Comparison}
      (hsubject : IsWord subject) (hgap : IsGap gap)
      (hfound : found.IsWritten s (offset + subject.length + gap.length)) :
      IsWritten (subject ++ (gap ++ s)) offset (.comparison ⟨offset + 1, subject⟩ found)

inductive KeywordClause.IsWritten : List Char → Nat → KeywordClause → Prop
  | intro {offset : Nat} {keyword s t : List Char} {arguments : Option (List Argument)}
      {found : Option Comparison} (hkeyword : IsKeyword keyword)
      (harguments : IsOptional (IsParenthesised Argument.IsWritten) s (offset + keyword.length)
        arguments)
      (hfound : IsOptional Comparison.IsWritten t (offset + keyword.length + s.length) found) :
      IsWritten (keyword ++ (s ++ t)) offset ⟨⟨offset + 1, keyword⟩, arguments, found⟩

inductive Clause.IsWritten : List Char → Nat → Clause → Prop
  | answer {offset : Nat} {s : List Char} (hs : IsLiteral s) :
      IsWritten s offset (.answer ⟨offset + 1, s⟩)
  | keyword {offset : Nat} {s : List Char} {clause : KeywordClause}
      (hs : clause.IsWritten s offset) : IsWritten s offset (.keyword clause)

/-! ### What is read is written so -/

/-- The last word or number of a comparison does not go on behind it. -/
theorem comparison_spells (offset : Nat) (text : List Char) :
    Spells comparison offset text fun s found rest =>
      found.IsWritten s offset ∧ ∀ t, Stops (t ++ s) rest := by
  refine .bind (.lexeme fun _ _ => operatorLexer_sound) fun operator found _ hoperator => ?_
  obtain ⟨rfl, hoperator, -⟩ := hoperator
  refine .bind .blanks fun gap _ _ hgap => ?_
  refine .bind (.cut (.lexeme fun _ _ => operandLexer_sound)) fun operand found _ hoperand =>
    .pure ?_
  obtain ⟨rfl, rfl, hoperand, hlexer⟩ := hoperand
  rw [List.append_nil]
  refine ⟨.intro hoperator hgap hoperand, fun t => ?_⟩
  obtain ⟨s, hs, -, hstops⟩ := operandLexer_cut hlexer
  obtain rfl := List.append_cancel_right hs
  have hmarks : ∀ c ∈ operator ++ gap, continuesWord c = false := by
    intro c hc
    rcases List.mem_append.mp hc with hc | hc
    · exact hoperator.not_continuesWord c hc
    · exact not_continuesWord_of_isGap (hgap c hc)
  obtain ⟨c, behind, rfl, -⟩ := hoperator.exists_cons
  simpa using hstops.append (by simp) hmarks t

theorem argument_spells (offset : Nat) (text : List Char) :
    Spells argument offset text fun s found _ => found.IsWritten s offset := by
  refine .orElse ?_ (.orElse ?_ ?_)
  · refine .bind (.lexeme fun _ _ => wordLexer_sound) fun subject found _ hsubject => ?_
    obtain ⟨rfl, hsubject, -⟩ := hsubject
    refine .bind .blanks fun gap _ _ hgap => ?_
    refine .bind (comparison_spells _ _) fun s found _ hfound => .pure ?_
    obtain ⟨hfound, -⟩ := hfound
    rw [List.append_nil]
    exact .comparison hsubject hgap hfound
  · refine .bind (.lexeme fun _ _ => literalLexer_sound) fun s found _ hs => .pure ?_
    obtain ⟨rfl, hs, -⟩ := hs
    rw [List.append_nil]
    exact .quoted hs
  · refine .bind (.lexeme fun _ _ => operandLexer_sound) fun s found _ hs => .pure ?_
    obtain ⟨rfl, hs, -⟩ := hs
    rw [List.append_nil]
    exact .operand hs

/-- A text with blanks behind it, or none, whose last word or number does not go on behind it. -/
def IsCutOff {α : Type} (item : List Char → Nat → α → Prop) (text : List Char) (offset : Nat)
    (a : α) (rest : List Char) : Prop :=
  ∃ s gap, text = s ++ gap ∧ item s offset a ∧ IsGap gap ∧ Stops s (gap ++ rest)

theorem IsParenthesised.stops {α : Type} {item : List Char → Nat → α → Prop} {s : List Char}
    {offset : Nat} {as : List α} (h : IsParenthesised item s offset as) (t rest : List Char) :
    Stops (t ++ s) rest := by
  obtain ⟨hbefore, hinside, hafter⟩ := h
  rename_i before inside after
  simpa using stops_append_singleton (c := ')') (by decide)
    (t ++ '(' :: (before ++ (inside ++ after))) rest

/-- A clause that has no comparison takes up the blanks in which one was looked for. -/
theorem keywordClause_spells (offset : Nat) (text : List Char) :
    Spells keywordClause offset text fun s clause rest =>
      IsCutOff KeywordClause.IsWritten s offset clause rest := by
  refine .bind (.lexeme fun _ _ => keywordLexer_sound) fun keyword found _ hkeyword => ?_
  obtain ⟨rfl, hkeyword, hlexer⟩ := hkeyword
  have hword := spares_of_keywordLexer hlexer
  refine .bind (.cut .blanks) fun before _ _ hbefore => ?_
  obtain ⟨rfl, hbefore⟩ := hbefore
  refine .bind (.cut (.optional fun offset text => .marked (.parenthesised argument_spells)))
    fun s arguments _ hs => ?_
  obtain ⟨rfl, hs⟩ := hs
  refine .bind (.cut .blanks) fun between _ _ hbetween => ?_
  obtain ⟨rfl, hbetween⟩ := hbetween
  obtain ⟨s', gap, hs', harguments, hgap⟩ := hs.append hbefore
  have hoffset : offset + keyword.length + before.length + s.length + between.length =
      offset + keyword.length + s'.length + (gap ++ between).length := by
    have hlength := congrArg List.length hs'
    simp only [List.length_append] at hlength ⊢
    omega
  rw [hoffset]
  refine .bind (.cut (.maybe (fun t found rest => t = [] ∧ found = none ∨
    ∃ comparison : Comparison, found = some comparison ∧
      comparison.IsWritten t (offset + keyword.length + s'.length + (gap ++ between).length) ∧
      ∀ u, Stops (u ++ t) rest) ((comparison_spells _ _).mono ?_) (.inl ⟨rfl, rfl⟩)))
    fun t found rest ht => .pure ?_
  · rintro t comparison rest ⟨hwritten, hstops⟩
    exact .inr ⟨comparison, rfl, hwritten, hstops⟩
  obtain ⟨rfl, ⟨rfl, rfl⟩ | ⟨comparison, rfl, hfound, hstops⟩⟩ := ht
  · refine ⟨keyword ++ (s' ++ []), gap ++ between, ?_, .intro hkeyword harguments .none,
      hgap.append hbetween, ?_⟩
    · rw [← List.append_assoc before, hs']
      simp
    · rw [← List.append_assoc before, hs'] at hword
      cases harguments with
      | none => simpa using hword.stops keyword
      | some _ harguments =>
          rw [List.append_nil, ← List.append_assoc]
          exact harguments.stops _ _
  · refine ⟨keyword ++ (s' ++ (gap ++ between ++ t)), [], ?_,
      .intro hkeyword harguments (.some (hgap.append hbetween) hfound), isGap_nil, ?_⟩
    · rw [← List.append_assoc before, hs']
      simp
    · simpa using hstops (keyword ++ (s' ++ (gap ++ between)))

theorem clause_spells (offset : Nat) (text : List Char) :
    Spells clause offset text fun s found rest =>
      IsCutOff Clause.IsWritten s offset found rest := by
  refine .orElse ?_ ?_
  · refine .bind (.lexeme fun _ _ => literalLexer_sound) fun s found _ hs => .pure ?_
    obtain ⟨rfl, hs, -⟩ := hs
    exact ⟨s, [], rfl, .answer hs, isGap_nil, IsLiteral.stops hs _⟩
  · refine .bind (keywordClause_spells offset text) fun s found _ hs => .pure ?_
    obtain ⟨t, gap, rfl, ht, hgap, hstops⟩ := hs
    exact ⟨t, gap, by simp, .keyword ht, hgap, hstops⟩

/-! ### What is written so is read -/

section Comparisons

variable {offset : Nat} {s rest : List Char}

theorem Comparison.IsWritten.spares {p : Char → Bool} {found : Comparison}
    (h : found.IsWritten s offset) (hp : ∀ c, beginsOperator c = true → p c = false)
    (rest : List Char) : Spares p (s ++ rest) := by
  obtain ⟨hoperator, hgap, hoperand⟩ := h
  obtain ⟨c, t, rfl, hc⟩ := hoperator.exists_cons
  exact spares_cons_iff.mpr (hp c hc)

theorem comparison_reads {found : Comparison} (h : found.IsWritten s offset)
    (hrest : EndsBefore s rest) :
    Reads comparison ⟨offset, s ++ rest⟩ found ⟨offset + s.length, rest⟩ := by
  obtain ⟨hoperator, hgap, hoperand⟩ := h
  rename_i operator gap operand
  have hoperand' := hoperand.startsPiece.append rest
  have hequals : (gap ++ (operand ++ rest)).head? ≠ some '=' := by
    cases gap with
    | nil => exact hoperand'.head_ne (by decide) (by decide)
    | cons c gap =>
        rintro ⟨⟩
        have hc := hgap '=' (by simp)
        cases hc
  have hsettle : Cursor.settle ⟨offset + operator.length, gap ++ (operand ++ rest)⟩ =
      ⟨offset + operator.length + gap.length, operand ++ rest⟩ :=
    Cursor.settle_append hgap hoperand'.spares_isGap
  have hoffset : offset + (operator ++ (gap ++ operand)).length =
      offset + operator.length + gap.length + operand.length := by
    simp only [List.length_append]
    omega
  rw [hoffset, List.append_assoc, List.append_assoc]
  refine (Reads.lexeme (operatorLexer_append hoperator hequals)).bind ?_
  refine (Reads.blanks _).bind ?_
  rw [hsettle]
  exact (Reads.lexeme (hoperand.lexer_append hrest.of_append.of_append)).bind (.pure _ _)

theorem comparison_misses (h : operatorLexer rest = none) : Misses comparison ⟨offset, rest⟩ :=
  Misses.bind (Misses.lexeme h)

end Comparisons

section Arguments

variable {offset : Nat} {s rest : List Char}

theorem Argument.IsWritten.startsPiece {found : Argument} (h : found.IsWritten s offset) :
    StartsPiece s := by
  cases h with
  | quoted hs => exact IsLiteral.startsPiece hs
  | operand hs => exact hs.startsPiece
  | comparison hsubject hgap hfound => exact hsubject.startsPiece.append _

/-- The reader for comparisons inside parentheses. -/
theorem innerComparison_misses (hs : Operand s) (hrest : EndsPiece rest) :
    Misses (do
        let subject ← lexeme wordLexer
        blanks
        let comparison ← comparison
        return Argument.comparison subject comparison) ⟨offset, s ++ rest⟩ := by
  by_cases hword : s.head?.any beginsWord = true
  · obtain ⟨w, t, rfl, hw, hspares, hnone⟩ := hs.exists_word hword hrest
    rw [List.append_assoc]
    refine (Reads.lexeme (wordLexer_append hw hspares)).bind_misses ?_
    refine (Reads.blanks _).bind_misses ?_
    exact Misses.bind (comparison_misses hnone)
  · refine Misses.bind (Misses.lexeme (wordLexer_eq_none ?_))
    obtain ⟨c, s, rfl⟩ := List.exists_cons_of_ne_nil hs.ne_nil
    exact spares_cons_iff.mpr (by simpa using hword)

theorem argument_takes (bound : Nat) : Takes bound argument Argument.IsWritten := by
  intro offset s rest found cursor hfound hrest hbound hcursor
  obtain rfl := hcursor.eq_of_spares (hfound.startsPiece.append rest).spares_isGap
  refine ⟨⟨offset + s.length, rest⟩, ?_, .refl _⟩
  cases hfound with
  | quoted hs =>
      have hreads : Reads (do return Argument.quoted (← lexeme literalLexer)) ⟨offset, s ++ rest⟩
          (.quoted ⟨offset + 1, s⟩) ⟨offset + s.length, rest⟩ :=
        (Reads.lexeme (literalLexer_append hs rest)).bind (.pure _ _)
      have hword : wordLexer (s ++ rest) = none := by
        obtain ⟨text, ⟨hbody⟩⟩ := hs
        rfl
      exact Misses.orElse (Misses.bind (Misses.lexeme hword)) (hreads.orElse _)
  | operand hs =>
      have hreads : Reads (do return Argument.operand (← lexeme operandLexer)) ⟨offset, s ++ rest⟩
          (.operand ⟨offset + 1, s⟩) ⟨offset + s.length, rest⟩ :=
        (Reads.lexeme (hs.lexer_append (hrest.endsBefore s))).bind (.pure _ _)
      have hquote : (s ++ rest).head? ≠ some '"' := by
        rw [List.head?_append_of_ne_nil s hs.ne_nil]
        intro hc
        cases hs.beginsOperand_of_head? hc
      refine Misses.orElse (innerComparison_misses hs hrest) (Misses.orElse ?_ hreads)
      exact Misses.bind (Misses.lexeme (literalLexer_eq_none hquote))
  | @comparison _ subject gap s found hsubject hgap hfound =>
      have hspares : Spares continuesWord (gap ++ (s ++ rest)) :=
        spares_append_of_forall hgap (fun c => not_continuesWord_of_isGap)
          (hfound.spares (fun c => not_continuesWord_of_beginsOperator) rest)
      have hsettle : Cursor.settle ⟨offset + subject.length, gap ++ (s ++ rest)⟩ =
          ⟨offset + subject.length + gap.length, s ++ rest⟩ :=
        Cursor.settle_append hgap (hfound.spares (fun c => not_isGap_of_beginsOperator) rest)
      have hoffset : offset + (subject ++ (gap ++ s)).length =
          offset + subject.length + gap.length + s.length := by
        simp only [List.length_append]
        omega
      rw [hoffset, List.append_assoc, List.append_assoc]
      refine Reads.orElse ?_ _
      refine (Reads.lexeme (wordLexer_append hsubject hspares)).bind ?_
      refine (Reads.blanks _).bind ?_
      rw [hsettle]
      exact (comparison_reads hfound (hrest.endsBefore s)).bind (.pure _ _)

/-- No argument begins with a closing parenthesis. -/
theorem argument_misses_closing : Misses argument ⟨offset, ')' :: rest⟩ := by
  refine Misses.orElse_misses (Misses.bind (Misses.lexeme rfl)) ?_
  refine Misses.orElse_misses (Misses.bind (Misses.lexeme rfl)) ?_
  exact Misses.bind (Misses.lexeme (Operand.lexer_eq_none (spares_cons_iff.mpr (by decide))))

end Arguments

section Clauses

variable {offset : Nat} {s rest : List Char}

theorem IsOptional.spares {α : Type} {item : List Char → Nat → α → Prop} {found : Option α}
    {p : Char → Bool} (h : IsOptional item s offset found) (hp : ∀ c, isGap c = true → p c = false)
    (hitem : ∀ {s : List Char} {offset : Nat} {a : α}, item s offset a → Spares p (s ++ rest))
    (hrest : s = [] → Spares p rest) : Spares p (s ++ rest) := by
  cases h with
  | none => exact hrest rfl
  | some hgap ha =>
      rw [List.append_assoc]
      exact spares_append_of_forall hgap hp (hitem ha)

theorem IsParenthesised.spares {α : Type} {item : List Char → Nat → α → Prop} {as : List α}
    {p : Char → Bool} (h : IsParenthesised item s offset as) (hp : p '(' = false)
    (rest : List Char) : Spares p (s ++ rest) := by
  obtain ⟨hbefore, hinside, hafter⟩ := h
  exact spares_cons_iff.mpr hp

theorem arguments_reads {found : Option (List Argument)}
    (h : IsOptional (IsParenthesised Argument.IsWritten) s offset found)
    (hrest : (rest.dropWhile isGap).head? ≠ some '(') :
    ∃ last, Reads (maybe (marked (parenthesised argument))) (Cursor.settle ⟨offset, s ++ rest⟩)
      found last ∧ SkipsBlanks ⟨offset + s.length, rest⟩ last := by
  cases h with
  | none =>
      have hmisses : Misses (parenthesised argument) (Cursor.settle ⟨offset, rest⟩) :=
        Misses.bind (Misses.mark hrest)
      exact ⟨_, hmisses.marked.maybe, .settle _⟩
  | @some _ gap s arguments hgap harguments =>
      have hspares : Spares isGap (s ++ rest) := harguments.spares (by decide) rest
      have hreads := Reads.parenthesised (argument_takes _) Argument.IsWritten.startsPiece
        argument_misses_closing harguments (Nat.lt_succ_self (s.length + rest.length))
      rw [List.append_assoc, Cursor.settle_append hgap hspares, List.length_append,
        ← Nat.add_assoc]
      exact ⟨_, hreads.marked.maybe, .refl _⟩

theorem optionalComparison_reads {found : Option Comparison}
    (h : IsOptional Comparison.IsWritten s offset found) (hrest : EndsBefore s rest) :
    ∃ last, Reads (maybe comparison) (Cursor.settle ⟨offset, s ++ rest⟩) found last ∧
      SkipsBlanks ⟨offset + s.length, rest⟩ last := by
  cases h with
  | none =>
      have hmisses : Misses comparison (Cursor.settle ⟨offset, rest⟩) :=
        comparison_misses hrest.next.operatorLexer_eq_none
      exact ⟨_, hmisses.maybe, .settle _⟩
  | @some _ gap s found hgap hfound =>
      have hspares : Spares isGap (s ++ rest) :=
        hfound.spares (fun c => not_isGap_of_beginsOperator) rest
      rw [List.append_assoc, Cursor.settle_append hgap hspares, List.length_append,
        ← Nat.add_assoc]
      exact ⟨_, (comparison_reads hfound hrest.of_append).maybe, .refl _⟩

/-- Without parentheses of its own a keyword has none behind it. -/
theorem head?_ne_of_optional {found : Option Comparison}
    (h : IsOptional Comparison.IsWritten s offset found) (hrest : IsNext (rest.dropWhile isGap)) :
    ((s ++ rest).dropWhile isGap).head? ≠ some '(' := by
  cases h with
  | none => exact hrest.head_ne_open
  | some hgap hfound =>
      rw [List.append_assoc, dropWhile_append_of_spares hgap
        (hfound.spares (fun c => not_isGap_of_beginsOperator) rest)]
      intro hhead
      have hspares := hfound.spares (p := (· == '(')) (fun c hc => by
        simp only [beginsOperator, Bool.or_eq_true, beq_iff_eq] at hc
        rcases hc with (((((rfl | rfl) | rfl) | rfl) | rfl) | rfl) | rfl <;> rfl) rest
      cases hspares _ hhead

theorem keywordClause_reads {clause : KeywordClause} (h : clause.IsWritten s offset)
    (hrest : EndsBefore s rest) :
    ∃ last, Reads keywordClause ⟨offset, s ++ rest⟩ clause last ∧
      SkipsBlanks ⟨offset + s.length, rest⟩ last := by
  obtain ⟨hkeyword, harguments, hfound⟩ := h
  rename_i keyword s t arguments found
  have hword : Spares continuesWord (s ++ (t ++ rest)) := by
    refine harguments.spares (fun c => not_continuesWord_of_isGap)
      (fun ha => ha.spares (by decide) _) fun hs => ?_
    refine hfound.spares (fun c => not_continuesWord_of_isGap)
      (fun ha => ha.spares (fun c => not_continuesWord_of_beginsOperator) _) fun ht => ?_
    exact hkeyword.spares_of_stops (by simpa [hs, ht] using hrest.stops)
  obtain ⟨middle, harguments, hmiddle⟩ :=
    arguments_reads harguments (head?_ne_of_optional hfound hrest.next)
  obtain ⟨last, hfound, hlast⟩ := optionalComparison_reads hfound hrest.of_append.of_append
  refine ⟨last, ?_, ?_⟩
  · rw [List.append_assoc, List.append_assoc]
    refine (Reads.lexeme (keywordLexer_append hkeyword hword)).bind ?_
    refine (Reads.blanks _).bind ?_
    refine harguments.bind ?_
    refine (Reads.blanks _).bind ?_
    rw [hmiddle.settle_eq]
    exact hfound.bind (.pure _ _)
  · simpa [Nat.add_assoc] using hlast

theorem Clause.IsWritten.startsPiece {found : Clause} (h : found.IsWritten s offset) :
    StartsPiece s := by
  cases h with
  | answer hs => exact IsLiteral.startsPiece hs
  | keyword hs =>
      obtain ⟨hkeyword, harguments, hfound⟩ := hs
      exact hkeyword.startsPiece.append _

theorem clause_reads {found : Clause} (h : found.IsWritten s offset) (hrest : EndsBefore s rest) :
    ∃ last, Reads clause ⟨offset, s ++ rest⟩ found last ∧
      SkipsBlanks ⟨offset + s.length, rest⟩ last := by
  cases h with
  | answer hs =>
      refine ⟨⟨offset + s.length, rest⟩, ?_, .refl _⟩
      have hreads : Reads (do return Clause.answer (← lexeme literalLexer)) ⟨offset, s ++ rest⟩
          (.answer ⟨offset + 1, s⟩) ⟨offset + s.length, rest⟩ :=
        (Reads.lexeme (literalLexer_append hs rest)).bind (.pure _ _)
      exact hreads.orElse _
  | @keyword _ _ clause hs =>
      obtain ⟨last, hreads, hlast⟩ := keywordClause_reads hs hrest
      refine ⟨last, ?_, hlast⟩
      have hreads : Reads (do return Clause.keyword (← keywordClause)) ⟨offset, s ++ rest⟩
          (.keyword clause) last := hreads.bind (.pure _ _)
      refine Misses.orElse (Misses.bind (Misses.lexeme (literalLexer_eq_none ?_))) hreads
      obtain ⟨hkeyword, harguments, hfound⟩ := hs
      rw [List.append_assoc, List.head?_append_of_ne_nil _ hkeyword.startsPiece.ne_nil]
      exact hkeyword.head_ne_quote

theorem clause_takes (bound : Nat) : Takes bound clause Clause.IsWritten := by
  intro offset s rest found cursor hfound hrest hbound hcursor
  obtain rfl := hcursor.eq_of_spares (hfound.startsPiece.append rest).spares_isGap
  exact clause_reads hfound (hrest.endsBefore s)

theorem clause_misses (hquote : rest.head? ≠ some '"') (hkeyword : keywordLexer rest = none) :
    Misses clause ⟨offset, rest⟩ := by
  refine Misses.orElse_misses (Misses.bind (Misses.lexeme (literalLexer_eq_none hquote))) ?_
  exact Misses.bind (Misses.bind (Misses.lexeme hkeyword))

theorem Clause.IsWritten.isNext {found : Clause} (h : found.IsWritten s offset)
    (rest : List Char) : IsNext (s ++ rest) := by
  cases h with
  | answer hs =>
      obtain ⟨text, ⟨hbody⟩⟩ := hs
      exact .literal _
  | keyword hs =>
      obtain ⟨hkeyword, harguments, hfound⟩ := hs
      rw [List.append_assoc]
      exact hkeyword.isNext _

end Clauses

end NpcScript.Grammar
