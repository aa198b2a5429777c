import NpcScript.Proofs.Grammar.Assignment
import NpcScript.Proofs.Grammar.Beginning
import NpcScript.Proofs.Grammar.Dialogue

/-!
Malformed lines can be completed. Wherever the reader of assignments or that of dialogue lines looks
for a lexeme, on a path that it keeps or on one that it gives up, something can be put there that
makes a line which is accepted. So the column at which a line is said to be malformed never lies
beyond a dead end.
-/

namespace NpcScript.Grammar

open Reader
open Text (IsLiteral)

/-! ### Samples -/

theorem isLiteral_empty : IsLiteral ['"', '"'] :=
  ⟨[], .intro .nil⟩

theorem isWord_x : IsWord ['x'] :=
  .intro rfl (by simp)

/-- A variable, which goes on with no word or number in front of it. -/
theorem operand_x : Operand ['%', 'x'] :=
  .sum (.single (.plain (.percent isWord_x)))

theorem isParenthesised_nil {α : Type} {item : List Char → Nat → α → Prop} (offset : Nat) :
    IsParenthesised item ['(', ')'] offset [] :=
  .intro isGap_nil .nil isGap_nil

theorem values_isRow_empty (offset : Nat) :
    IsRow (IsMark ',') Value.IsWritten ['"', '"'] offset [.quoted ⟨offset + 1, ['"', '"']⟩] := by
  simpa using IsRow.cons (Value.IsWritten.quoted isLiteral_empty) .nil

theorem comparison_isWritten_x (offset : Nat) :
    Comparison.IsWritten ['=', '%', 'x'] offset
      ⟨⟨offset + 1, ['=']⟩, ⟨offset + 2, ['%', 'x']⟩⟩ := by
  have hoperator : IsOperator ['='] := ⟨"=", by decide, rfl⟩
  exact .intro hoperator isGap_nil operand_x

variable {good : List Char → Prop} {front text : List Char}

/-! ### Values -/

theorem call_avoidsDeadEnds {inner : Reader Value}
    (hspells : ∀ offset text, Spells inner offset text fun s a _ => Value.IsWritten s offset a)
    (hinner : ∀ {front text}, Welcomes good Value.IsWritten front text →
      AvoidsDeadEnds good inner front text)
    (h : Welcomes good Value.IsWritten front text) :
    AvoidsDeadEnds good (call inner) front text := by
  have hfront : IsBeginning good front :=
    h.isBeginning (.quoted isLiteral_empty) (spares_cons_iff.mpr (by decide))
  refine (AvoidsDeadEnds.withText ?_).result _
  refine .bind (.lexeme wordLexer hfront) (.lexeme fun _ _ => wordLexer_sound)
    fun name found _ htext hname => ?_
  obtain ⟨rfl, hname, -⟩ := hname
  subst htext
  refine .bind .blanks .blanks fun gap _ rest htext hgap => ?_
  subst htext
  refine (AvoidsDeadEnds.parenthesised hspells hinner ?_).result _
  exact h.behindBoth fun s arguments hs _ => ⟨_, .call hname hgap hs⟩

theorem value_avoidsDeadEnds (h : Welcomes good Value.IsWritten front text) :
    AvoidsDeadEnds good value front text := by
  -- The arguments of a call stand in what is left behind its name, which is shorter.
  induction hn : text.length using Nat.strong_induction_on generalizing front text with
  | _ n ih =>
      have hfront : IsBeginning good front :=
        h.isBeginning (.quoted isLiteral_empty) (spares_cons_iff.mpr (by decide))
      unfold AvoidsDeadEnds
      rw [value]
      refine AvoidsDeadEnds.orElse ((AvoidsDeadEnds.lexeme _ hfront).result _) ?_
      refine AvoidsDeadEnds.orElse ((AvoidsDeadEnds.lexeme _ hfront).result _) ?_
      refine AvoidsDeadEnds.orElse ?_ ((AvoidsDeadEnds.lexeme _ hfront).result _)
      refine call_avoidsDeadEnds (fun _ _ => .guarded fun _ => value_spells _ _) ?_ h
      intro front' text' h'
      exact .guarded fun hlt => ih text'.length (hn ▸ hlt) h' rfl

/-! ### Assignments -/

inductive IsValues : List Char → Nat → List Value → Prop
  | intro {offset : Nat} {s ending : List Char} {values : List Value} (hne : values ≠ [])
      (hvalues : IsRow (IsMark ',') Value.IsWritten s offset values) (hending : IsEnding ending) :
      IsValues (s ++ ending) offset values

def IsAssignment (line : List Char) : Prop :=
  ∃ found : Assignment, found.IsWritten line

theorem IsGap.isBeginning_isAssignment {start : List Char} (hstart : IsGap start) :
    IsBeginning IsAssignment start :=
  ⟨_, _, .intro hstart isWord_x (.equals (.intro isGap_nil isGap_nil)) (values_isRow_empty _)
    (by simp) (.blank isGap_nil)⟩

/-- Behind a key and what links it to its values, these may stand. -/
theorem welcomes_isValues {start key before equals after rest : List Char} (hstart : IsGap start)
    (hkey : IsWord key) (hbefore : IsGap before) (hequals : equals = [] ∨ equals = ['='])
    (hafter : IsGap after)
    (hrest : Spares continuesWord (before ++ (equals ++ (after ++ rest)))) :
    Welcomes IsAssignment IsValues (start ++ key ++ before ++ equals ++ after) rest := by
  rintro s values ⟨hne, hvalues, hending⟩ hstarts
  rename_i s ending
  have hlink : IsLink (before ++ (equals ++ after)) s := by
    refine .of_parts hbefore hequals hafter fun hnone => ?_
    rw [← List.append_assoc equals, ← List.append_assoc before, hnone, List.nil_append] at hrest
    exact (hstarts.spares (fun _ hc => hc) hrest).of_append
  have hoffset : (start ++ key ++ before ++ equals ++ after).length =
      start.length + key.length + (before ++ (equals ++ after)).length := by
    simp only [List.length_append]
    omega
  rw [hoffset] at hvalues
  have hwritten := Assignment.IsWritten.intro hstart hkey hlink hvalues hne hending
  exact ⟨[], _, by simpa using hwritten⟩

/-- The place of a malformed assignment has a beginning of an assignment in front of it. -/
theorem assignment_avoidsDeadEnds (line : List Char) :
    AvoidsDeadEnds IsAssignment assignment [] line := by
  refine .bind .blanks .blanks fun start _ _ _ hstart => ?_
  rw [List.nil_append]
  refine .bind (.lexeme wordLexer hstart.isBeginning_isAssignment)
    (.lexeme fun _ _ => wordLexer_sound) fun key found rest _ hkey => ?_
  obtain ⟨rfl, hkey, hlexer⟩ := hkey
  have hrest := spares_of_wordLexer hlexer
  refine .bind .blanks .blanks fun before _ _ htext hbefore => ?_
  subst htext
  refine .bind (AvoidsDeadEnds.mark '=').maybe (.maybeMark '=') fun equals _ _ htext hequals => ?_
  subst htext
  refine .bind .blanks .blanks fun after _ rest htext hafter => ?_
  subst htext
  have hvalues := welcomes_isValues hstart hkey hbefore hequals hafter hrest
  refine .bind (.commaSeparated value_spells value_avoidsDeadEnds ?_) (.commaSeparated value_spells)
    fun s values _ htext hs => ?_
  · exact hvalues.mono fun s values hs =>
      ⟨values, by simpa using IsValues.intro hs.1 hs.2 (.blank isGap_nil)⟩
  · subst htext
    exact .ending _ (hvalues.behind fun t _ ht _ => ⟨values, .intro hs.1 hs.2 ht⟩)

/-! ### Clauses -/

theorem comparison_avoidsDeadEnds (h : Welcomes good Comparison.IsWritten front text) :
    AvoidsDeadEnds good comparison front text := by
  have hfront : IsBeginning good front :=
    h.isBeginning (comparison_isWritten_x _) (spares_cons_iff.mpr (by decide))
  refine .bind (.lexeme operatorLexer hfront) (.lexeme fun _ _ => operatorLexer_sound)
    fun operator found _ htext hoperator => ?_
  obtain ⟨rfl, hoperator, -⟩ := hoperator
  subst htext
  refine .bind .blanks .blanks fun gap _ rest htext hgap => ?_
  subst htext
  have hoperand : Welcomes good (fun s _ (_ : Unit) => Operand s) (front ++ operator ++ gap) rest :=
    h.behindBoth fun s _ hs _ => ⟨_, .intro hoperator hgap hs⟩
  have hbehind : IsBeginning good (front ++ operator ++ gap) :=
    hoperand.isBeginning (a := ()) operand_x (spares_cons_iff.mpr (by decide))
  exact (AvoidsDeadEnds.lexeme operandLexer hbehind).result _

theorem argument_avoidsDeadEnds (h : Welcomes good Argument.IsWritten front text) :
    AvoidsDeadEnds good argument front text := by
  have hfront : IsBeginning good front :=
    h.isBeginning (.quoted isLiteral_empty) (spares_cons_iff.mpr (by decide))
  refine .orElse ?_ (.orElse ((AvoidsDeadEnds.lexeme _ hfront).result _)
    ((AvoidsDeadEnds.lexeme _ hfront).result _))
  refine .bind (.lexeme wordLexer hfront) (.lexeme fun _ _ => wordLexer_sound)
    fun subject found _ htext hsubject => ?_
  obtain ⟨rfl, hsubject, -⟩ := hsubject
  subst htext
  refine .bind .blanks .blanks fun gap _ rest htext hgap => ?_
  subst htext
  refine (comparison_avoidsDeadEnds ?_).result _
  exact h.behindBoth fun s found hs _ => ⟨_, .comparison hsubject hgap hs⟩

theorem keywordClause_avoidsDeadEnds (h : Welcomes good KeywordClause.IsWritten front text) :
    AvoidsDeadEnds good keywordClause front text := by
  have hfront : IsBeginning good front :=
    h.isBeginning (.intro (.percent isWord_x) .none .none) (spares_cons_iff.mpr (by decide))
  refine .bind (.lexeme keywordLexer hfront) (.lexeme fun _ _ => keywordLexer_sound)
    fun keyword found _ htext hkeyword => ?_
  obtain ⟨rfl, hkeyword, -⟩ := hkeyword
  subst htext
  refine .bind .blanks .blanks fun before _ rest htext hbefore => ?_
  subst htext
  have harguments : Welcomes good (IsParenthesised Argument.IsWritten)
      (front ++ keyword ++ before) rest :=
    h.behindBoth fun s arguments hs _ =>
      ⟨_, by simpa using KeywordClause.IsWritten.intro hkeyword (.some hbefore hs) .none⟩
  have hbehind : IsBeginning good (front ++ keyword ++ before) :=
    harguments.isBeginning (isParenthesised_nil _) (spares_cons_iff.mpr (by decide))
  refine .bind (.maybe (.marked
    (.parenthesised argument_spells argument_avoidsDeadEnds harguments) hbehind))
    (.optional fun offset text => .marked (.parenthesised argument_spells))
    fun s arguments _ htext hs => ?_
  subst htext
  refine .bind .blanks .blanks fun between _ rest htext hbetween => ?_
  subst htext
  refine (comparison_avoidsDeadEnds ?_).maybe.result _
  -- Without arguments the blanks in front of them stand in front of the comparison.
  rw [List.length_append, List.length_append] at hs
  obtain ⟨s', gap, hs', harguments, hgap⟩ := hs.append hbefore
  have hpieces : keyword ++ (before ++ (s ++ between)) =
      keyword ++ (s' ++ (gap ++ between)) := by
    rw [← List.append_assoc before, hs', List.append_assoc]
  have h : Welcomes good KeywordClause.IsWritten front
      ((keyword ++ (before ++ (s ++ between))) ++ rest) := by simpa using h
  have hcomparison : Welcomes good Comparison.IsWritten
      (front ++ (keyword ++ (before ++ (s ++ between)))) rest := by
    rw [hpieces] at h ⊢
    refine h.behind fun t found ht _ => ?_
    have hwritten := KeywordClause.IsWritten.intro hkeyword harguments
      (.some (hgap.append hbetween) (by simpa [Nat.add_assoc] using ht))
    exact ⟨_, by simpa using hwritten⟩
  simpa using hcomparison

theorem clause_avoidsDeadEnds (h : Welcomes good Clause.IsWritten front text) :
    AvoidsDeadEnds good clause front text := by
  have hfront : IsBeginning good front :=
    h.isBeginning (.answer isLiteral_empty) (spares_cons_iff.mpr (by decide))
  refine .orElse ((AvoidsDeadEnds.lexeme _ hfront).result _) ?_
  exact (keywordClause_avoidsDeadEnds (h.mono fun s clause hs => ⟨_, .keyword hs⟩)).result _

/-! ### Dialogue lines -/

theorem clausesBefore_avoidsDeadEnds
    (h : Welcomes good (IsTrailed (IsChain (IsMark ',') Clause.IsWritten)) front text) :
    AvoidsDeadEnds good clausesBefore front text := by
  refine .manyBehindComma clause_spells_isTrailed (fun h => clause_avoidsDeadEnds ?_) ?_
  · exact h.mono fun s found hs => ⟨found, s, [], by simp, hs, isGap_nil⟩
  · exact h.mono fun s found hs => ⟨found, hs.of_trailed fun _ _ hgap hsep => hsep.append hgap⟩

/-- What may stand behind the arrow may be a single clause. -/
theorem Clause.IsWritten.isTail {separator : List Char → Prop} {sep s : List Char} {offset : Nat}
    {found : Clause} (h : found.IsWritten s (offset + sep.length)) (hsep : separator sep) :
    IsTail separator (sep ++ s) offset [found] := by
  simpa using IsTail.cons hsep h (spares_nil.stops s) (.nil (.blank isGap_nil))

theorem behindBreak_avoidsDeadEnds (h : Welcomes good (IsTail IsLooseBreak) front text) :
    AvoidsDeadEnds good (do blanks; let _ ← maybe (mark ','); blanks; clause) front text := by
  refine .bind .blanks .blanks fun before _ _ htext hbefore => ?_
  subst htext
  refine .bind (AvoidsDeadEnds.mark ',').maybe (.maybeMark ',') fun comma _ _ htext hcomma => ?_
  subst htext
  refine .bind .blanks .blanks fun after _ rest htext hafter => clause_avoidsDeadEnds ?_
  subst htext
  have h : Welcomes good (IsTail IsLooseBreak) front ((before ++ (comma ++ after)) ++ rest) := by
    simpa using h
  have hclause : Welcomes good Clause.IsWritten (front ++ (before ++ (comma ++ after))) rest :=
    h.behind fun s found hs _ =>
      ⟨[found], hs.isTail (IsLooseBreak.of_parts hbefore hcomma hafter)⟩
  simpa using hclause

theorem behindBreak_welcomes (h : Welcomes good (IsTail IsLooseBreak) front text) :
    Spells (do blanks; let _ ← maybe (mark ','); blanks; clause) front.length text
      fun s _ rest => Welcomes good (IsTail IsLooseBreak) (front ++ s) rest := by
  refine (behindBreak_spells _ _).cut.mono fun s found rest hs => ?_
  obtain ⟨rfl, hs⟩ := hs
  exact h.behind fun u others hu hstarts => ⟨_, hs u others hstarts hu⟩

/-- Behind the first clause the others may stand. -/
theorem Welcomes.behindFirst {s rest : List Char} {first : Clause}
    (h : Welcomes good (IsTail IsGap) front (s ++ rest))
    (hs : IsCutOff Clause.IsWritten s front.length first rest) :
    Welcomes good (IsTail IsLooseBreak) (front ++ s) rest := by
  refine h.behind fun u others hu hstarts => ⟨first :: others, ?_⟩
  have htail : IsTail IsGap ([] ++ (s ++ u)) front.length (first :: others) :=
    .of_cutOff isGap_nil hs hstarts hu
  simpa using htail

theorem clausesAfter_avoidsDeadEnds (h : Welcomes good (IsTail IsGap) front text) :
    AvoidsDeadEnds good clausesAfter front text := by
  have hfirst : Welcomes good Clause.IsWritten front text :=
    h.mono fun s found hs => ⟨[found], hs.isTail isGap_nil⟩
  refine .bind (clause_avoidsDeadEnds hfirst) (clause_spells _ _) fun s first rest htext hs => ?_
  subst htext
  exact (AvoidsDeadEnds.many (Welcomes good (IsTail IsLooseBreak))
    (fun _ _ => behindBreak_avoidsDeadEnds) (fun _ _ => behindBreak_welcomes)
    (h.behindFirst hs)).result _

theorem clausesAfter_welcomes (h : Welcomes good (IsTail IsGap) front text) :
    Spells clausesAfter front.length text
      fun s _ rest => Welcomes good (IsTail IsLooseBreak) (front ++ s) rest := by
  refine .bind (clause_spells _ _).cut fun s first rest hs => ?_
  obtain ⟨rfl, hs⟩ := hs
  rw [← List.length_append]
  refine .bind (.many_keeps (Welcomes good (IsTail IsLooseBreak)) (fun _ _ => behindBreak_welcomes)
    (h.behindFirst hs)) fun t others rest hothers => .pure ?_
  simpa using hothers

theorem tail_avoidsDeadEnds {α : Type} (h : Welcomes good (IsTail IsGap) front text)
    (f : Option (List Clause) → α) :
    AvoidsDeadEnds good (do
      let after ← maybe clausesAfter
      blanks; trailingComment; blanks; atEnd
      return f after) front text := by
  refine .bind (clausesAfter_avoidsDeadEnds h).maybe (.maybe (fun s _ rest =>
    Welcomes good (fun t _ (_ : Unit) => IsEnding t) (front ++ s) rest) ?_ ?_)
    fun s after rest _ hs => .ending _ hs
  · exact (clausesAfter_welcomes h).mono fun _ _ _ hs => hs.mono fun _ _ ht => ⟨[], .nil ht⟩
  · rw [List.append_nil]
    exact h.mono fun _ _ ht => ⟨[], .nil ht⟩

def IsDialogueLine (line : List Char) : Prop :=
  ∃ form : DialogueForm, form.IsSpelt line

theorem IsGap.isBeginning_isDialogueLine {start : List Char} (hstart : IsGap start) :
    IsBeginning IsDialogueLine start :=
  ⟨_, _, .intro hstart isLiteral_empty .nil isGap_nil (.nil (.blank isGap_nil))⟩

/-- Behind the arrow any tail may stand. -/
theorem welcomes_isTail {start trigger before gap gap' between : List Char}
    {conditions : List Clause} (hstart : IsGap start) (htrigger : IsLiteral trigger)
    (hbefore : IsChain (IsMark ',') Clause.IsWritten before (start ++ trigger).length conditions)
    (hgap : IsGap gap) (hgap' : IsGap gap') (hbetween : IsGap between) (rest : List Char) :
    Welcomes IsDialogueLine (IsTail IsGap)
      (start ++ trigger ++ (before ++ gap) ++ gap' ++ ['-', '>'] ++ between) rest := by
  intro t others ht _
  have hoffset : (start ++ trigger ++ (before ++ gap) ++ gap' ++ ['-', '>'] ++ between).length =
      start.length + trigger.length + before.length + (gap ++ gap').length + 2 +
        between.length := by
    simp only [List.length_append, List.length_cons, List.length_nil]
    omega
  rw [hoffset] at ht
  rw [List.length_append] at hbefore
  have hspelt := DialogueForm.IsSpelt.intro hstart htrigger hbefore (hgap.append hgap')
    (ht.append hbetween fun _ hsep => hbetween.append hsep)
  exact ⟨[], _, by simpa using hspelt⟩

/-- The place of a malformed dialogue line has a beginning of a dialogue line in front of it. -/
theorem dialogueForm_avoidsDeadEnds (line : List Char) :
    AvoidsDeadEnds IsDialogueLine dialogueForm [] line := by
  have hnone (offset : Nat) : IsTail IsGap [] offset [] := .nil (.blank isGap_nil)
  refine .bind .blanks .blanks fun start _ _ _ hstart => ?_
  rw [List.nil_append]
  refine .bind (.lexeme literalLexer hstart.isBeginning_isDialogueLine)
    (.lexeme fun _ _ => literalLexer_sound) fun trigger found rest _ htrigger => ?_
  obtain ⟨rfl, htrigger, -⟩ := htrigger
  -- Up to the arrow, an arrow with nothing behind it completes the line.
  have hbefore : Welcomes IsDialogueLine
      (IsTrailed (IsChain (IsMark ',') Clause.IsWritten)) (start ++ trigger) rest := by
    rintro s conditions ⟨before, gap, rfl, hbefore, hgap⟩ -
    have htail := welcomes_isTail hstart htrigger hbefore hgap isGap_nil isGap_nil []
    exact IsBeginning.of_append (t := ['-', '>'])
      (by simpa using htail.isBeginning (hnone _) spares_nil)
  refine .bind (clausesBefore_avoidsDeadEnds hbefore) (clausesBefore_spells _ _)
    fun s conditions _ _ hs => ?_
  obtain ⟨before, gap, rfl, hbefore, hgap⟩ := hs
  refine .bind .blanks .blanks fun gap' _ _ _ hgap' => ?_
  have harrowless : IsBeginning IsDialogueLine (start ++ trigger ++ (before ++ gap) ++ gap') := by
    have htail := welcomes_isTail hstart htrigger hbefore hgap hgap' isGap_nil []
    exact IsBeginning.of_append (t := ['-', '>'])
      (by simpa using htail.isBeginning (hnone _) spares_nil)
  refine .bind (.lexeme arrowLexer harrowless) (.lexeme fun _ _ => arrowLexer_sound)
    fun arrow _ _ _ harrow => ?_
  obtain ⟨-, rfl, -⟩ := harrow
  refine .bind .blanks .blanks fun between _ _ _ hbetween => ?_
  exact tail_avoidsDeadEnds (welcomes_isTail hstart htrigger hbefore hgap hgap' hbetween _) _

end NpcScript.Grammar
