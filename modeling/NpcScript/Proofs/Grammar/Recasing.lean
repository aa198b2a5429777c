import NpcScript.Grammar.Assignment
import NpcScript.Grammar.Dialogue
import NpcScript.Proofs.Grammar.Caseless
import NpcScript.Proofs.Grammar.Form
import NpcScript.Proofs.Likeness.Statement

/-!
Readers on two spellings of a line. The same reader is put at the same offset of two lines that
differ in letter case only. It comes to results on both of them or on neither, has moved on to the
same place, and has missed a lexeme at the same place; there is one rule for each way in which
readers are put together. What is read is alike in that columns are the same and texts the same up
to letter case.
-/

namespace NpcScript

open Text

namespace Grammar

/-- The literal is found in the line where it says that it stands. -/
def Lexeme.StandsIn (source : Lexeme) (line : List Char) : Prop :=
  source.text <+: line.drop (source.column - 1)

instance (source : Lexeme) (line : List Char) : Decidable (source.StandsIn line) :=
  inferInstanceAs (Decidable (_ <+: _))

def Cursor.inLine (line : List Char) (offset : Nat) : Cursor :=
  ⟨offset, line.drop offset⟩

end Grammar

/-- The columns are the same, and texts are the same up to letter case. String literals are the
same if the second line has the literal of the first one where that one stands. -/
def Likeness.spelling (line' : List Char) : Likeness where
  column := Eq
  fold := Char.toLower
  isRecasing := .toLower
  literal := fun source source' => source.StandsIn line' → source.text = source'.text

/-- A line break is spelled in one way only. -/
theorem columnInLastLine_eq {line line' : List Char} (h : lower line = lower line')
    (offset : Nat) : columnInLastLine line offset = columnInLastLine line' offset := by
  have hlower (line : List Char) :
      columnInLastLine (lower line) offset = columnInLastLine line offset := by
    have hbreak (c : Char) : decide (c.toLower ≠ '\n') = decide (c ≠ '\n') :=
      decide_eq_decide.mpr (not_congr (toLower_eq_iff rfl))
    unfold columnInLastLine
    rw [lower, ← List.map_take, ← List.map_reverse, IsRecasing.toLower.takeWhile_map hbreak,
      List.length_map]
  rw [← hlower, h, hlower]

namespace Grammar.Reader

variable {α α' β β' : Type} {line line' : List Char}

inductive Matches (line line' : List Char) (related : α → α' → Prop) :
    Outcome α → Outcome α' → Prop
  | missed (furthest : Nat) : Matches line line' related ⟨none, furthest⟩ ⟨none, furthest⟩
  | found {a : α} {a' : α'} (h : related a a') (offset furthest : Nat) :
      Matches line line' related ⟨some (a, .inLine line offset), furthest⟩
        ⟨some (a', .inLine line' offset), furthest⟩

/-- Wherever the readers are put in their lines, they come to the same. -/
def Keeps (line line' : List Char) (related : α → α' → Prop) (reader : Reader α)
    (reader' : Reader α') : Prop :=
  ∀ offset, Matches line line' related (reader (.inLine line offset))
    (reader' (.inLine line' offset))

theorem advance_inLine (line : List Char) (offset count : Nat) :
    (Cursor.inLine line offset).advance count = .inLine line (offset + count) := by
  simp [Cursor.advance, Cursor.inLine, List.drop_drop]

theorem Matches.raise {related : α → α' → Prop} {outcome : Outcome α} {outcome' : Outcome α'}
    (h : Matches line line' related outcome outcome') (furthest : Nat) :
    Matches line line' related ⟨outcome.result, max furthest outcome.furthest⟩
      ⟨outcome'.result, max furthest outcome'.furthest⟩ := by
  cases h with
  | missed missed => exact .missed _
  | found h offset missed => exact .found h offset _

theorem Matches.ite {related : α → α' → Prop} {condition condition' : Prop} [Decidable condition]
    [Decidable condition'] (hcondition : condition ↔ condition') {outcome other : Outcome α}
    {outcome' other' : Outcome α'}
    (h : condition → Matches line line' related outcome outcome')
    (hother : Matches line line' related other other') :
    Matches line line' related (if condition then outcome else other)
      (if condition' then outcome' else other') := by
  by_cases hc : condition
  · rw [if_pos hc, if_pos (hcondition.mp hc)]
    exact h hc
  · rwa [if_neg hc, if_neg (mt hcondition.mpr hc)]

namespace Keeps

variable {related : α → α' → Prop} {follows : β → β' → Prop}

theorem pure {a : α} {a' : α'} (h : related a a') :
    Keeps line line' related (Pure.pure a) (Pure.pure a') :=
  fun offset => .found h offset 0

theorem bind {first : Reader α} {first' : Reader α'} {second : α → Reader β}
    {second' : α' → Reader β'} (hfirst : Keeps line line' related first first')
    (hsecond : ∀ a a', related a a' → Keeps line line' follows (second a) (second' a')) :
    Keeps line line' follows (first >>= second) (first' >>= second') := by
  intro offset
  show Matches _ _ _ (andThen first second _) (andThen first' second' _)
  unfold andThen
  have h := hfirst offset
  generalize first (.inLine line offset) = outcome at h
  generalize first' (.inLine line' offset) = outcome' at h
  cases h with
  | missed furthest => exact .missed furthest
  | found h behind furthest => exact (hsecond _ _ h behind).raise furthest

theorem orElse {first second : Reader α} {first' second' : Reader α'}
    (hfirst : Keeps line line' related first first')
    (hsecond : Keeps line line' related second second') :
    Keeps line line' related (first <|> second) (first' <|> second') := by
  intro offset
  show Matches _ _ _ (Reader.orElse first second _) (Reader.orElse first' second' _)
  unfold Reader.orElse
  have h := hfirst offset
  generalize first (.inLine line offset) = outcome at h
  generalize first' (.inLine line' offset) = outcome' at h
  cases h with
  | missed furthest => exact (hsecond offset).raise furthest
  | found h behind furthest => exact .found h behind furthest

theorem maybe {piece : Reader α} {piece' : Reader α'} (h : Keeps line line' related piece piece') :
    Keeps line line' (Option.Rel related) (Reader.maybe piece) (Reader.maybe piece') :=
  orElse (bind h fun _ _ ha => pure (.some ha)) (pure .none)

theorem marked {piece : Reader α} {piece' : Reader α'}
    (h : Keeps line line' related piece piece') :
    Keeps line line' related (Reader.marked piece) (Reader.marked piece') := by
  intro offset
  unfold Reader.marked
  have h := h offset
  generalize piece (.inLine line offset) = outcome at h
  generalize piece' (.inLine line' offset) = outcome' at h
  cases h with
  | missed furthest => exact .missed _
  | found h behind furthest => exact .found h behind furthest

section Lines

variable (hcase : lower line = lower line')

include hcase

theorem lower_drop (offset : Nat) : lower (line.drop offset) = lower (line'.drop offset) := by
  simp only [lower, List.map_drop] at hcase ⊢
  rw [hcase]

theorem length_drop_eq (offset : Nat) : (line.drop offset).length = (line'.drop offset).length := by
  rw [← length_lower, lower_drop hcase, length_lower]

theorem same_take (offset count : Nat) :
    (Likeness.spelling line').SameText ((line.drop offset).take count)
      ((line'.drop offset).take count) := by
  have hdrop := lower_drop hcase offset
  simp only [lower] at hdrop
  unfold Likeness.SameText
  simp only [Likeness.spelling, List.map_take, hdrop]

/-- Of one length there is one text that stands at an offset. -/
theorem alikeLiteral_take (offset count : Nat) :
    Lexeme.AlikeLiteral (.spelling line') ⟨offset + 1, (line.drop offset).take count⟩
      ⟨offset + 1, (line'.drop offset).take count⟩ := by
  refine ⟨⟨rfl, same_take hcase offset count⟩, fun hstands => ?_⟩
  have hlength : ((line.drop offset).take count).length =
      ((line'.drop offset).take count).length := by
    rw [List.length_take, List.length_take, length_drop_eq hcase]
  have hprefix := List.prefix_of_prefix_length_le hstands (List.take_prefix count _) hlength.le
  exact hprefix.eq_of_length hlength

theorem many {piece : Reader α} {piece' : Reader α'} (h : Keeps line line' related piece piece') :
    Keeps line line' (List.Forall₂ related) (Reader.many piece) (Reader.many piece') := by
  have hcollect (offset : Nat) : ∃ as as' last furthest, List.Forall₂ related as as' ∧
      collect piece (.inLine line offset) = (as, .inLine line last, furthest) ∧
      collect piece' (.inLine line' offset) = (as', .inLine line' last, furthest) := by
    -- A piece that is found shortens the line, which is what the reader recurses on.
    induction hn : (line.drop offset).length using Nat.strong_induction_on generalizing offset with
    | _ n ih =>
        have hpiece := h offset
        rw [collect, collect]
        generalize piece (.inLine line offset) = outcome at hpiece
        generalize piece' (.inLine line' offset) = outcome' at hpiece
        cases hpiece with
        | missed furthest => exact ⟨[], [], offset, furthest, .nil, rfl, rfl⟩
        | found ha behind furthest =>
            simp only [Cursor.inLine, ← length_drop_eq hcase]
            by_cases hlt : (line.drop behind).length < (line.drop offset).length
            · obtain ⟨as, as', last, missed, has, hfirst, hsecond⟩ := ih _ (hn ▸ hlt) behind rfl
              simp only [Cursor.inLine] at hfirst hsecond
              simp only [if_pos hlt, hfirst, hsecond]
              exact ⟨_, _, last, _, .cons ha has, rfl, rfl⟩
            · exact ⟨[], [], offset, furthest, .nil, if_neg hlt, if_neg hlt⟩
  intro offset
  obtain ⟨as, as', last, furthest, has, hfirst, hsecond⟩ := hcollect offset
  unfold Reader.many
  rw [hfirst, hsecond]
  exact .found has last furthest

theorem lexeme {lexer : Lexer} (hlexer : Caseless lexer) :
    Keeps line line' (Lexeme.AlikeLiteral (.spelling line')) (Reader.lexeme lexer)
      (Reader.lexeme lexer) := by
  intro offset
  have hrest := lower_drop hcase offset
  have hlength := length_drop_eq hcase offset
  have hfound : (lexer (line.drop offset)).map lower = (lexer (line'.drop offset)).map lower := by
    rw [← hlexer, hrest, hlexer]
  simp only [Reader.lexeme, Cursor.inLine]
  cases hfirst : lexer (line.drop offset) with
  | none =>
      cases hsecond : lexer (line'.drop offset) with
      | none => exact .missed offset
      | some rest' => simp [hfirst, hsecond] at hfound
  | some rest =>
      cases hsecond : lexer (line'.drop offset) with
      | none => simp [hfirst, hsecond] at hfound
      | some rest' =>
          have hbehind : rest.length = rest'.length := by
            simp only [hfirst, hsecond, Option.map_some, Option.some.injEq] at hfound
            rw [← length_lower, hfound, length_lower]
          have hcount : (line.drop offset).length - rest.length =
              (line'.drop offset).length - rest'.length := by rw [hlength, hbehind]
          have hadvance (line : List Char) (count : Nat) := advance_inLine line offset count
          simp only [Cursor.inLine] at hadvance
          simp only [hcount, hadvance]
          exact .found (alikeLiteral_take hcase offset _) _ 0

/-- What the readers have passed has the same text up to letter case. -/
theorem withText {piece : Reader α} {piece' : Reader α'}
    (h : Keeps line line' related piece piece') :
    Keeps line line' (fun found found' => found.1.Alike (.spelling line') found'.1 ∧
      related found.2 found'.2) (Reader.withText piece) (Reader.withText piece') := by
  intro offset
  unfold Reader.withText
  have h := h offset
  generalize piece (.inLine line offset) = outcome at h
  generalize piece' (.inLine line' offset) = outcome' at h
  cases h with
  | missed furthest => exact .missed furthest
  | found h behind furthest =>
      refine .found ⟨⟨rfl, ?_⟩, h⟩ behind furthest
      simp only [Cursor.inLine, ← length_drop_eq hcase]
      exact same_take hcase _ _

theorem mark {c : Char} (hc : c.isAlpha = false) :
    Keeps line line' (fun _ _ => True) (Reader.mark c) (Reader.mark c) := by
  intro offset
  have hhead : (line.drop offset).head? = some c ↔ (line'.drop offset).head? = some c := by
    rw [← head?_lower_eq_some_iff hc, lower_drop hcase, head?_lower_eq_some_iff hc]
  unfold Reader.mark
  rw [advance_inLine, advance_inLine]
  exact .ite hhead (fun _ => .found True.intro _ 0) (.missed 0)

theorem blanks : Keeps line line' (fun _ _ => True) Reader.blanks Reader.blanks := by
  intro offset
  have hgap : ((line.drop offset).takeWhile isGap).length =
      ((line'.drop offset).takeWhile isGap).length := by
    have hlower (s : List Char) : (lower s).takeWhile isGap = lower (s.takeWhile isGap) :=
      IsRecasing.toLower.takeWhile_map (apply_toLower (by decide)) s
    rw [← length_lower, ← hlower, lower_drop hcase, hlower, length_lower]
  unfold Reader.blanks
  rw [advance_inLine, advance_inLine]
  simp only [Cursor.inLine, hgap]
  exact .found True.intro _ 0

theorem trailingComment :
    Keeps line line' (fun _ _ => True) Reader.trailingComment Reader.trailingComment := by
  intro offset
  have hcomment : ['-', '-'].isPrefixOf (line.drop offset) =
      ['-', '-'].isPrefixOf (line'.drop offset) := by
    rw [← isPrefixOf_lower (by decide), lower_drop hcase, isPrefixOf_lower (by decide)]
  unfold Reader.trailingComment
  rw [advance_inLine, advance_inLine]
  simp only [Cursor.inLine, hcomment, length_drop_eq hcase]
  exact .ite Iff.rfl (fun _ => .found True.intro _ 0) (.found True.intro _ 0)

theorem atEnd : Keeps line line' (fun _ _ => True) Reader.atEnd Reader.atEnd := by
  intro offset
  have hempty : (line.drop offset).isEmpty = (line'.drop offset).isEmpty := by
    rw [Bool.eq_iff_iff, List.isEmpty_iff_length_eq_zero, List.isEmpty_iff_length_eq_zero,
      length_drop_eq hcase]
  unfold Reader.atEnd
  simp only [Cursor.inLine, hempty]
  exact .ite Iff.rfl (fun _ => .found True.intro offset 0) (.missed offset)

/-! ### Lists -/

variable {piece : Reader α} {piece' : Reader α'} (h : Keeps line line' related piece piece')

include h

theorem commaSeparated :
    Keeps line line' (List.Forall₂ related) (Reader.commaSeparated piece)
      (Reader.commaSeparated piece') := by
  refine bind h fun first first' hfirst => ?_
  refine bind (many hcase ?_) fun others others' hothers => pure (.cons hfirst hothers)
  refine bind (blanks hcase) fun _ _ _ => ?_
  refine bind (mark hcase rfl) fun _ _ _ => ?_
  exact bind (blanks hcase) fun _ _ _ => h

theorem parenthesised :
    Keeps line line' (List.Forall₂ related) (Reader.parenthesised piece)
      (Reader.parenthesised piece') := by
  refine bind (mark hcase rfl) fun _ _ _ => ?_
  refine bind (blanks hcase) fun _ _ _ => ?_
  refine bind (maybe (commaSeparated hcase h)) fun pieces pieces' hpieces => ?_
  refine bind (blanks hcase) fun _ _ _ => ?_
  refine bind (mark hcase rfl) fun _ _ _ => pure ?_
  cases hpieces with
  | none => exact .nil
  | some hpieces => exact hpieces

end Lines

/-- Readers that keep to the line come to related values, or are malformed at the same column. -/
theorem run (hcase : lower line = lower line') {reader : Reader α} {reader' : Reader α'}
    (h : Keeps line line' related reader reader') :
    Agree related Eq (reader.run line) (reader'.run line') := by
  have h := h 0
  unfold Reader.run
  have hcursor (line : List Char) : (⟨0, line⟩ : Cursor) = .inLine line 0 := rfl
  rw [hcursor, hcursor]
  generalize reader (.inLine line 0) = outcome at h
  generalize reader' (.inLine line' 0) = outcome' at h
  cases h with
  | missed furthest => exact .error (columnInLastLine_eq hcase furthest)
  | found h last furthest => exact .ok h

end Keeps

end Grammar.Reader

/-! ### Assignments -/

namespace Grammar

open Reader

variable {line line' : List Char} (hcase : lower line = lower line')

include hcase

theorem call_keeps {inner inner' : Reader Value}
    (h : Keeps line line' (Value.Alike (.spelling line')) inner inner') :
    Keeps line line' (Value.Alike (.spelling line')) (call inner) (call inner') := by
  have hpiece : Keeps line line' (fun found found' =>
        (Likeness.spelling line').SameText found.1 found'.1 ∧
          List.Forall₂ (Value.Alike (.spelling line')) found.2 found'.2)
      (do
        let name ← lexeme wordLexer
        blanks
        let arguments ← parenthesised inner
        return (name.text, arguments))
      (do
        let name ← lexeme wordLexer
        blanks
        let arguments ← parenthesised inner'
        return (name.text, arguments)) := by
    refine .bind (.lexeme hcase .word) fun name name' hname => ?_
    refine .bind (.blanks hcase) fun _ _ _ => ?_
    refine .bind (.parenthesised hcase h) fun arguments arguments' harguments => ?_
    exact .pure ⟨hname.text, harguments⟩
  exact .bind (.withText hcase hpiece) fun _ _ hfound =>
    .pure (.call hfound.1 hfound.2.1 hfound.2.2)

theorem value_keeps : Keeps line line' (Value.Alike (.spelling line')) value value := by
  intro offset
  -- The arguments of a call stand in what is left behind its name, which is shorter.
  induction hn : (line.drop offset).length using Nat.strong_induction_on generalizing offset with
  | _ n ih =>
      have hinner : Keeps line line' (Value.Alike (.spelling line'))
          (fun behind => if behind.rest.length < (Cursor.inLine line offset).rest.length then
            value behind else ⟨none, 0⟩)
          (fun behind => if behind.rest.length < (Cursor.inLine line' offset).rest.length then
            value behind else ⟨none, 0⟩) := by
        intro behind
        have hlt : (line.drop behind).length < (line.drop offset).length ↔
            (line'.drop behind).length < (line'.drop offset).length := by
          rw [Keeps.length_drop_eq hcase, Keeps.length_drop_eq hcase]
        exact .ite hlt (fun h => ih _ (hn ▸ h) behind rfl) (.missed 0)
      rw [value, value]
      refine Keeps.orElse ?_ (.orElse ?_ (.orElse (call_keeps hcase hinner) ?_)) offset
      · exact .bind (.lexeme hcase .literal) fun _ _ hsource => .pure (.quoted hsource)
      · exact .bind (.lexeme hcase .number) fun _ _ hsource => .pure (.number hsource.toAlike)
      · exact .bind (.lexeme hcase .word) fun _ _ hsource => .pure (.word hsource.toAlike)

/-- There is at least one value. -/
theorem assignment_keeps :
    Keeps line line' (fun assignment assignment' =>
        (Likeness.spelling line').SameText assignment.key assignment'.key ∧
          List.Forall₂ (Value.Alike (.spelling line')) assignment.values assignment'.values)
      assignment assignment := by
  refine .bind (.blanks hcase) fun _ _ _ => ?_
  refine .bind (.lexeme hcase .word) fun key key' hkey => ?_
  refine .bind (.blanks hcase) fun _ _ _ => ?_
  refine .bind (.maybe (.mark hcase rfl)) fun _ _ _ => ?_
  refine .bind (.blanks hcase) fun _ _ _ => ?_
  refine .bind (.commaSeparated hcase (value_keeps hcase)) fun values values' hvalues => ?_
  refine .bind (.blanks hcase) fun _ _ _ => ?_
  refine .bind (.trailingComment hcase) fun _ _ _ => ?_
  refine .bind (.blanks hcase) fun _ _ _ => ?_
  exact .bind (.atEnd hcase) fun _ _ _ => .pure ⟨hkey.text, hvalues⟩

theorem Assignment.ofLine_recased :
    Agree (Assignment.Alike (.spelling line')) Eq (ofLine line) (ofLine line') := by
  have hagree := (assignment_keeps hcase).run hcase
  have hne (assignment : Assignment) (h : ofLine line = .ok assignment) : assignment.values ≠ [] :=
    values_ne_nil h
  unfold ofLine at hne ⊢
  generalize Grammar.assignment.run line = result at hagree hne
  generalize Grammar.assignment.run line' = result' at hagree
  cases hagree with
  | ok h => exact .ok ⟨h.1, h.2, hne _ rfl⟩
  | error h => exact .error h

/-! ### Dialogue lines -/

theorem comparison_keeps :
    Keeps line line' (Comparison.Alike (.spelling line')) comparison comparison := by
  refine .bind (.lexeme hcase .operator) fun _ _ hoperator => ?_
  refine .bind (.blanks hcase) fun _ _ _ => ?_
  exact .bind (.lexeme hcase .operand) fun _ _ hoperand =>
    .pure ⟨hoperator.toAlike, hoperand.toAlike⟩

theorem argument_keeps : Keeps line line' (Argument.Alike (.spelling line')) argument argument := by
  refine .orElse ?_ (.orElse ?_ ?_)
  · refine .bind (.lexeme hcase .word) fun _ _ hsubject => ?_
    refine .bind (.blanks hcase) fun _ _ _ => ?_
    refine .bind (comparison_keeps hcase) fun _ _ hfound => ?_
    exact .pure (.comparison hsubject.toAlike hfound)
  · exact .bind (.lexeme hcase .literal) fun _ _ hsource => .pure (.quoted hsource)
  · exact .bind (.lexeme hcase .operand) fun _ _ hsource => .pure (.operand hsource.toAlike)

theorem keywordClause_keeps :
    Keeps line line' (KeywordClause.Alike (.spelling line')) keywordClause keywordClause := by
  refine .bind (.lexeme hcase .keyword) fun _ _ hkeyword => ?_
  refine .bind (.blanks hcase) fun _ _ _ => ?_
  refine .bind (.maybe (.marked (.parenthesised hcase (argument_keeps hcase))))
    fun _ _ harguments => ?_
  refine .bind (.blanks hcase) fun _ _ _ => ?_
  exact .bind (.maybe (comparison_keeps hcase)) fun _ _ hfound =>
    .pure ⟨hkeyword.toAlike, harguments, hfound⟩

theorem clause_keeps : Keeps line line' (Clause.Alike (.spelling line')) clause clause := by
  refine .orElse ?_ ?_
  · exact .bind (.lexeme hcase .literal) fun _ _ hsource => .pure (.answer hsource)
  · exact .bind (keywordClause_keeps hcase) fun _ _ hclause => .pure (.keyword hclause)

theorem clausesBefore_keeps :
    Keeps line line' (List.Forall₂ (Clause.Alike (.spelling line'))) clausesBefore
      clausesBefore := by
  refine .many hcase ?_
  refine .bind (.blanks hcase) fun _ _ _ => ?_
  refine .bind (.mark hcase rfl) fun _ _ _ => ?_
  exact .bind (.blanks hcase) fun _ _ _ => clause_keeps hcase

theorem clausesAfter_keeps :
    Keeps line line' (List.Forall₂ (Clause.Alike (.spelling line'))) clausesAfter clausesAfter := by
  refine .bind (clause_keeps hcase) fun _ _ hfirst => ?_
  refine .bind (.many hcase ?_) fun _ _ hothers => .pure (.cons hfirst hothers)
  refine .bind (.blanks hcase) fun _ _ _ => ?_
  refine .bind (.maybe (.mark hcase rfl)) fun _ _ _ => ?_
  exact .bind (.blanks hcase) fun _ _ _ => clause_keeps hcase

theorem dialogueForm_keeps :
    Keeps line line' (DialogueForm.Alike (.spelling line')) dialogueForm dialogueForm := by
  refine .bind (.blanks hcase) fun _ _ _ => ?_
  refine .bind (.lexeme hcase .literal) fun _ _ htrigger => ?_
  refine .bind (clausesBefore_keeps hcase) fun _ _ hbefore => ?_
  refine .bind (.blanks hcase) fun _ _ _ => ?_
  refine .bind (.lexeme hcase .arrow) fun _ _ _ => ?_
  refine .bind (.blanks hcase) fun _ _ _ => ?_
  refine .bind (.maybe (clausesAfter_keeps hcase)) fun _ _ hafter => ?_
  refine .bind (.blanks hcase) fun _ _ _ => ?_
  refine .bind (.trailingComment hcase) fun _ _ _ => ?_
  refine .bind (.blanks hcase) fun _ _ _ => ?_
  refine .bind (.atEnd hcase) fun _ _ _ => .pure ⟨htrigger, hbefore, ?_⟩
  cases hafter with
  | none => exact .nil
  | some hafter => exact hafter

theorem DialogueForm.ofLine_recased :
    Agree (DialogueForm.Alike (.spelling line')) Eq (ofLine line) (ofLine line') :=
  (dialogueForm_keeps hcase).run hcase

end Grammar

end NpcScript
