import NpcScript.Proofs.Grammar.LastCharacter
import NpcScript.Proofs.Likeness.Statement

/-!
Texts with something else in front of them. Where `k` characters in front of a text become `k'`, its
columns change by as much, and nothing else does: whatever the text spells, it spells something that
is alike at its new place. The two numbers are kept apart since a text can move either way.
-/

namespace NpcScript

/-- Where `k` characters in front of a text become `k'`, only the columns differ. -/
def Likeness.moved (k k' : Nat) : Likeness where
  column := fun c c' => c + k' = c' + k
  fold := id
  isRecasing := .id
  literal := fun source source' => source.text = source'.text

theorem Likeness.moved_keepsLiterals (k k' : Nat) : (Likeness.moved k k').KeepsLiterals :=
  fun _ _ h => h

namespace Grammar

variable {k k' : Nat}

/-- Places move with what stands in front of them. -/
theorem moved_add {offset offset' : Nat} (h : offset + k' = offset' + k) (count : Nat) :
    offset + count + k' = offset' + count + k := by
  omega

/-! ### Lists -/

section Lists

variable {α : Type} {separator : List Char → Prop} {item : List Char → Nat → α → Prop}
  {related : α → α → Prop} {s : List Char} {offset offset' : Nat} {as : List α}

def Moves (k k' : Nat) (item : List Char → Nat → α → Prop) (related : α → α → Prop) (a : α) :
    Prop :=
  ∀ {s : List Char} {offset offset' : Nat}, offset + k' = offset' + k → item s offset a →
    ∃ a', item s offset' a' ∧ related a a'

theorem IsChain.exists_moved (h : IsChain separator item s offset as)
    (hitem : ∀ a ∈ as, Moves k k' item related a) (hoffset : offset + k' = offset' + k) :
    ∃ as', IsChain separator item s offset' as' ∧ List.Forall₂ related as as' := by
  induction h generalizing offset' with
  | nil => exact ⟨[], .nil, .nil⟩
  | @cons offset sep s others a as hsep ha has ih =>
      have hfirst := moved_add hoffset sep.length
      obtain ⟨a', ha', hrelated⟩ := hitem a (by simp) hfirst ha
      obtain ⟨as', has', hall⟩ := ih (fun b hb => hitem b (by simp [hb]))
        (moved_add hfirst s.length)
      exact ⟨a' :: as', .cons hsep ha' has', .cons hrelated hall⟩

theorem IsRow.exists_moved (h : IsRow separator item s offset as)
    (hitem : ∀ a ∈ as, Moves k k' item related a) (hoffset : offset + k' = offset' + k) :
    ∃ as', IsRow separator item s offset' as' ∧ List.Forall₂ related as as' := by
  cases h with
  | nil => exact ⟨[], .nil, .nil⟩
  | @cons _ s others a as ha has =>
      obtain ⟨a', ha', hrelated⟩ := hitem a (by simp) hoffset ha
      obtain ⟨as', has', hall⟩ := has.exists_moved (fun b hb => hitem b (by simp [hb]))
        (moved_add hoffset s.length)
      exact ⟨a' :: as', .cons ha' has', .cons hrelated hall⟩

theorem IsParenthesised.exists_moved (h : IsParenthesised item s offset as)
    (hitem : ∀ a ∈ as, Moves k k' item related a) (hoffset : offset + k' = offset' + k) :
    ∃ as', IsParenthesised item s offset' as' ∧ List.Forall₂ related as as' := by
  obtain ⟨hbefore, hinside, hafter⟩ := h
  rename_i before inside after
  obtain ⟨as', has', hall⟩ := hinside.exists_moved hitem
    (moved_add (moved_add hoffset 1) before.length)
  exact ⟨as', .intro hbefore has' hafter, hall⟩

theorem IsOptional.exists_moved {found : Option α} (h : IsOptional item s offset found)
    (hitem : ∀ a ∈ found, Moves k k' item related a) (hoffset : offset + k' = offset' + k) :
    ∃ found', IsOptional item s offset' found' ∧ Option.Rel related found found' := by
  cases h with
  | none => exact ⟨Option.none, .none, .none⟩
  | @some _ gap s a hgap ha =>
      obtain ⟨a', ha', hrelated⟩ := hitem a rfl (moved_add hoffset gap.length) ha
      exact ⟨Option.some a', .some hgap ha', .some hrelated⟩

end Lists

/-- A lexeme keeps its text. -/
theorem Lexeme.alike_moved {offset offset' : Nat} (hoffset : offset + k' = offset' + k)
    (s : List Char) :
    (⟨offset + 1, s⟩ : Lexeme).AlikeLiteral (.moved k k') ⟨offset' + 1, s⟩ := by
  refine ⟨⟨?_, .refl s⟩, rfl⟩
  show offset + 1 + k' = offset' + 1 + k
  omega

/-! ### Values -/

theorem Value.exists_moved (value : Value) :
    Moves k k' (fun s offset value => value.IsWritten s offset) (Value.Alike (.moved k k'))
      value := by
  intro s offset offset' hoffset h
  cases h with
  | quoted hs => exact ⟨_, .quoted hs, .quoted (Lexeme.alike_moved hoffset s)⟩
  | number hs => exact ⟨_, .number hs, .number (Lexeme.alike_moved hoffset s).toAlike⟩
  | word hs => exact ⟨_, .word hs, .word (Lexeme.alike_moved hoffset s).toAlike⟩
  | @call _ name gap s arguments hname hgap harguments =>
      obtain ⟨arguments', harguments', hall⟩ := harguments.exists_moved
        (fun argument _ => Value.exists_moved argument)
        (moved_add (moved_add hoffset name.length) gap.length)
      exact ⟨_, .call hname hgap harguments',
        .call (Lexeme.alike_moved hoffset _).toAlike (.refl name) hall⟩
termination_by sizeOf value

/-! ### Clauses -/

theorem Comparison.exists_moved (found : Comparison) :
    Moves k k' (fun s offset found => found.IsWritten s offset) (Comparison.Alike (.moved k k'))
      found := by
  intro s offset offset' hoffset h
  obtain ⟨hoperator, hgap, hoperand⟩ := h
  exact ⟨_, .intro hoperator hgap hoperand, (Lexeme.alike_moved hoffset _).toAlike,
    (Lexeme.alike_moved (by omega) _).toAlike⟩

theorem Argument.exists_moved (argument : Argument) :
    Moves k k' Argument.IsWritten (Argument.Alike (.moved k k')) argument := by
  intro s offset offset' hoffset h
  cases h with
  | quoted hs => exact ⟨_, .quoted hs, .quoted (Lexeme.alike_moved hoffset s)⟩
  | operand hs => exact ⟨_, .operand hs, .operand (Lexeme.alike_moved hoffset s).toAlike⟩
  | @comparison _ subject gap s found hsubject hgap hfound =>
      have hinner : offset + subject.length + gap.length + k' =
          offset' + subject.length + gap.length + k := by omega
      obtain ⟨found', hfound', halike⟩ := found.exists_moved hinner hfound
      exact ⟨_, .comparison hsubject hgap hfound',
        .comparison (Lexeme.alike_moved hoffset subject).toAlike halike⟩

theorem KeywordClause.exists_moved (clause : KeywordClause) :
    Moves k k' KeywordClause.IsWritten (KeywordClause.Alike (.moved k k')) clause := by
  intro s offset offset' hoffset h
  obtain ⟨hkeyword, harguments, hfound⟩ := h
  rename_i keyword s t arguments found
  have hbehind : offset + keyword.length + k' = offset' + keyword.length + k := by omega
  have hlast : offset + keyword.length + s.length + k' =
      offset' + keyword.length + s.length + k := by omega
  have hlist (found : List Argument) : Moves k k' (IsParenthesised Argument.IsWritten)
      (List.Forall₂ (Argument.Alike (.moved k k'))) found :=
    fun hoffset hs => hs.exists_moved (fun argument _ => argument.exists_moved) hoffset
  obtain ⟨arguments', harguments', halike⟩ :=
    harguments.exists_moved (fun found _ => hlist found) hbehind
  obtain ⟨found', hfound', halike'⟩ :=
    hfound.exists_moved (fun comparison _ => comparison.exists_moved) hlast
  exact ⟨_, .intro hkeyword harguments' hfound',
    (Lexeme.alike_moved hoffset keyword).toAlike, halike, halike'⟩

theorem Clause.exists_moved (clause : Clause) :
    Moves k k' Clause.IsWritten (Clause.Alike (.moved k k')) clause := by
  intro s offset offset' hoffset h
  cases h with
  | answer hs => exact ⟨_, .answer hs, .answer (Lexeme.alike_moved hoffset s)⟩
  | @keyword _ _ clause hs =>
      obtain ⟨clause', hs', halike⟩ := clause.exists_moved hoffset hs
      exact ⟨_, .keyword hs', .keyword halike⟩

theorem IsTail.exists_moved {separator : List Char → Prop} {s : List Char} {offset offset' : Nat}
    {clauses : List Clause} (h : IsTail separator s offset clauses)
    (hoffset : offset + k' = offset' + k) :
    ∃ clauses', IsTail separator s offset' clauses' ∧
      List.Forall₂ (Clause.Alike (.moved k k')) clauses clauses' := by
  induction h generalizing offset' with
  | nil hs => exact ⟨[], .nil hs, .nil⟩
  | @cons _ offset sep s rest found others hsep hfound hstops hothers ih =>
      have hfirst := moved_add hoffset sep.length
      obtain ⟨found', hfound', halike⟩ := found.exists_moved hfirst hfound
      obtain ⟨others', hothers', hall⟩ := ih (moved_add hfirst s.length)
      exact ⟨found' :: others', .cons hsep hfound' hstops hothers', .cons halike hall⟩

/-! ### Lines -/

section Lines

variable {front front' line : List Char}

theorem moved_length_append (front front' start : List Char) :
    (front ++ start).length + front'.length = (front' ++ start).length + front.length := by
  simp only [List.length_append]
  omega

/-- Blanks in front of a line may be replaced by others. -/
theorem Assignment.IsWritten.exists_moved {assignment : Assignment}
    (h : assignment.IsWritten (front ++ line)) (hfront : IsGap front) (hfront' : IsGap front') :
    ∃ assignment' : Assignment, assignment'.IsWritten (front' ++ line) ∧
      assignment.Alike (.moved front.length front'.length) assignment' := by
  generalize htext : front ++ line = text at h
  obtain ⟨hstart, hkey, hlink, hvalues, hne, hending⟩ := h
  rename_i start key link text ending values
  obtain ⟨start, rfl, rfl⟩ :=
    hfront.cut_at_front (hkey.startsPiece.append _).spares_isGap htext
  have hgap : IsGap start := fun c hc => hstart c (List.mem_append_right front hc)
  obtain ⟨values', hvalues', halike⟩ := hvalues.exists_moved (fun value _ => value.exists_moved)
    (moved_add (moved_add (moved_length_append front front' start) key.length) link.length)
  have hne' : values' ≠ [] := by
    rintro rfl
    cases halike
    exact hne rfl
  refine ⟨⟨key, values'⟩, ?_, .refl key, halike, hne⟩
  simpa using Assignment.IsWritten.intro (hfront'.append hgap) hkey hlink hvalues' hne' hending

theorem DialogueForm.IsSpelt.exists_moved {form : DialogueForm} (h : form.IsSpelt (front ++ line))
    (hfront : IsGap front) (hfront' : IsGap front') :
    ∃ form' : DialogueForm, form'.IsSpelt (front' ++ line) ∧
      form.Alike (.moved front.length front'.length) form' := by
  generalize htext : front ++ line = text at h
  obtain ⟨hstart, htrigger, hbefore, hgap, htail⟩ := h
  rename_i start trigger before gap tail conditions others
  obtain ⟨start, rfl, rfl⟩ := hfront.cut_at_front
    ((IsLiteral.startsPiece htrigger).append _).spares_isGap htext
  have hgap' : IsGap start := fun c hc => hstart c (List.mem_append_right front hc)
  have hoffset := moved_length_append front front' start
  have hbehind := moved_add hoffset trigger.length
  obtain ⟨conditions', hbefore', hconditions⟩ :=
    hbefore.exists_moved (fun clause _ => clause.exists_moved) hbehind
  obtain ⟨others', htail', hothers⟩ :=
    htail.exists_moved (moved_add (moved_add (moved_add hbehind before.length) gap.length) 2)
  refine ⟨⟨⟨(front' ++ start).length + 1, trigger⟩, conditions', others'⟩, ?_,
    Lexeme.alike_moved hoffset trigger, hconditions, hothers⟩
  simpa using
    DialogueForm.IsSpelt.intro (hfront'.append hgap') htrigger hbefore' hgap htail'

end Lines

end Grammar

end NpcScript
