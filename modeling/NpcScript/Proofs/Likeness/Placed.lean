import NpcScript.Proofs.Likeness.Moved
import NpcScript.Proofs.Likeness.Within

/-!
Values in their places. A value that the grammar admits is told by its text and its place: the same
text at another place is the same value with other columns, and whatever is wrong with a value lies
in the stretch that the value covers.
-/

namespace NpcScript.Grammar

open Reader

def Value.Covers (value : Value) (column : Nat) : Prop :=
  value.column ≤ column ∧ column < value.column + value.text.length

/-- The grammar admits the value at the place where it stands. -/
def Value.IsPlaced (value : Value) : Prop :=
  ∃ s offset, value.IsWritten s offset

theorem Assignment.IsWritten.isPlaced {line : List Char} {assignment : Assignment}
    (h : assignment.IsWritten line) : ∀ value ∈ assignment.values, value.IsPlaced := by
  obtain ⟨hstart, hkey, hlink, hvalues, hne, hending⟩ := h
  intro value hvalue
  obtain ⟨s, offset, hs, -⟩ := hvalues.exists_of_mem hvalue
  exact ⟨s, offset, hs⟩

namespace Value.IsPlaced

theorem isNumber {source : Lexeme} (h : (Value.number source).IsPlaced) :
    IsNumber source.text := by
  obtain ⟨s, offset, h⟩ := h
  cases h with
  | number hs => exact hs

theorem argument {source : Lexeme} {name : List Char} {arguments : List Value}
    (h : (Value.call source name arguments).IsPlaced) : ∀ argument ∈ arguments,
      argument.IsPlaced := by
  obtain ⟨s, offset, h⟩ := h
  cases h with
  | call hname hgap harguments =>
      intro argument hargument
      obtain ⟨t, offset', ht, -⟩ := harguments.exists_of_mem hargument
      exact ⟨t, offset', ht⟩

variable {value value' : Value}

theorem source_eq {s : List Char} {offset : Nat} (h : value.IsWritten s offset) :
    value.source = ⟨offset + 1, s⟩ := by
  cases h <;> rfl

/-- No other value is written like a number. -/
theorem eq_number (h : value.IsPlaced) (hnumber : IsNumber value.text) :
    value = .number value.source := by
  have hhead : Spares beginsWord value.text := hnumber.spares_beginsWord
  obtain ⟨s, offset, h⟩ := h
  cases h with
  | number hs => rfl
  | quoted hs =>
      obtain ⟨text, hbody⟩ := hs
      cases hbody with
      | intro hbody => exact absurd rfl (hnumber.head_ne (c := '"') (by decide) (by decide))
  | word hs =>
      obtain ⟨hc, -⟩ := hs
      rw [spares_cons_iff.mp hhead] at hc
      cases hc
  | call hname hgap harguments =>
      obtain ⟨hc, -⟩ := hname
      rw [spares_cons_iff.mp hhead] at hc
      cases hc

/-- Whatever is wrong with a value is found where the value stands. -/
theorem covers_of_agree {α : Type} {good : α → α → Prop} (h : value.IsPlaced)
    {read : Value → Except Issue α}
    (hread : ∀ lo hi, value.Alike (.within lo hi) value →
      Agree good (Issue.Alike (.within lo hi)) (read value) (read value))
    {issue : Issue} (hissue : read value = .error issue) :
    ∃ column, issue.column = some column ∧ value.Covers column := by
  obtain ⟨s, offset, h⟩ := h
  have hagree := hread offset (offset + s.length) (h.alike_within (Nat.le_refl _) (Nat.le_refl _))
  rw [hissue] at hagree
  cases hagree with
  | error halike =>
      obtain ⟨⟨column, column', hcolumn, -, hlo, hhi⟩, -⟩ := halike
      refine ⟨column, hcolumn, ?_⟩
      simp only [Covers, Value.column, Value.text, source_eq h]
      omega

/-- Values with the same text differ in nothing but their columns. -/
theorem alike_of_text_eq (h : value.IsPlaced) (h' : value'.IsPlaced)
    (htext : value.text = value'.text) :
    ∃ k k', value.Alike (.moved k k') value' := by
  obtain ⟨s, offset, h⟩ := h
  obtain ⟨s', offset', h'⟩ := h'
  obtain rfl : s = s' := by simpa [Value.text, source_eq h, source_eq h'] using htext
  obtain ⟨moved, hmoved, halike⟩ : ∃ moved, Value.IsWritten s offset' moved ∧
      value.Alike (.moved offset offset') moved :=
    value.exists_moved (Nat.add_comm offset offset') h
  -- Both are what is read of the text at the second place.
  have hreads {found : Value} (hfound : found.IsWritten s offset') :
      ∃ last, Reads Grammar.value ⟨offset', s ++ []⟩ found last := by
    have hend : EndsPiece [] := ⟨by simp, .nothing⟩
    obtain ⟨last, hreads, -⟩ := value_takes (s.length + 1) hfound hend (by simp) (.refl _)
    exact ⟨last, hreads⟩
  obtain ⟨last, hread⟩ := hreads hmoved
  obtain ⟨last', hread'⟩ := hreads h'
  obtain ⟨rfl, -⟩ : moved = value' ∧ last = last' := by
    simpa using hread.symm.trans hread'
  exact ⟨offset, offset', halike⟩

end Value.IsPlaced

end NpcScript.Grammar
