import NpcScript.Grammar.Reader
import NpcScript.Proofs.Grammar.Token

/-!
How the pieces of a line are laid out. Blanks may stand between any two pieces, commas separate the
members of a list, and a comment may end the line. The relations of this module say what a text at
an offset spells, given what its members spell; the offset is there because every lexeme remembers
the column of its first character.
-/

namespace NpcScript.Grammar

open Reader (isGap)

/-- Blanks only, or nothing at all. -/
def IsGap (s : List Char) : Prop :=
  ∀ c ∈ s, isGap c = true

/-- A punctuation mark, with or without blanks on either side. -/
inductive IsMark (mark : Char) : List Char → Prop
  | intro {before after : List Char} (hbefore : IsGap before) (hafter : IsGap after) :
      IsMark mark (before ++ mark :: after)

/-- The end of a line: blanks, and perhaps a comment behind them. -/
inductive IsEnding : List Char → Prop
  | blank {gap : List Char} (hgap : IsGap gap) : IsEnding gap
  | comment {gap : List Char} (hgap : IsGap gap) (text : List Char) :
      IsEnding (gap ++ '-' :: '-' :: text)

section Lists

variable {α : Type} (separator : List Char → Prop) (item : List Char → Nat → α → Prop)

inductive IsBehind : List Char → Nat → α → Prop
  | intro {offset : Nat} {sep s : List Char} {a : α} (hsep : separator sep)
      (ha : item s (offset + sep.length) a) : IsBehind (sep ++ s) offset a

/-- Members of a list, each behind a separator. -/
inductive IsChain : List Char → Nat → List α → Prop
  | nil {offset : Nat} : IsChain [] offset []
  | cons {offset : Nat} {sep s others : List Char} {a : α} {as : List α} (hsep : separator sep)
      (ha : item s (offset + sep.length) a)
      (has : IsChain others (offset + sep.length + s.length) as) :
      IsChain (sep ++ (s ++ others)) offset (a :: as)

/-- Members of a list with separators between them. -/
inductive IsRow : List Char → Nat → List α → Prop
  | nil {offset : Nat} : IsRow [] offset []
  | cons {offset : Nat} {s others : List Char} {a : α} {as : List α} (ha : item s offset a)
      (has : IsChain separator item others (offset + s.length) as) :
      IsRow (s ++ others) offset (a :: as)

inductive IsParenthesised : List Char → Nat → List α → Prop
  | intro {offset : Nat} {before inside after : List Char} {as : List α} (hbefore : IsGap before)
      (hinside : IsRow (IsMark ',') item inside (offset + 1 + before.length) as)
      (hafter : IsGap after) :
      IsParenthesised ('(' :: (before ++ (inside ++ (after ++ [')'])))) offset as

/-- What may be there, and then has blanks in front of it or none. -/
inductive IsOptional : List Char → Nat → Option α → Prop
  | none {offset : Nat} : IsOptional [] offset none
  | some {offset : Nat} {gap s : List Char} {a : α} (hgap : IsGap gap)
      (ha : item s (offset + gap.length) a) : IsOptional (gap ++ s) offset (some a)

def IsTrailed (text : List Char) (offset : Nat) (a : α) : Prop :=
  ∃ s gap, text = s ++ gap ∧ item s offset a ∧ IsGap gap

end Lists

/-! ### Gaps -/

section Gaps

variable {s t : List Char}

theorem isGap_nil : IsGap [] := by
  simp [IsGap]

theorem isGap_space : IsGap [' '] := by
  simp [IsGap, isGap]

theorem IsGap.append (hs : IsGap s) (ht : IsGap t) : IsGap (s ++ t) := by
  intro c hc
  rcases List.mem_append.mp hc with hc | hc
  · exact hs c hc
  · exact ht c hc

theorem isGap_takeWhile (s : List Char) : IsGap (s.takeWhile isGap) :=
  fun _ hc => List.mem_takeWhile_imp hc

theorem IsMark.append {mark : Char} {sep gap : List Char} (hgap : IsGap gap)
    (hsep : IsMark mark sep) : IsMark mark (gap ++ sep) := by
  obtain ⟨hbefore, hafter⟩ := hsep
  rw [← List.append_assoc]
  exact .intro (hgap.append hbefore) hafter

theorem IsEnding.append {ending gap : List Char} (hgap : IsGap gap) (h : IsEnding ending) :
    IsEnding (gap ++ ending) := by
  cases h with
  | blank hblank => exact .blank (hgap.append hblank)
  | comment hblank text =>
      rw [← List.append_assoc]
      exact .comment (hgap.append hblank) text

theorem IsEnding.of_parts {before comment after : List Char} (hbefore : IsGap before)
    (hcomment : comment = [] ∨ ∃ text, comment = '-' :: '-' :: text) (hafter : IsGap after) :
    IsEnding (before ++ (comment ++ after)) := by
  rcases hcomment with rfl | ⟨text, rfl⟩
  · exact .blank (hbefore.append hafter)
  · exact .comment hbefore (text ++ after)

/-- A comment goes on to the end of the line, so it takes up whatever is added. -/
theorem IsEnding.append_ending (hs : IsEnding s) (ht : IsEnding t) : IsEnding (s ++ t) := by
  cases hs with
  | blank hgap => exact ht.append hgap
  | comment hgap text => simpa using IsEnding.comment hgap (text ++ t)

end Gaps

section Trailed

variable {α : Type} {separator : List Char → Prop} {item : List Char → Nat → α → Prop}
  {s gap : List Char} {offset : Nat} {as : List α}

/-- Blanks in front of a chain belong to its first separator, or else stand behind it. -/
theorem IsTrailed.append (hsep : ∀ gap sep, IsGap gap → separator sep → separator (gap ++ sep))
    (hgap : IsGap gap) (h : IsTrailed (IsChain separator item) s (offset + gap.length) as) :
    IsTrailed (IsChain separator item) (gap ++ s) offset as := by
  obtain ⟨t, last, rfl, ht, hlast⟩ := h
  cases ht with
  | nil => exact ⟨[], gap ++ last, by simp, .nil, hgap.append hlast⟩
  | @cons _ sep s others a as hfirst ha has =>
      have hchain : IsChain separator item (gap ++ sep ++ (s ++ others)) offset (a :: as) := by
        refine .cons (hsep gap sep hgap hfirst) ?_ ?_
        · rwa [List.length_append, ← Nat.add_assoc]
        · rwa [List.length_append, ← Nat.add_assoc]
      exact ⟨_, last, by simp, hchain, hlast⟩

/-- Blanks in front of what may be there belong to it, or else stand behind nothing. -/
theorem IsOptional.append {found : Option α} (hgap : IsGap gap)
    (h : IsOptional item s (offset + gap.length) found) :
    IsTrailed (IsOptional item) (gap ++ s) offset found := by
  cases h with
  | none => exact ⟨[], gap, by simp, .none, hgap⟩
  | @some _ gap' s a hgap' ha =>
      rw [Nat.add_assoc, ← List.length_append] at ha
      exact ⟨gap ++ gap' ++ s, [], by simp, .some (hgap.append hgap') ha, isGap_nil⟩

/-- Blanks behind the members of a chain belong to the separators that follow them. -/
theorem IsChain.of_trailed (hsep : ∀ gap sep, IsGap gap → separator sep → separator (gap ++ sep))
    (h : IsChain separator (IsTrailed item) s offset as) :
    IsTrailed (IsChain separator item) s offset as := by
  induction h with
  | nil => exact ⟨[], [], rfl, .nil, isGap_nil⟩
  | @cons offset sep s others a as hfirst ha has ih =>
      obtain ⟨t, gap, rfl, ht, hgap⟩ := ha
      rw [List.length_append, ← Nat.add_assoc] at ih
      obtain ⟨u, last, hu, hchain, hlast⟩ := ih.append hsep hgap
      refine ⟨sep ++ (t ++ u), last, ?_, .cons hfirst ht hchain, hlast⟩
      simp [hu]

end Trailed

/-- The cursor behind the blanks that begin here. -/
def Cursor.settle (cursor : Cursor) : Cursor :=
  ⟨cursor.offset + (cursor.rest.takeWhile isGap).length, cursor.rest.dropWhile isGap⟩

theorem Reader.result_blanks (cursor : Cursor) :
    (blanks cursor).result = some ((), cursor.settle) := by
  have hsplit : cursor.rest.takeWhile isGap ++ cursor.rest.dropWhile isGap = cursor.rest :=
    List.takeWhile_append_dropWhile
  have hdrop : cursor.rest.drop (cursor.rest.takeWhile isGap).length =
      cursor.rest.dropWhile isGap :=
    (congrArg (List.drop _) hsplit).symm.trans List.drop_left
  rw [Cursor.settle, ← hdrop]
  rfl

/-! ### Where a piece ends -/

/-- What stands behind a piece of a line when blanks are left out. None of it continues the piece.
-/
inductive IsNext : List Char → Prop
  | nothing : IsNext []
  | comma (s : List Char) : IsNext (',' :: s)
  | closing (s : List Char) : IsNext (')' :: s)
  | arrow (s : List Char) : IsNext ('-' :: '>' :: s)
  | comment (s : List Char) : IsNext ('-' :: '-' :: s)
  | literal (s : List Char) : IsNext ('"' :: s)
  | percent (s : List Char) : IsNext ('%' :: s)
  | word {c : Char} (hc : beginsWord c = true) (s : List Char) : IsNext (c :: s)

/-- What follows a piece cannot be taken for more of it. -/
structure EndsBefore (s rest : List Char) : Prop where
  stops : Stops s rest
  next : IsNext (rest.dropWhile isGap)

theorem EndsBefore.of_append {s t rest : List Char} (h : EndsBefore (t ++ s) rest) :
    EndsBefore s rest :=
  ⟨h.stops.of_append, h.next⟩

/-- The text begins with something that cannot be taken for more of the piece in front of it. -/
structure EndsPiece (rest : List Char) : Prop where
  spares : Spares continuesWord rest
  next : IsNext (rest.dropWhile isGap)

theorem EndsPiece.endsBefore {rest : List Char} (h : EndsPiece rest) (s : List Char) :
    EndsBefore s rest :=
  ⟨h.spares.stops s, h.next⟩

end NpcScript.Grammar
