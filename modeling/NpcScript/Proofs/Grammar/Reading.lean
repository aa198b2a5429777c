import NpcScript.Proofs.Grammar.OperandFront

/-!
What a reader comes to where a piece of syntax stands in front of a text. `Reads` and `Misses`
follow the ways in which readers are put together. A reader may go on over the blanks behind its
piece, as some do when they look for more, so the place at which it ends is only known up to these
blanks.
-/

namespace NpcScript.Grammar

open Reader (isGap)

/-! ### Blanks -/

inductive SkipsBlanks : Cursor → Cursor → Prop
  | intro {offset : Nat} {gap rest : List Char} (hgap : IsGap gap) :
      SkipsBlanks ⟨offset, gap ++ rest⟩ ⟨offset + gap.length, rest⟩

namespace SkipsBlanks

variable {cursor last : Cursor}

theorem refl (cursor : Cursor) : SkipsBlanks cursor cursor :=
  intro isGap_nil

theorem settle (cursor : Cursor) : SkipsBlanks cursor cursor.settle := by
  have h : SkipsBlanks ⟨cursor.offset, cursor.rest.takeWhile isGap ++ cursor.rest.dropWhile isGap⟩
      cursor.settle :=
    intro (isGap_takeWhile cursor.rest)
  rwa [List.takeWhile_append_dropWhile] at h

theorem settle_eq (h : SkipsBlanks cursor last) : last.settle = cursor.settle := by
  obtain ⟨hgap⟩ := h
  rename_i offset gap rest
  simp only [Cursor.settle, List.takeWhile_append_of_pos hgap, List.dropWhile_append_of_pos hgap,
    List.length_append, Nat.add_assoc]

theorem length_le (h : SkipsBlanks cursor last) : last.rest.length ≤ cursor.rest.length := by
  obtain ⟨hgap⟩ := h
  simp

/-- Blanks are skipped only up to the first other character. -/
theorem length_lt {offset : Nat} {s rest : List Char} {c : Char}
    (h : SkipsBlanks ⟨offset, s ++ rest⟩ last) (hmem : c ∈ s) (hc : isGap c = false) :
    rest.length < last.rest.length := by
  generalize hcursor : (⟨offset, s ++ rest⟩ : Cursor) = cursor at h
  obtain ⟨hgap⟩ := h
  rename_i gap behind
  rw [Cursor.mk.injEq] at hcursor
  obtain ⟨-, htext⟩ := hcursor
  rcases List.append_eq_append_iff.mp htext with ⟨t, rfl, -⟩ | ⟨t, rfl, rfl⟩
  · have hgap := hgap c (by simp [hmem])
    rw [hc] at hgap
    cases hgap
  · have ht : t ≠ [] := by
      rintro rfl
      have hgap := hgap c (by simpa using hmem)
      rw [hc] at hgap
      cases hgap
    have hpos := List.length_pos_iff.mpr ht
    rw [List.length_append]
    omega

end SkipsBlanks

theorem Cursor.settle_of_spares {offset : Nat} {s : List Char} (hs : Spares isGap s) :
    Cursor.settle ⟨offset, s⟩ = ⟨offset, s⟩ := by
  have htake : s.takeWhile isGap = [] := takeWhile_append_of_spares (s := []) (by simp) hs
  have hdrop : s.dropWhile isGap = s := dropWhile_append_of_spares (s := []) (by simp) hs
  simp only [Cursor.settle, htake, hdrop]
  rfl

theorem Cursor.settle_append {offset : Nat} {gap s : List Char} (hgap : IsGap gap)
    (hs : Spares isGap s) : Cursor.settle ⟨offset, gap ++ s⟩ = ⟨offset + gap.length, s⟩ := by
  rw [← (SkipsBlanks.intro hgap).settle_eq]
  exact Cursor.settle_of_spares hs

theorem SkipsBlanks.eq_of_spares {offset : Nat} {s : List Char} {cursor : Cursor}
    (h : SkipsBlanks ⟨offset, s⟩ cursor) (hs : Spares isGap s) : cursor = ⟨offset, s⟩ := by
  generalize hstart : (⟨offset, s⟩ : Cursor) = start at h
  obtain ⟨hgap⟩ := h
  rename_i start gap rest
  rw [Cursor.mk.injEq] at hstart
  obtain ⟨rfl, rfl⟩ := hstart
  cases gap with
  | nil => rfl
  | cons c gap =>
      have hc := hgap c (by simp)
      rw [List.cons_append, spares_cons_iff, hc] at hs
      cases hs

theorem SkipsBlanks.settle_eq_of_spares {offset : Nat} {gap s : List Char} {cursor : Cursor}
    (h : SkipsBlanks ⟨offset, gap ++ s⟩ cursor) (hgap : IsGap gap) (hs : Spares isGap s) :
    cursor.settle = ⟨offset + gap.length, s⟩ := by
  rw [h.settle_eq, Cursor.settle_append hgap hs]

namespace Reader

variable {α β : Type}

def Reads (reader : Reader α) (cursor : Cursor) (a : α) (last : Cursor) : Prop :=
  (reader cursor).result = some (a, last)

def Misses (reader : Reader α) (cursor : Cursor) : Prop :=
  (reader cursor).result = none

section Rules

variable {cursor middle last : Cursor} {a : α} {b : β}

theorem Reads.pure (a : α) (cursor : Cursor) : Reads (Pure.pure a) cursor a cursor :=
  rfl

theorem Reads.bind {first : Reader α} {second : α → Reader β} (hfirst : Reads first cursor a middle)
    (hsecond : Reads (second a) middle b last) : Reads (first >>= second) cursor b last :=
  result_bind_eq_some_iff.mpr ⟨a, middle, hfirst, hsecond⟩

theorem Reads.blanks (cursor : Cursor) : Reads Reader.blanks cursor () cursor.settle :=
  result_blanks cursor

theorem Misses.bind {first : Reader α} {second : α → Reader β} (h : Misses first cursor) :
    Misses (first >>= second) cursor := by
  show (andThen first second cursor).result = none
  have h : (first cursor).result = none := h
  unfold andThen
  split <;> simp_all

theorem Reads.bind_misses {first : Reader α} {second : α → Reader β}
    (hfirst : Reads first cursor a middle) (hsecond : Misses (second a) middle) :
    Misses (first >>= second) cursor := by
  refine Option.eq_none_iff_forall_ne_some.mpr fun found hfound => ?_
  obtain ⟨a', middle', ha, hb⟩ := result_bind_eq_some_iff.mp hfound
  have hsame := ha.symm.trans hfirst
  cases hsame
  rw [hsecond] at hb
  cases hb

theorem Reads.orElse {first : Reader α} (h : Reads first cursor a last) (second : Reader α) :
    Reads (first <|> second) cursor a last := by
  show (Reader.orElse first second cursor).result = _
  have h : (first cursor).result = _ := h
  unfold Reader.orElse
  split <;> simp_all

theorem Misses.orElse {first second : Reader α} (hfirst : Misses first cursor)
    (hsecond : Reads second cursor a last) : Reads (first <|> second) cursor a last := by
  show (Reader.orElse first second cursor).result = _
  have hfirst : (first cursor).result = none := hfirst
  unfold Reader.orElse
  split
  · simp_all
  · exact hsecond

theorem Misses.orElse_misses {first second : Reader α} (hfirst : Misses first cursor)
    (hsecond : Misses second cursor) : Misses (first <|> second) cursor := by
  show (Reader.orElse first second cursor).result = _
  have hfirst : (first cursor).result = none := hfirst
  unfold Reader.orElse
  split
  · simp_all
  · exact hsecond

theorem Reads.maybe {piece : Reader α} (h : Reads piece cursor a last) :
    Reads (Reader.maybe piece) cursor (some a) last := by
  have hpiece : Reads (do return some (← piece)) cursor (some a) last :=
    h.bind (Reads.pure (some a) last)
  exact hpiece.orElse _

theorem Misses.maybe {piece : Reader α} (h : Misses piece cursor) :
    Reads (Reader.maybe piece) cursor none cursor := by
  have hpiece : Misses (do return some (← piece)) cursor := Misses.bind h
  exact hpiece.orElse (Reads.pure none cursor)

theorem Reads.marked {piece : Reader α} (h : Reads piece cursor a last) :
    Reads (Reader.marked piece) cursor a last := by
  have h : (piece cursor).result = _ := h
  show (Reader.marked piece cursor).result = _
  unfold Reader.marked
  split <;> simp_all

theorem Misses.marked {piece : Reader α} (h : Misses piece cursor) :
    Misses (Reader.marked piece) cursor := by
  have h : (piece cursor).result = _ := h
  show (Reader.marked piece cursor).result = _
  unfold Reader.marked
  split <;> simp_all

end Rules

/-! ### Lexemes -/

section Lexemes

variable {offset : Nat} {s rest : List Char} {cursor : Cursor} {lexer : Lexer} {α : Type}

theorem Reads.withText {piece : Reader α} {a : α}
    (h : Reads piece ⟨offset, s ++ rest⟩ a ⟨offset + s.length, rest⟩) :
    Reads (Reader.withText piece) ⟨offset, s ++ rest⟩ (⟨offset + 1, s⟩, a)
      ⟨offset + s.length, rest⟩ := by
  have h : (piece ⟨offset, s ++ rest⟩).result = _ := h
  show (Reader.withText piece _).result = _
  unfold Reader.withText
  split <;> simp_all

theorem Misses.withText {piece : Reader α} (h : Misses piece cursor) :
    Misses (Reader.withText piece) cursor := by
  have h : (piece cursor).result = none := h
  show (Reader.withText piece cursor).result = _
  unfold Reader.withText
  split <;> simp_all

theorem Reads.lexeme (h : lexer (s ++ rest) = some rest) :
    Reads (Reader.lexeme lexer) ⟨offset, s ++ rest⟩ ⟨offset + 1, s⟩ ⟨offset + s.length, rest⟩ := by
  show (Reader.lexeme lexer _).result = _
  simp [Reader.lexeme, h, Cursor.advance]

theorem Misses.lexeme (h : lexer cursor.rest = none) : Misses (Reader.lexeme lexer) cursor := by
  show (Reader.lexeme lexer _).result = _
  simp [Reader.lexeme, h]

theorem Reads.mark (c : Char) (rest : List Char) :
    Reads (Reader.mark c) ⟨offset, c :: rest⟩ () ⟨offset + 1, rest⟩ := by
  show (Reader.mark c _).result = _
  simp [Reader.mark, Cursor.advance]

theorem Misses.mark {c : Char} (h : cursor.rest.head? ≠ some c) :
    Misses (Reader.mark c) cursor := by
  show (Reader.mark c _).result = _
  simp [Reader.mark, h]

end Lexemes

end Reader

open Reader in
/-- A mark is read behind the blanks in front of it, and leaves those behind it. -/
theorem IsMark.reads {mark : Char} {sep s : List Char} (h : IsMark mark sep)
    (hmark : isGap mark = false) (hs : Spares isGap s) (offset : Nat) :
    ∃ middle, Reads (Reader.mark mark) (Cursor.settle ⟨offset, sep ++ s⟩) () middle ∧
      middle.settle = ⟨offset + sep.length, s⟩ := by
  obtain ⟨hbefore, hafter⟩ := h
  rename_i before after
  have hsettle : Cursor.settle ⟨offset, before ++ mark :: after ++ s⟩ =
      ⟨offset + before.length, mark :: (after ++ s)⟩ := by
    rw [List.append_assoc]
    exact Cursor.settle_append hbefore (spares_cons_iff.mpr hmark)
  have hoffset : offset + (before ++ mark :: after).length =
      offset + before.length + 1 + after.length := by
    simp only [List.length_append, List.length_cons]
    omega
  rw [hsettle, hoffset]
  exact ⟨_, Reads.mark mark _, Cursor.settle_append hafter hs⟩

open Reader in
/-- Between two pieces that a mark may separate, the mark is read if it is there. -/
theorem maybeMark_reads {mark : Char} {sep s : List Char} (h : IsMark mark sep ∨ IsGap sep)
    (hmark : isGap mark = false) (hs : Spares isGap s) (hne : s.head? ≠ some mark)
    (offset : Nat) :
    ∃ found middle,
      Reads (maybe (Reader.mark mark)) (Cursor.settle ⟨offset, sep ++ s⟩) found middle ∧
      middle.settle = ⟨offset + sep.length, s⟩ := by
  rcases h with hsep | hgap
  · obtain ⟨middle, hreads, hmiddle⟩ := hsep.reads hmark hs offset
    exact ⟨_, middle, hreads.maybe, hmiddle⟩
  · rw [Cursor.settle_append hgap hs]
    exact ⟨_, _, Misses.maybe (Misses.mark hne), Cursor.settle_of_spares hs⟩

namespace Reader

/-! ### Ends of lines -/

theorem Reads.ending {offset : Nat} {s : List Char} {cursor : Cursor} (hs : IsEnding s)
    (hcursor : SkipsBlanks ⟨offset, s⟩ cursor) {α : Type} (a : α) :
    ∃ last, Reads (do Reader.blanks; trailingComment; Reader.blanks; atEnd; return a) cursor a
      last := by
  have hend : ∀ offset : Nat,
      Reads (do Reader.blanks; atEnd; return a) ⟨offset, []⟩ a ⟨offset, []⟩ := fun offset => rfl
  suffices h : ∃ last, Reads (do trailingComment; Reader.blanks; atEnd; return a) cursor.settle a
      last by
    obtain ⟨last, hlast⟩ := h
    exact ⟨last, (Reads.blanks cursor).bind hlast⟩
  cases hs with
  | blank hgap =>
      have hsettle : cursor.settle = ⟨offset + s.length, []⟩ :=
        SkipsBlanks.settle_eq_of_spares (by simpa using hcursor) hgap spares_nil
      have hcomment :
          Reads trailingComment ⟨offset + s.length, []⟩ () ⟨offset + s.length, []⟩ := rfl
      rw [hsettle]
      exact ⟨_, hcomment.bind (hend _)⟩
  | @comment gap hgap text =>
      have hsettle : cursor.settle = ⟨offset + gap.length, '-' :: '-' :: text⟩ :=
        hcursor.settle_eq_of_spares hgap (by simp [isGap])
      have hcomment : Reads trailingComment ⟨offset + gap.length, '-' :: '-' :: text⟩ ()
          ⟨offset + gap.length + ('-' :: '-' :: text).length, []⟩ := by
        show (trailingComment _).result = _
        simp [trailingComment, Cursor.advance]
      rw [hsettle]
      exact ⟨_, hcomment.bind (hend _)⟩

theorem Reads.run {α : Type} {reader : Reader α} {text : List Char} {a : α} {last : Cursor}
    (h : Reads reader ⟨0, text⟩ a last) : reader.run text = .ok a := by
  have h : (reader ⟨0, text⟩).result = some (a, last) := h
  unfold Reader.run
  split <;> simp_all

/-! ### Lists -/

section Lists

variable {α : Type} {bound offset : Nat} {piece : Reader α} {separator : List Char → Prop}
  {item : List Char → Nat → α → Prop} {cursor middle last : Cursor} {s rest : List Char} {a : α}
  {as : List α}

/-- In front of whatever ends a piece the reader comes to what the relation says. The bound on the
length of the line is for readers that call themselves. -/
def Takes (bound : Nat) (piece : Reader α) (item : List Char → Nat → α → Prop) : Prop :=
  ∀ ⦃offset : Nat⦄ ⦃s rest : List Char⦄ ⦃a : α⦄ ⦃cursor : Cursor⦄, item s offset a →
    EndsPiece rest → s.length + rest.length < bound → SkipsBlanks ⟨offset, s ++ rest⟩ cursor →
    ∃ last, Reads piece cursor a last ∧ SkipsBlanks ⟨offset + s.length, rest⟩ last

theorem collect_of_misses (h : Misses piece cursor) :
    ∃ missed, collect piece cursor = ([], cursor, missed) := by
  have h : (piece cursor).result = none := h
  unfold collect
  split <;> simp_all

theorem collect_of_reads (h : Reads piece cursor a middle)
    (hlt : middle.rest.length < cursor.rest.length) {missed : Nat}
    (hothers : collect piece middle = (as, last, missed)) :
    ∃ missed', collect piece cursor = (a :: as, last, missed') := by
  have h : (piece cursor).result = some (a, middle) := h
  rw [collect]
  split <;> simp_all

/-- The bound on the length of what is left is there for readers that call themselves. -/
theorem Takes.mono {bound' : Nat} (h : Takes bound piece item) (hle : bound' ≤ bound) :
    Takes bound' piece item := by
  intro offset s rest a cursor ha hrest hlt hcursor
  exact h ha hrest (Nat.lt_of_lt_of_le hlt hle) hcursor

/-- A reader that refuses longer texts is as good on texts below the bound. -/
theorem Takes.guarded (h : Takes bound piece item) :
    Takes bound (fun cursor => if cursor.rest.length < bound then piece cursor else ⟨none, 0⟩)
      item := by
  intro offset s rest a cursor ha hrest hlt hcursor
  obtain ⟨last, hreads, hlast⟩ := h ha hrest hlt hcursor
  refine ⟨last, ?_, hlast⟩
  have hle := hcursor.length_le
  rw [List.length_append] at hle
  have hguard : (if cursor.rest.length < bound then piece cursor else ⟨none, 0⟩) = piece cursor :=
    if_pos (by omega)
  show (if cursor.rest.length < bound then piece cursor else ⟨none, 0⟩).result = _
  rw [hguard]
  exact hreads

theorem Misses.guarded (h : Misses piece cursor) :
    Misses (fun cursor => if cursor.rest.length < bound then piece cursor else ⟨none, 0⟩)
      cursor := by
  show (if cursor.rest.length < bound then piece cursor else ⟨none, 0⟩).result = none
  split
  · exact h
  · rfl

theorem endsPiece_of_isChain
    (hends : ∀ {offset : Nat} {s : List Char} {a : α}, IsBehind separator item s offset a →
      ∀ rest, EndsPiece (s ++ rest))
    (h : IsChain separator item s offset as) (hrest : EndsPiece rest) : EndsPiece (s ++ rest) := by
  cases h with
  | nil => exact hrest
  | cons hsep ha has =>
      have hends := hends (.intro hsep ha)
      simpa using hends _

theorem Reads.many (hpiece : Takes bound piece (IsBehind separator item))
    (hitem : ∀ {offset : Nat} {s : List Char} {a : α}, item s offset a → StartsPiece s)
    (hends : ∀ {offset : Nat} {s : List Char} {a : α}, IsBehind separator item s offset a →
      ∀ rest, EndsPiece (s ++ rest))
    (h : IsChain separator item s offset as) (hrest : EndsPiece rest)
    (hstop : ∀ {offset : Nat} {cursor : Cursor}, SkipsBlanks ⟨offset, rest⟩ cursor →
      Misses piece cursor)
    (hbound : s.length + rest.length < bound) (hcursor : SkipsBlanks ⟨offset, s ++ rest⟩ cursor) :
    ∃ last, Reads (Reader.many piece) cursor as last ∧
      SkipsBlanks ⟨offset + s.length, rest⟩ last := by
  have hcollect : ∃ last missed, collect piece cursor = (as, last, missed) ∧
      SkipsBlanks ⟨offset + s.length, rest⟩ last := by
    induction h generalizing cursor with
    | nil =>
        obtain ⟨missed, hmissed⟩ := collect_of_misses (hstop hcursor)
        exact ⟨cursor, missed, hmissed, hcursor⟩
    | @cons offset sep s others a as hsep ha has ih =>
        have hbehind : IsBehind separator item (sep ++ s) offset a := .intro hsep ha
        simp only [List.length_append] at hbound
        have hfollow := endsPiece_of_isChain hends has hrest
        rw [← List.append_assoc, List.append_assoc] at hcursor
        obtain ⟨middle, hreads, hmiddle⟩ :=
          hpiece hbehind hfollow (by simp only [List.length_append]; omega) hcursor
        obtain ⟨last, missed, hothers, hlast⟩ := ih (by omega) (by
          rw [List.length_append, ← Nat.add_assoc] at hmiddle
          exact hmiddle)
        obtain ⟨c, hc, hgap⟩ := (hitem ha).exists_not_isGap
        have hlt := hcursor.length_lt (c := c) (by simp [hc]) hgap
        obtain ⟨missed', hcollect⟩ :=
          collect_of_reads hreads (Nat.lt_of_le_of_lt hmiddle.length_le hlt) hothers
        refine ⟨last, missed', hcollect, ?_⟩
        simpa [Nat.add_assoc] using hlast
  obtain ⟨last, missed, hcollect, hlast⟩ := hcollect
  refine ⟨last, ?_, hlast⟩
  show (Reader.many piece cursor).result = _
  rw [Reader.many, hcollect]

theorem Takes.behindComma (hpiece : Takes bound piece item)
    (hitem : ∀ {offset : Nat} {s : List Char} {a : α}, item s offset a → StartsPiece s) :
    Takes bound (do Reader.blanks; Reader.mark ','; Reader.blanks; piece)
      (IsBehind (IsMark ',') item) := by
  intro offset s rest a cursor ha hrest hbound hcursor
  obtain ⟨hsep, ha⟩ := ha
  rename_i sep s
  rw [List.append_assoc] at hcursor
  have hspares := ((hitem ha).append rest).spares_isGap
  obtain ⟨middle, hmark, hmiddle⟩ := hsep.reads (by decide) hspares offset
  rw [List.length_append] at hbound
  obtain ⟨last, hreads, hlast⟩ := hpiece ha hrest (by omega) (.refl _)
  refine ⟨last, ?_, ?_⟩
  · refine (Reads.blanks cursor).bind ?_
    rw [hcursor.settle_eq]
    refine hmark.bind ((Reads.blanks middle).bind ?_)
    rw [hmiddle]
    exact hreads
  · rw [List.length_append, ← Nat.add_assoc]
    exact hlast

/-- Behind the last member there is no further comma. -/
theorem Reads.commaSeparated (hpiece : Takes bound piece item)
    (hitem : ∀ {offset : Nat} {s : List Char} {a : α}, item s offset a → StartsPiece s)
    (h : IsRow (IsMark ',') item s offset as) (has : as ≠ []) (hrest : EndsPiece rest)
    (hcomma : (rest.dropWhile isGap).head? ≠ some ',')
    (hbound : s.length + rest.length < bound) (hcursor : SkipsBlanks ⟨offset, s ++ rest⟩ cursor) :
    ∃ last, Reads (Reader.commaSeparated piece) cursor as last ∧
      SkipsBlanks ⟨offset + s.length, rest⟩ last := by
  cases h with
  | nil => exact absurd rfl has
  | @cons offset s others a as ha has' =>
      have hends : ∀ {offset : Nat} {s : List Char} {a : α}, IsBehind (IsMark ',') item s offset a →
          ∀ rest, EndsPiece (s ++ rest) := by
        rintro offset s a ⟨hsep, ha⟩ rest
        rw [List.append_assoc]
        exact hsep.endsPiece _
      have hstop : ∀ {offset : Nat} {cursor : Cursor}, SkipsBlanks ⟨offset, rest⟩ cursor →
          Misses (do Reader.blanks; Reader.mark ','; Reader.blanks; piece) cursor := by
        intro offset cursor hcursor
        refine (Reads.blanks cursor).bind_misses ?_
        refine Misses.bind (Misses.mark ?_)
        rw [hcursor.settle_eq]
        exact hcomma
      have hfollow := endsPiece_of_isChain hends has' hrest
      rw [List.append_assoc] at hcursor
      simp only [List.length_append] at hbound
      obtain ⟨middle, hfirst, hmiddle⟩ :=
        hpiece ha hfollow (by simp only [List.length_append]; omega) hcursor
      obtain ⟨last, hothers, hlast⟩ :=
        Reads.many (hpiece.behindComma hitem) hitem hends has' hrest hstop (by omega) hmiddle
      refine ⟨last, hfirst.bind (hothers.bind (.pure _ _)), ?_⟩
      rw [List.length_append, ← Nat.add_assoc]
      exact hlast

/-- The closing parenthesis ends the list, whatever follows it. -/
theorem Reads.parenthesised (hpiece : Takes bound piece item)
    (hitem : ∀ {offset : Nat} {s : List Char} {a : α}, item s offset a → StartsPiece s)
    (hclose : ∀ {offset : Nat} {rest : List Char}, Misses piece ⟨offset, ')' :: rest⟩)
    (h : IsParenthesised item s offset as) (hbound : s.length + rest.length < bound) :
    Reads (Reader.parenthesised piece) ⟨offset, s ++ rest⟩ as ⟨offset + s.length, rest⟩ := by
  obtain ⟨hbefore, hinside, hafter⟩ := h
  rename_i before inside after
  have htext : '(' :: (before ++ (inside ++ (after ++ [')']))) ++ rest =
      '(' :: (before ++ (inside ++ (after ++ ')' :: rest))) := by
    simp
  have hoffset : offset + ('(' :: (before ++ (inside ++ (after ++ [')'])))).length =
      offset + 1 + before.length + inside.length + after.length + 1 := by
    simp only [List.length_append, List.length_cons, List.length_nil]
    omega
  have hclosing : Spares isGap (')' :: rest) := spares_cons_iff.mpr (by decide)
  -- Both with and without members the closing parenthesis is what the blanks lead to.
  suffices h : ∃ found middle, Reads (Reader.maybe (Reader.commaSeparated piece))
      (Cursor.settle ⟨offset + 1, before ++ (inside ++ (after ++ ')' :: rest))⟩) found middle ∧
      middle.settle = ⟨offset + 1 + before.length + inside.length + after.length, ')' :: rest⟩ ∧
      found.getD [] = as by
    obtain ⟨found, middle, hfound, hmiddle, rfl⟩ := h
    rw [htext, hoffset]
    refine (Reads.mark '(' _).bind ?_
    refine (Reads.blanks _).bind ?_
    refine hfound.bind ?_
    refine (Reads.blanks _).bind ?_
    rw [hmiddle]
    exact (Reads.mark ')' rest).bind (.pure _ _)
  cases has : as with
  | nil =>
      subst has
      cases hinside
      have hsettle : Cursor.settle ⟨offset + 1, before ++ (after ++ ')' :: rest)⟩ =
          ⟨offset + 1 + (before ++ after).length, ')' :: rest⟩ := by
        rw [← List.append_assoc]
        exact Cursor.settle_append (hbefore.append hafter) hclosing
      refine ⟨none, _, Misses.maybe ?_, ?_, rfl⟩
      · rw [List.nil_append, hsettle]
        exact Misses.bind hclose
      · rw [List.nil_append, hsettle, Cursor.settle_of_spares hclosing, List.length_append,
          ← Nat.add_assoc]
        rfl
  | cons a others =>
      have hne : as ≠ [] := by simp [has]
      have hstart : Spares isGap (inside ++ (after ++ ')' :: rest)) := by
        cases hinside with
        | nil => exact absurd rfl hne
        | cons ha has =>
            rw [List.append_assoc]
            exact ((hitem ha).append _).spares_isGap
      have hsettle : Cursor.settle ⟨offset + 1, before ++ (inside ++ (after ++ ')' :: rest))⟩ =
          ⟨offset + 1 + before.length, inside ++ (after ++ ')' :: rest)⟩ :=
        Cursor.settle_append hbefore hstart
      have hends : EndsPiece (after ++ ')' :: rest) :=
        (IsNext.closing rest).endsPiece hafter (.inr (spares_cons_iff.mpr (by decide)))
      have hcomma : ((after ++ ')' :: rest).dropWhile isGap).head? ≠ some ',' := by
        rw [dropWhile_append_of_spares hafter hclosing]
        simp
      have hlt : inside.length + (after ++ ')' :: rest).length < bound := by
        simp only [List.length_append, List.length_cons, List.length_nil] at hbound ⊢
        omega
      obtain ⟨middle, hreads, hmiddle⟩ :=
        Reads.commaSeparated hpiece hitem hinside hne hends hcomma hlt (.refl _)
      refine ⟨some as, middle, ?_, ?_, has⟩
      · rw [hsettle]
        exact hreads.maybe
      · exact hmiddle.settle_eq_of_spares hafter hclosing

end Lists

end Reader

end NpcScript.Grammar
