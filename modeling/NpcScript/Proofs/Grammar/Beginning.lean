import NpcScript.Proofs.Grammar.Spelling

/-!
Where readers look for lexemes in vain. A text is a beginning if something can be put behind it that
makes the whole a good one. A reader avoids dead ends at a place of a line if the furthest lexeme
that it misses there, on whatever path it has tried, has a beginning in front of it. There is one
rule for each way in which readers are put together. What the rules ask for in the end is that some
piece of the kind that is looked for would do.
-/

namespace NpcScript.Grammar

open Text (columnInLastLine)

/-- In a single line the column of a place tells how many characters stand in front of it. -/
theorem columnInLastLine_of_notMem {line : List Char} (h : '\n' ∉ line) (offset : Nat) :
    columnInLastLine line offset = (line.take offset).length + 1 := by
  have hall : ∀ c ∈ (line.take offset).reverse, decide (c ≠ '\n') = true := by
    intro c hc
    refine decide_eq_true ?_
    rintro rfl
    exact h (List.mem_of_mem_take (List.mem_reverse.mp hc))
  rw [columnInLastLine, List.takeWhile_eq_self_iff.mpr hall, List.length_reverse]

/-- Something can be put behind the text that makes the whole a good one. -/
def IsBeginning (good : List Char → Prop) (s : List Char) : Prop :=
  ∃ more, good (s ++ more)

/-- What stands in front of the place is a beginning. Place 0 says that nothing was missed. -/
def IsOpen (good : List Char → Prop) (line : List Char) (place : Nat) : Prop :=
  place ≠ 0 → IsBeginning good (line.take place)

section Beginnings

variable {good : List Char → Prop} {s t : List Char}

theorem IsBeginning.of_append (h : IsBeginning good (s ++ t)) : IsBeginning good s := by
  obtain ⟨more, hmore⟩ := h
  exact ⟨t ++ more, by rwa [← List.append_assoc]⟩

/-- The place between two parts of a line is open if the first part is a beginning. -/
theorem IsBeginning.isOpen (h : IsBeginning good s) (t : List Char) :
    IsOpen good (s ++ t) s.length := by
  intro _
  rwa [List.take_left]

theorem isOpen_zero (good : List Char → Prop) (line : List Char) : IsOpen good line 0 :=
  fun h => absurd rfl h

theorem IsOpen.max {line : List Char} {place place' : Nat} (h : IsOpen good line place)
    (h' : IsOpen good line place') : IsOpen good line (max place place') := by
  rcases Nat.le_total place place' with hle | hle
  · rwa [Nat.max_eq_right hle]
  · rwa [Nat.max_eq_left hle]

end Beginnings

/-! ### What may stand at a place -/

/-- Whatever item is put behind `front` in place of the text makes a beginning. The text is there
because the letters at its front go on with a word or number that `front` ends in, so that an item
must not begin with other ones. -/
def Welcomes {α : Type} (good : List Char → Prop) (item : List Char → Nat → α → Prop)
    (front text : List Char) : Prop :=
  ∀ s a, item s front.length a → StartsAs text s → IsBeginning good (front ++ s)

namespace Welcomes

variable {α β : Type} {good : List Char → Prop} {item : List Char → Nat → α → Prop}
  {other : List Char → Nat → β → Prop} {front text : List Char}

/-- One item that may be put there is enough to see that a beginning ends there. -/
theorem isBeginning (h : Welcomes good item front text) {s : List Char} {a : α}
    (hs : item s front.length a) (hword : Spares continuesWord s) : IsBeginning good front :=
  (h s a hs (hword.startsAs text)).of_append

theorem mono (h : Welcomes good item front text)
    (hitem : ∀ s b, other s front.length b → ∃ a, item s front.length a) :
    Welcomes good other front text := by
  intro s b hs hstarts
  obtain ⟨a, ha⟩ := hitem s b hs
  exact h s a ha hstarts

/-- Behind a part of the text, whatever completes this part to an item may be put. -/
theorem behind {s rest : List Char} (h : Welcomes good item front (s ++ rest))
    (hitem : ∀ t b, other t (front.length + s.length) b → StartsAs rest t →
      ∃ a, item (s ++ t) front.length a) : Welcomes good other (front ++ s) rest := by
  intro t b ht hstarts
  rw [List.length_append] at ht
  obtain ⟨a, ha⟩ := hitem t b ht hstarts
  rw [List.append_assoc]
  exact h (s ++ t) a ha (hstarts.append s)

theorem behindBoth {s t rest : List Char} (h : Welcomes good item front (s ++ (t ++ rest)))
    (hitem : ∀ u b, other u (front.length + s.length + t.length) b → StartsAs rest u →
      ∃ a, item (s ++ (t ++ u)) front.length a) : Welcomes good other (front ++ s ++ t) rest := by
  rw [← List.append_assoc] at h
  rw [List.append_assoc]
  refine h.behind fun u b hu hstarts => ?_
  rw [List.length_append, ← Nat.add_assoc] at hu
  rw [List.append_assoc]
  exact hitem u b hu hstarts

end Welcomes

/-! ### Readers -/

namespace Reader

variable {α β : Type}

/-- The reader, put behind `front` at the text, misses no lexeme beyond a dead end: what stands in
front of the furthest one is a beginning. -/
def AvoidsDeadEnds (good : List Char → Prop) (reader : Reader α) (front text : List Char) : Prop :=
  IsOpen good (front ++ text) (reader ⟨front.length, text⟩).furthest

namespace AvoidsDeadEnds

variable {good : List Char → Prop} {front text : List Char}

theorem pure (a : α) : AvoidsDeadEnds good (Pure.pure a) front text :=
  isOpen_zero good _

/-- The second reader is judged by the places that it misses, wherever the first one leaves it. -/
theorem andThen {first : Reader α} {second : α → Reader β}
    (hfirst : AvoidsDeadEnds good first front text)
    (hsecond : ∀ a behind, (first ⟨front.length, text⟩).result = some (a, behind) →
      IsOpen good (front ++ text) (second a behind).furthest) :
    AvoidsDeadEnds good (first >>= second) front text := by
  show IsOpen good _ (Reader.andThen first second ⟨front.length, text⟩).furthest
  unfold AvoidsDeadEnds at hfirst
  unfold Reader.andThen
  split
  · rename_i furthest hmissed
    rwa [hmissed] at hfirst
  · rename_i a behind furthest hread
    rw [hread] at hfirst
    exact hfirst.max (hsecond a behind (by rw [hread]))

theorem bind {first : Reader α} {second : α → Reader β} {found : List Char → α → List Char → Prop}
    (hfirst : AvoidsDeadEnds good first front text)
    (hspells : Spells first front.length text found)
    (hsecond : ∀ s a rest, text = s ++ rest → found s a rest →
      AvoidsDeadEnds good (second a) (front ++ s) rest) :
    AvoidsDeadEnds good (first >>= second) front text := by
  refine andThen hfirst fun a behind hread => ?_
  obtain ⟨s, hs, hoffset, hfound⟩ := hspells a behind hread
  have hbehind : behind = ⟨(front ++ s).length, behind.rest⟩ := by
    rw [List.length_append, ← hoffset]
  have hsecond := hsecond s a behind.rest hs hfound
  rwa [AvoidsDeadEnds, ← hbehind, List.append_assoc, ← hs] at hsecond

/-- What is made of a piece does not matter. -/
theorem result {piece : Reader α} (h : AvoidsDeadEnds good piece front text) (f : α → β) :
    AvoidsDeadEnds good (do return f (← piece)) front text :=
  andThen h fun _ _ _ => isOpen_zero good _

theorem orElse {first second : Reader α} (hfirst : AvoidsDeadEnds good first front text)
    (hsecond : AvoidsDeadEnds good second front text) :
    AvoidsDeadEnds good (first <|> second) front text := by
  show IsOpen good _ (Reader.orElse first second ⟨front.length, text⟩).furthest
  unfold AvoidsDeadEnds at hfirst
  unfold Reader.orElse
  split
  · rename_i found furthest hread
    rwa [hread] at hfirst
  · rename_i furthest hmissed
    rw [hmissed] at hfirst
    exact hfirst.max hsecond

theorem maybe {piece : Reader α} (h : AvoidsDeadEnds good piece front text) :
    AvoidsDeadEnds good (Reader.maybe piece) front text :=
  orElse (h.result some) (pure none)

theorem marked {piece : Reader α} (h : AvoidsDeadEnds good piece front text)
    (hfront : IsBeginning good front) : AvoidsDeadEnds good (Reader.marked piece) front text := by
  unfold AvoidsDeadEnds at h ⊢
  unfold Reader.marked
  split
  · rename_i found furthest hread
    rwa [hread] at h
  · rename_i furthest hmissed
    rw [hmissed] at h
    exact h.max (hfront.isOpen text)

/-- A reader that refuses longer texts is judged on those below the bound. -/
theorem guarded {piece : Reader α} {bound : Nat}
    (h : text.length < bound → AvoidsDeadEnds good piece front text) :
    AvoidsDeadEnds good (fun cursor => if cursor.rest.length < bound then piece cursor else
      ⟨none, 0⟩) front text := by
  show IsOpen good _
    (if text.length < bound then piece ⟨front.length, text⟩ else ⟨none, 0⟩).furthest
  split
  · rename_i hlt
    exact h hlt
  · exact isOpen_zero good _

theorem withText {piece : Reader α} (h : AvoidsDeadEnds good piece front text) :
    AvoidsDeadEnds good (Reader.withText piece) front text := by
  unfold AvoidsDeadEnds at h ⊢
  unfold Reader.withText
  split
  · rename_i a behind furthest hread
    rwa [hread] at h
  · rename_i furthest hmissed
    rwa [hmissed] at h

theorem lexeme (lexer : Lexer) (hfront : IsBeginning good front) :
    AvoidsDeadEnds good (Reader.lexeme lexer) front text := by
  unfold AvoidsDeadEnds Reader.lexeme
  split
  · exact isOpen_zero good _
  · exact hfront.isOpen text

theorem atEnd (hfront : IsBeginning good front) :
    AvoidsDeadEnds good Reader.atEnd front text := by
  unfold AvoidsDeadEnds Reader.atEnd
  split
  · exact isOpen_zero good _
  · exact hfront.isOpen text

theorem mark (c : Char) : AvoidsDeadEnds good (Reader.mark c) front text := by
  unfold AvoidsDeadEnds Reader.mark
  split <;> exact isOpen_zero good _

theorem blanks : AvoidsDeadEnds good Reader.blanks front text :=
  isOpen_zero good _

theorem trailingComment : AvoidsDeadEnds good Reader.trailingComment front text := by
  unfold AvoidsDeadEnds Reader.trailingComment
  split <;> exact isOpen_zero good _

/-! ### Lists -/

/-- The places that are missed in front of the pieces and behind the last one are judged by what
every piece keeps. -/
theorem many (kept : List Char → List Char → Prop) {piece : Reader α}
    (hpiece : ∀ front text, kept front text → AvoidsDeadEnds good piece front text)
    (hkeeps : ∀ front text, kept front text →
      Spells piece front.length text fun s _ rest => kept (front ++ s) rest)
    (h : kept front text) : AvoidsDeadEnds good (Reader.many piece) front text := by
  show IsOpen good _ (collect piece ⟨front.length, text⟩).2.2
  generalize hcursor : (⟨front.length, text⟩ : Cursor) = cursor
  -- A piece that is found shortens the line, which is what the reader recurses on.
  fun_induction collect piece cursor generalizing front text with
  | case1 cursor furthest hmissed =>
      have hopen := hpiece front text h
      rwa [AvoidsDeadEnds, hcursor, hmissed] at hopen
  | case2 cursor a behind furthest hread hlt others last missed hcollect ih =>
      have hopen := hpiece front text h
      rw [AvoidsDeadEnds, hcursor, hread] at hopen
      subst hcursor
      obtain ⟨s, hs, hoffset, hkept⟩ := hkeeps front text h a behind (by rw [hread])
      have hs : text = s ++ behind.rest := hs
      have hbehind : (⟨(front ++ s).length, behind.rest⟩ : Cursor) = behind := by
        rw [List.length_append, ← hoffset]
      have hothers := ih hkept hbehind
      rw [hcollect, List.append_assoc, ← hs] at hothers
      exact hopen.max hothers
  | case3 cursor a behind furthest hread hge =>
      have hopen := hpiece front text h
      rwa [AvoidsDeadEnds, hcursor, hread] at hopen

section Members

variable {piece : Reader α} {item : List Char → Nat → α → Prop}

/-- In front of each member of a list a beginning ends, and so it does in front of each further one
that might follow. -/
theorem manyBehindComma
    (hspells : ∀ offset text, Spells piece offset text fun s a _ => item s offset a)
    (hpiece : ∀ {front text}, Welcomes good item front text →
      AvoidsDeadEnds good piece front text)
    (h : Welcomes good (IsChain (IsMark ',') item) front text) :
    AvoidsDeadEnds good (Reader.many do Reader.blanks; Reader.mark ','; Reader.blanks; piece) front
      text := by
  refine many (Welcomes good (IsChain (IsMark ',') item)) ?_ ?_ h
  · intro front text h
    refine bind blanks .blanks fun before _ _ htext hbefore => ?_
    subst htext
    refine bind (mark ',') (.mark ',') fun comma _ _ htext hcomma => ?_
    subst htext hcomma
    refine bind blanks .blanks fun after _ rest htext hafter => hpiece ?_
    subst htext
    have h : Welcomes good (IsChain (IsMark ',') item) front
        ((before ++ ',' :: after) ++ rest) := by simpa using h
    have hmember : Welcomes good item (front ++ (before ++ ',' :: after)) rest :=
      h.behind fun t a ha _ => ⟨[a], by simpa using IsChain.cons (.intro hbefore hafter) ha .nil⟩
    simpa using hmember
  · intro front text h
    refine (Spells.behindComma hspells).cut.mono fun s a rest hs => ?_
    obtain ⟨rfl, hsep, ha⟩ := hs
    refine h.behind fun t as has _ => ⟨a :: as, ?_⟩
    rw [List.append_assoc]
    rw [List.length_append, ← Nat.add_assoc] at has
    exact .cons hsep ha has

theorem commaSeparated
    (hspells : ∀ offset text, Spells piece offset text fun s a _ => item s offset a)
    (hpiece : ∀ {front text}, Welcomes good item front text →
      AvoidsDeadEnds good piece front text)
    (h : Welcomes good (fun s offset as => as ≠ [] ∧ IsRow (IsMark ',') item s offset as) front
      text) : AvoidsDeadEnds good (Reader.commaSeparated piece) front text := by
  have hfirst : Welcomes good item front text :=
    h.mono fun s a ha => ⟨[a], by simp, by simpa using IsRow.cons ha .nil⟩
  refine bind (hpiece hfirst) (hspells _ text) fun s first rest htext hs => ?_
  subst htext
  have hothers : Welcomes good (IsChain (IsMark ',') item) (front ++ s) rest :=
    h.behind fun t as has _ => ⟨first :: as, by simp, .cons hs has⟩
  exact (manyBehindComma hspells hpiece hothers).result _

theorem parenthesised
    (hspells : ∀ offset text, Spells piece offset text fun s a _ => item s offset a)
    (hpiece : ∀ {front text}, Welcomes good item front text →
      AvoidsDeadEnds good piece front text)
    (h : Welcomes good (IsParenthesised item) front text) :
    AvoidsDeadEnds good (Reader.parenthesised piece) front text := by
  refine bind (mark '(') (.mark '(') fun opening _ _ htext hopening => ?_
  subst htext hopening
  refine bind blanks .blanks fun before _ rest htext hbefore => ?_
  subst htext
  have hinside : Welcomes good
      (fun s offset as => as ≠ [] ∧ IsRow (IsMark ',') item s offset as)
      (front ++ ['('] ++ before) rest := by
    rintro s as ⟨-, has⟩ -
    have hoffset : (front ++ ['('] ++ before).length = front.length + 1 + before.length := by
      simp only [List.length_append, List.length_singleton]
    rw [hoffset] at has
    have hclosed := h _ as (.intro hbefore has isGap_nil)
      ((spares_cons_iff.mpr (by decide)).startsAs _)
    exact IsBeginning.of_append (t := [')']) (by simpa using hclosed)
  refine bind (commaSeparated hspells hpiece hinside).maybe (.maybe (fun _ _ _ => True)
    ((Spells.commaSeparated hspells).mono fun _ _ _ _ => trivial) trivial)
    fun inside as _ _ _ => ?_
  refine bind blanks .blanks fun after _ _ _ _ => ?_
  exact (mark ')').result _

end Members

/-- At the end of a line a beginning ends, whether or not the line ends there. -/
theorem ending (a : α) (h : Welcomes good (fun s _ (_ : Unit) => IsEnding s) front text) :
    AvoidsDeadEnds good (do
      Reader.blanks; Reader.trailingComment; Reader.blanks; Reader.atEnd; return a) front text := by
  refine bind blanks .blanks fun before _ _ htext hbefore => ?_
  subst htext
  refine bind trailingComment .trailingComment fun comment _ _ htext hcomment => ?_
  subst htext
  refine bind blanks .blanks fun after _ rest htext hafter => ?_
  subst htext
  refine (atEnd ?_).result fun _ => a
  have hstarts := (startsAs_nil rest).append (before ++ (comment ++ after))
  simpa using h _ () (.of_parts hbefore hcomment hafter) (by simpa using hstarts)

/-- What stands in front of the column at which a line is malformed is a beginning. -/
theorem run {reader : Reader α} {line : List Char} {column : Nat}
    (h : AvoidsDeadEnds good reader [] line) (hgood : IsBeginning good [])
    (hline : '\n' ∉ line) (hrun : reader.run line = .error column) :
    (1 ≤ column ∧ column ≤ line.length + 1) ∧ IsBeginning good (line.take (column - 1)) := by
  have h : IsOpen good line (reader ⟨0, line⟩).furthest := h
  unfold Reader.run at hrun
  split at hrun
  · cases hrun
  · rename_i furthest hmissed
    rw [hmissed] at h
    obtain rfl : (line.take furthest).length + 1 = column := by
      rw [← columnInLastLine_of_notMem hline]
      exact Except.error.inj hrun
    rw [Nat.add_sub_cancel, List.length_take, ← List.take_eq_take_min]
    refine ⟨⟨Nat.le_add_left _ _, by omega⟩, ?_⟩
    cases furthest with
    | zero => exact hgood
    | succ n => exact h (Nat.succ_ne_zero n)

end AvoidsDeadEnds

end Reader

end NpcScript.Grammar
