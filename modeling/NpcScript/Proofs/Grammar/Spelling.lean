import NpcScript.Proofs.Grammar.Layout

/-!
What a reader takes off the front of a text. `Spells` says of a reader put at an offset of a text
that, if it comes to anything, then it has taken up a piece, and what this piece is. There is one
rule for each way in which readers are put together; the pieces that they take up are put together
in the same way.
-/

namespace NpcScript.Grammar.Reader

variable {α β : Type}

/-- If the reader comes to anything, then `good` holds of the piece that it has taken up, of what it
has made of this piece, and of the text behind it. -/
def Spells (reader : Reader α) (offset : Nat) (text : List Char)
    (good : List Char → α → List Char → Prop) : Prop :=
  ∀ a last, (reader ⟨offset, text⟩).result = some (a, last) →
    ∃ s, text = s ++ last.rest ∧ last.offset = offset + s.length ∧ good s a last.rest

namespace Spells

variable {offset : Nat} {text : List Char} {good : List Char → α → List Char → Prop}
  {better : List Char → β → List Char → Prop}

theorem mono {reader : Reader α} {weaker : List Char → α → List Char → Prop}
    (h : Spells reader offset text good) (hgood : ∀ s a rest, good s a rest → weaker s a rest) :
    Spells reader offset text weaker := by
  intro a last ha
  obtain ⟨s, htext, hoffset, hs⟩ := h a last ha
  exact ⟨s, htext, hoffset, hgood s a last.rest hs⟩

/-- The piece and what is left make up the text. -/
theorem cut {reader : Reader α} (h : Spells reader offset text good) :
    Spells reader offset text fun s a rest => text = s ++ rest ∧ good s a rest := by
  intro a last ha
  obtain ⟨s, htext, hoffset, hs⟩ := h a last ha
  exact ⟨s, htext, hoffset, htext, hs⟩

theorem pure {a : α} (h : good [] a text) : Spells (Pure.pure a) offset text good := by
  intro b last hb
  have hb : some (a, (⟨offset, text⟩ : Cursor)) = some (b, last) := hb
  cases hb
  exact ⟨[], rfl, rfl, h⟩

theorem bind {first : Reader α} {second : α → Reader β} (hfirst : Spells first offset text good)
    (hsecond : ∀ s a rest, good s a rest →
      Spells (second a) (offset + s.length) rest fun t b behind => better (s ++ t) b behind) :
    Spells (first >>= second) offset text better := by
  intro b last hb
  obtain ⟨a, ⟨middle, rest⟩, ha, hb⟩ := result_bind_eq_some_iff.mp hb
  obtain ⟨s, hs, hmiddle, hgood⟩ := hfirst a _ ha
  obtain rfl : middle = offset + s.length := hmiddle
  obtain ⟨t, ht, hlast, hbetter⟩ := hsecond s a rest hgood b last hb
  have ht : rest = t ++ last.rest := ht
  refine ⟨s ++ t, ?_, ?_, hbetter⟩
  · rw [hs, ht, List.append_assoc]
  · rw [hlast, List.length_append, Nat.add_assoc]

theorem orElse {first second : Reader α} (hfirst : Spells first offset text good)
    (hsecond : Spells second offset text good) :
    Spells (first <|> second) offset text good := by
  intro a last ha
  change (Reader.orElse first second _).result = _ at ha
  unfold Reader.orElse at ha
  split at ha
  · rename_i found furthest hfound
    exact hfirst a last (by rw [hfound]; exact ha)
  · exact hsecond a last ha

theorem maybe (found : List Char → Option α → List Char → Prop) {piece : Reader α}
    (h : Spells piece offset text fun s a rest => found s (some a) rest)
    (hnone : found [] none text) : Spells (Reader.maybe piece) offset text found := by
  refine orElse (bind h fun s a rest hs => pure ?_) (pure hnone)
  rwa [List.append_nil]

theorem marked {piece : Reader α} (h : Spells piece offset text good) :
    Spells (Reader.marked piece) offset text good := by
  intro a last ha
  unfold Reader.marked at ha
  split at ha
  · rename_i found furthest hfound
    exact h a last (by rw [hfound]; exact ha)
  · cases ha

/-- A reader that refuses longer texts is judged on those below the bound. -/
theorem guarded {piece : Reader α} {bound : Nat}
    (h : text.length < bound → Spells piece offset text good) :
    Spells (fun cursor => if cursor.rest.length < bound then piece cursor else ⟨none, 0⟩) offset
      text good := by
  intro a last ha
  change (if text.length < bound then piece ⟨offset, text⟩ else ⟨none, 0⟩).result = _ at ha
  split at ha
  · rename_i hlt
    exact h hlt a last ha
  · cases ha

theorem withText {piece : Reader α} (h : Spells piece offset text good) :
    Spells (Reader.withText piece) offset text fun s found rest =>
      found.1 = ⟨offset + 1, s⟩ ∧ good s found.2 rest := by
  intro found last hfound
  unfold Reader.withText at hfound
  split at hfound
  · rename_i a behind furthest ha
    obtain ⟨s, htext, hoffset, hs⟩ := h a behind (by rw [ha])
    simp only [Option.some.injEq, Prod.mk.injEq] at hfound
    obtain ⟨rfl, rfl⟩ := hfound
    refine ⟨s, htext, hoffset, ?_, hs⟩
    have hcount : text.length - behind.rest.length = s.length := by
      rw [htext, List.length_append, Nat.add_sub_cancel]
    show Lexeme.mk (offset + 1) (text.take (text.length - behind.rest.length)) = _
    rw [hcount, htext, List.take_left]
  · cases hfound

/-! ### Lexemes -/

/-- A lexeme has the text that its lexer takes off, and the column of the first character of it. -/
theorem lexeme {lexer : Lexer} {kind : List Char → Prop}
    (h : ∀ s rest, lexer s = some rest → ∃ t, s = t ++ rest ∧ kind t) :
    Spells (Reader.lexeme lexer) offset text fun s found rest =>
      found = ⟨offset + 1, s⟩ ∧ kind s ∧ lexer text = some rest := by
  intro found last hfound
  unfold Reader.lexeme at hfound
  split at hfound
  · rename_i rest hrest
    obtain ⟨s, rfl, hs⟩ := h _ _ hrest
    cases hfound
    have hcount : (s ++ rest).length - rest.length = s.length := by
      rw [List.length_append, Nat.add_sub_cancel]
    have hdrop : (s ++ rest).drop ((s ++ rest).length - rest.length) = rest := by
      rw [hcount, List.drop_left]
    refine ⟨s, ?_, ?_, ?_, hs, ?_⟩
    · show s ++ rest = s ++ List.drop _ _
      rw [hdrop]
    · show offset + _ = _
      rw [hcount]
    · show Lexeme.mk _ (List.take _ _) = _
      rw [hcount, List.take_left]
    · show lexer (s ++ rest) = some (List.drop _ _)
      rw [hrest, hdrop]
  · cases hfound

theorem mark (c : Char) :
    Spells (Reader.mark c) offset text fun s _ _ => s = [c] := by
  intro a last ha
  unfold Reader.mark at ha
  split at ha
  · rename_i hhead
    obtain ⟨rest, rfl⟩ := List.head?_eq_some_iff.mp hhead
    cases ha
    exact ⟨[c], rfl, rfl, rfl⟩
  · cases ha

theorem maybeMark (c : Char) :
    Spells (Reader.maybe (Reader.mark c)) offset text fun s _ _ => s = [] ∨ s = [c] :=
  maybe (fun s _ _ => s = [] ∨ s = [c]) ((mark c).mono fun _ _ _ hs => .inr hs) (.inl rfl)

theorem blanks : Spells Reader.blanks offset text fun s _ _ => IsGap s := by
  intro a last ha
  rw [result_blanks] at ha
  cases ha
  exact ⟨text.takeWhile isGap, List.takeWhile_append_dropWhile.symm, rfl, isGap_takeWhile text⟩

theorem trailingComment :
    Spells Reader.trailingComment offset text fun s _ _ =>
      s = [] ∨ ∃ comment, s = '-' :: '-' :: comment := by
  intro a last ha
  unfold Reader.trailingComment at ha
  split at ha
  · rename_i hprefix
    obtain ⟨comment, rfl⟩ := List.isPrefixOf_iff_prefix.mp hprefix
    cases ha
    exact ⟨'-' :: '-' :: comment, by simp [Cursor.advance], rfl, .inr ⟨comment, rfl⟩⟩
  · cases ha
    exact ⟨[], rfl, rfl, .inl rfl⟩

theorem atEnd : Spells Reader.atEnd offset text fun s _ rest => s = [] ∧ rest = [] := by
  intro a last ha
  unfold Reader.atEnd at ha
  split at ha
  · rename_i hempty
    cases ha
    exact ⟨[], rfl, rfl, rfl, List.isEmpty_iff.mp hempty⟩
  · cases ha

/-- At the end of a line nothing is left. -/
theorem ending (a : α) :
    Spells (do Reader.blanks; Reader.trailingComment; Reader.blanks; Reader.atEnd; return a) offset
      text fun s b rest => b = a ∧ IsEnding s ∧ rest = [] := by
  refine bind blanks fun before _ _ hbefore => ?_
  refine bind trailingComment fun comment _ _ hcomment => ?_
  refine bind blanks fun after _ _ hafter => ?_
  refine bind atEnd fun _ _ _ hend => ?_
  obtain ⟨rfl, rfl⟩ := hend
  exact pure ⟨rfl, by simpa using IsEnding.of_parts hbefore hcomment hafter, rfl⟩

/-! ### Lists -/

section Lists

variable {separator : List Char → Prop} {item : List Char → Nat → α → Prop}

theorem many {piece : Reader α}
    (h : ∀ offset text, Spells piece offset text fun s a _ => IsBehind separator item s offset a) :
    Spells (Reader.many piece) offset text fun s as _ => IsChain separator item s offset as := by
  intro as last has
  cases has
  show ∃ s, (⟨offset, text⟩ : Cursor).rest = _ ∧ _ = (⟨offset, text⟩ : Cursor).offset + _ ∧
    IsChain separator item s (⟨offset, text⟩ : Cursor).offset _
  generalize (⟨offset, text⟩ : Cursor) = cursor
  -- A piece that is found shortens the line, which is what the reader recurses on.
  fun_induction collect piece cursor with
  | case1 cursor furthest hnone => exact ⟨[], rfl, rfl, .nil⟩
  | case2 cursor a behind furthest hsome hlt others last missed hcollect ih =>
      obtain ⟨s, hs, hoffset, hbehind⟩ := h cursor.offset cursor.rest a behind (by rw [hsome])
      obtain ⟨u, hu, hlast, hchain⟩ := ih
      rw [hcollect] at hu hlast hchain
      obtain ⟨hsep, ht⟩ := hbehind
      rw [hoffset, List.length_append, ← Nat.add_assoc] at hchain
      refine ⟨_, ?_, ?_, .cons hsep ht hchain⟩
      · rw [hs, hu]
        simp
      · rw [hlast, hoffset]
        simp [Nat.add_assoc]
  | case3 cursor a behind furthest hsome hge => exact ⟨[], rfl, rfl, .nil⟩

/-- Each member that is found is put in front of what the text behind it holds. -/
theorem many_of {piece : Reader α} {good : List Char → Nat → List α → Prop}
    (h : ∀ offset text, Spells piece offset text fun s a rest =>
      ∀ as, good rest (offset + s.length) as → good (s ++ rest) offset (a :: as)) :
    Spells (Reader.many piece) offset text fun s as rest =>
      good rest (offset + s.length) [] → good (s ++ rest) offset as := by
  intro as last has
  cases has
  show ∃ s, (⟨offset, text⟩ : Cursor).rest = _ ∧ _ = (⟨offset, text⟩ : Cursor).offset + _ ∧
    (good _ ((⟨offset, text⟩ : Cursor).offset + _) [] → good _ (⟨offset, text⟩ : Cursor).offset _)
  generalize (⟨offset, text⟩ : Cursor) = cursor
  fun_induction collect piece cursor with
  | case1 cursor furthest hnone => exact ⟨[], rfl, rfl, id⟩
  | case2 cursor a behind furthest hsome hlt others last missed hcollect ih =>
      obtain ⟨s, hs, hoffset, hbehind⟩ := h cursor.offset cursor.rest a behind (by rw [hsome])
      obtain ⟨u, hu, hlast, hothers⟩ := ih
      rw [hcollect] at hu hlast hothers
      refine ⟨s ++ u, ?_, ?_, fun hgood => ?_⟩
      · rw [hs, hu]
        simp
      · rw [hlast, hoffset]
        simp [Nat.add_assoc]
      · rw [hoffset] at hothers
        have hall := hothers (by simpa [Nat.add_assoc] using hgood)
        rw [← hu] at hall
        have hall := hbehind others hall
        rwa [hu, ← List.append_assoc] at hall
  | case3 cursor a behind furthest hsome hge => exact ⟨[], rfl, rfl, id⟩

/-- What holds in front of the first piece holds behind the last one, if each piece keeps it. -/
theorem many_keeps (kept : List Char → List Char → Prop) {piece : Reader α}
    {front text : List Char}
    (hkeeps : ∀ front text, kept front text →
      Spells piece front.length text fun s _ rest => kept (front ++ s) rest)
    (h : kept front text) :
    Spells (Reader.many piece) front.length text fun s _ rest => kept (front ++ s) rest := by
  intro as last has
  cases has
  show ∃ s, text = _ ∧ _ = front.length + _ ∧ kept (front ++ s) _
  generalize hcursor : (⟨front.length, text⟩ : Cursor) = cursor
  fun_induction collect piece cursor generalizing front text with
  | case1 cursor furthest hmissed =>
      subst hcursor
      exact ⟨[], rfl, rfl, by rwa [List.append_nil]⟩
  | case2 cursor a behind furthest hread hlt others last missed hcollect ih =>
      subst hcursor
      obtain ⟨s, hs, hoffset, hkept⟩ := hkeeps front text h a behind (by rw [hread])
      have hbehind : (⟨(front ++ s).length, behind.rest⟩ : Cursor) = behind := by
        rw [List.length_append, ← hoffset]
      obtain ⟨u, hu, hlast, hkept⟩ := ih hkept hbehind
      rw [hcollect] at hu hlast hkept
      refine ⟨s ++ u, ?_, ?_, ?_⟩
      · rw [hs, hu, List.append_assoc]
      · rw [hlast, List.length_append, List.length_append, Nat.add_assoc]
      · rwa [← List.append_assoc]
  | case3 cursor a behind furthest hread hge =>
      subst hcursor
      exact ⟨[], rfl, rfl, by rwa [List.append_nil]⟩

theorem optional {piece : Reader α}
    (h : ∀ offset text, Spells piece offset text fun s a _ => item s offset a) :
    Spells (Reader.maybe piece) offset text fun s found _ => IsOptional item s offset found :=
  maybe (fun s found _ => IsOptional item s offset found)
    ((h offset text).mono fun _ _ _ hs => .some isGap_nil hs) .none

theorem behindComma {piece : Reader α}
    (h : ∀ offset text, Spells piece offset text fun s a _ => item s offset a) :
    Spells (do Reader.blanks; Reader.mark ','; Reader.blanks; piece) offset text
      fun s a _ => IsBehind (IsMark ',') item s offset a := by
  refine bind blanks fun before _ _ hbefore => ?_
  refine bind (mark ',') fun comma _ _ hcomma => ?_
  refine bind blanks fun after _ _ hafter => ?_
  refine (h _ _).mono fun s a _ hs => ?_
  subst hcomma
  have hoffset : offset + before.length + [','].length + after.length =
      offset + (before ++ ',' :: after).length := by
    simp
    omega
  rw [hoffset] at hs
  simpa using IsBehind.intro (.intro hbefore hafter) hs

/-- There is at least one member. -/
theorem commaSeparated {piece : Reader α}
    (h : ∀ offset text, Spells piece offset text fun s a _ => item s offset a) :
    Spells (Reader.commaSeparated piece) offset text fun s as _ =>
      as ≠ [] ∧ IsRow (IsMark ',') item s offset as := by
  refine bind (h offset text) fun s first _ hfirst => ?_
  refine bind (many fun offset text => behindComma h) fun t others _ hothers => pure ⟨by simp, ?_⟩
  rw [List.append_nil]
  exact .cons hfirst hothers

theorem parenthesised {piece : Reader α}
    (h : ∀ offset text, Spells piece offset text fun s a _ => item s offset a) :
    Spells (Reader.parenthesised piece) offset text fun s as _ =>
      IsParenthesised item s offset as := by
  refine bind (mark '(') fun opening _ _ hopening => ?_
  refine bind blanks fun before _ _ hbefore => ?_
  subst hopening
  refine bind (maybe (fun s found _ =>
    IsRow (IsMark ',') item s (offset + 1 + before.length) (found.getD []))
    ((commaSeparated h).mono fun _ _ _ has => has.2) .nil) fun inside as _ hinside => ?_
  refine bind blanks fun after _ _ hafter => ?_
  refine bind (mark ')') fun closing _ _ hclosing => pure ?_
  subst hclosing
  simpa using IsParenthesised.intro hbefore hinside hafter

end Lists

end Spells

/-- What a whole line is read as spells the line up to what is left of it. -/
theorem Spells.run {reader : Reader α} {text : List Char} {good : List Char → α → List Char → Prop}
    (h : Spells reader 0 text good) {a : α} (ha : reader.run text = .ok a) :
    ∃ s rest, text = s ++ rest ∧ good s a rest := by
  unfold Reader.run at ha
  split at ha
  · rename_i behind furthest hfound
    cases ha
    obtain ⟨s, htext, -, hs⟩ := h a behind (by rw [hfound])
    exact ⟨s, behind.rest, htext, hs⟩
  · cases ha

end NpcScript.Grammar.Reader
