import NpcScript.Grammar.Reader

/-!
What readers come to, whatever they are put at. `Yields` says it of all places at once, and has one
rule for each way in which readers are put together.
-/

namespace NpcScript.Grammar.Reader

variable {α β : Type}

/-- Whatever the reader comes to at any place, `good` holds of it. -/
def Yields (reader : Reader α) (good : α → Prop) : Prop :=
  ∀ (cursor last : Cursor) (a : α), (reader cursor).result = some (a, last) → good a

namespace Yields

variable {good : α → Prop} {better : β → Prop}

theorem trivial (reader : Reader α) : Yields reader fun _ => True :=
  fun _ _ _ _ => True.intro

theorem pure {a : α} (h : good a) : Yields (Pure.pure a : Reader α) good := by
  intro cursor last b hb
  obtain rfl : a = b := by
    have hb : some (a, cursor) = some (b, last) := hb
    simp_all
  exact h

theorem bind {first : Reader α} {second : α → Reader β} (hfirst : Yields first good)
    (hsecond : ∀ a, good a → Yields (second a) better) : Yields (first >>= second) better := by
  intro cursor last b hb
  obtain ⟨a, behind, ha, hb⟩ := result_bind_eq_some_iff.mp hb
  exact hsecond a (hfirst cursor behind a ha) behind last b hb

/-- What the first piece comes to does not matter. -/
theorem skip {first : Reader α} {second : α → Reader β} (h : ∀ a, Yields (second a) better) :
    Yields (first >>= second) better :=
  bind (trivial first) fun a _ => h a

theorem orElse {first second : Reader α} (hfirst : Yields first good)
    (hsecond : Yields second good) : Yields (first <|> second) good := by
  intro cursor last a ha
  change (Reader.orElse first second cursor).result = _ at ha
  unfold Reader.orElse at ha
  split at ha
  · rename_i found furthest hfound
    exact hfirst cursor last a (by rw [hfound]; exact ha)
  · exact hsecond cursor last a ha

theorem maybe {piece : Reader α} (h : Yields piece good) :
    Yields (Reader.maybe piece) fun found => ∀ a, found = some a → good a := by
  refine orElse (bind h fun a ha => pure ?_) (pure (a := none) (by simp))
  rintro b ⟨⟩
  exact ha

theorem marked {piece : Reader α} (h : Yields piece good) :
    Yields (Reader.marked piece) good := by
  intro cursor last a ha
  unfold Reader.marked at ha
  split at ha
  · rename_i found furthest hfound
    exact h cursor last a (by rw [hfound]; exact ha)
  · cases ha

theorem collect {piece : Reader α} (h : Yields piece good) (cursor : Cursor) :
    ∀ a ∈ (Reader.collect piece cursor).1, good a := by
  -- Each piece that is found shortens the line, which is what the reader recurses on.
  fun_induction Reader.collect piece cursor with
  | case1 cursor furthest hnone => simp
  | case2 cursor a behind furthest hsome hlt others last missed hcollect ih =>
      rw [hcollect] at ih
      intro b hb
      rcases List.mem_cons.mp hb with rfl | hb
      · exact h cursor behind b (by rw [hsome])
      · exact ih b hb
  | case3 cursor a behind furthest hsome hge => simp

theorem many {piece : Reader α} (h : Yields piece good) :
    Yields (Reader.many piece) fun pieces => ∀ a ∈ pieces, good a := by
  intro cursor last pieces hpieces
  have heq : (Reader.collect piece cursor).1 = pieces := by
    simp_all [Reader.many]
  rw [← heq]
  exact collect h cursor

/-- There is at least one piece. -/
theorem commaSeparated {piece : Reader α} (h : Yields piece good) :
    Yields (Reader.commaSeparated piece) fun pieces =>
      pieces ≠ [] ∧ ∀ a ∈ pieces, good a := by
  refine bind h fun first hfirst => ?_
  have hother : Yields (do blanks; mark ','; blanks; piece) good := by
    refine skip fun _ => ?_
    refine skip fun _ => ?_
    exact skip fun _ => h
  refine bind (many hother) fun others hothers => pure ⟨by simp, ?_⟩
  intro a ha
  rcases List.mem_cons.mp ha with rfl | ha
  · exact hfirst
  · exact hothers a ha

theorem parenthesised {piece : Reader α} (h : Yields piece good) :
    Yields (Reader.parenthesised piece) fun pieces => ∀ a ∈ pieces, good a := by
  refine skip fun _ => ?_
  refine skip fun _ => ?_
  refine bind (maybe (commaSeparated h)) fun pieces hpieces => ?_
  refine skip fun _ => ?_
  refine skip fun _ => pure ?_
  cases pieces with
  | none => simp
  | some pieces => exact (hpieces pieces rfl).2

/-- A lexeme has the text that its lexer took off the rest of the line. -/
theorem lexeme {lexer : Lexer} {good : List Char → Prop}
    (h : ∀ s rest, lexer s = some rest → ∃ t, s = t ++ rest ∧ good t) :
    Yields (Reader.lexeme lexer) fun lexeme => good lexeme.text := by
  intro cursor last found hfound
  unfold Reader.lexeme at hfound
  split at hfound
  · rename_i rest hrest
    obtain ⟨t, ht, hgood⟩ := h _ _ hrest
    simp only [Option.some.injEq, Prod.mk.injEq] at hfound
    obtain ⟨rfl, -⟩ := hfound
    rw [ht]
    simpa using hgood
  · cases hfound

theorem run {reader : Reader α} (h : Yields reader good) {text : List Char} {a : α}
    (ha : reader.run text = .ok a) : good a := by
  unfold Reader.run at ha
  split at ha
  · rename_i behind furthest hfound
    cases ha
    exact h _ behind a (by rw [hfound])
  · cases ha

end Yields

end NpcScript.Grammar.Reader
