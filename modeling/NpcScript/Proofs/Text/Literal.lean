import NpcScript.Text.Quoted

/-!
String literals and the texts that they stand for. A literal is read pair by pair and character by
character, so whatever stands between its quotes stands for exactly one text, and quotes and
backslashes of the text are written as pairs.
-/

namespace NpcScript.Text

/-- What stands between the quotes of a literal, and the text that it stands for. -/
inductive StandsFor : List Char → List Char → Prop
  | nil : StandsFor [] []
  | plain {c : Char} {s t : List Char} (hquote : c ≠ '"') (hbackslash : c ≠ '\\')
      (hs : StandsFor s t) : StandsFor (c :: s) (c :: t)
  | pair {s t : List Char} (c : Char) (hs : StandsFor s t) :
      StandsFor ('\\' :: c :: s) (unescape c ++ t)

/-- A literal, with its quotes, and the text that it stands for. -/
inductive Denotes : List Char → List Char → Prop
  | intro {body text : List Char} (hbody : StandsFor body text) :
      Denotes ('"' :: (body ++ ['"'])) text

def IsLiteral (s : List Char) : Prop :=
  ∃ text, Denotes s text

/-! ### Reading a literal -/

/-- Only the empty text has no bytes. -/
theorem byteLength_eq_zero_iff {s : List Char} : byteLength s = 0 ↔ s = [] := by
  cases s with
  | nil => simp
  | cons c s =>
      have hc := c.utf8Size_pos
      simp only [byteLength_cons, reduceCtorEq, iff_false]
      omega

/-- What stands for a text is read as that text, and what follows it is read from the byte that it
ends at, with no backslash pending. -/
theorem decodeBody_append {body text : List Char} (h : StandsFor body text) (length offset : Nat)
    (rest : List Char) :
    decodeBody length offset false (body ++ rest) =
      (decodeBody length (offset + byteLength body) false rest).map (text ++ ·) := by
  induction h generalizing offset with
  | nil => cases hrest : decodeBody length offset false rest <;> simp [hrest, Except.map]
  | @plain c s t hquote hbackslash hs ih =>
      rw [List.cons_append, decodeBody, if_neg Bool.false_ne_true, if_neg hbackslash,
        if_neg hquote, ih, byteLength_cons, ← Nat.add_assoc]
      cases decodeBody length (offset + c.utf8Size + byteLength s) false rest <;> rfl
  | @pair s t c hs ih =>
      rw [List.cons_append, List.cons_append, decodeBody, if_neg Bool.false_ne_true, if_pos rfl,
        decodeBody, if_pos rfl, ih, byteLength_cons, byteLength_cons, ← Nat.add_assoc,
        ← Nat.add_assoc]
      cases decodeBody length (offset + '\\'.utf8Size + c.utf8Size + byteLength s) false rest with
      | error message => rfl
      | ok rest => simp [Except.map]

/-- A bare quote is the closing one exactly if nothing follows it. -/
theorem decodeBody_quote (offset : Nat) (rest : List Char) :
    decodeBody (offset + byteLength ('"' :: rest)) offset false ('"' :: rest) =
      if rest = [] then .ok [] else .error "text after closing quote" := by
  have hlast : offset + 1 = offset + byteLength ('"' :: rest) ↔ rest = [] := by
    rw [← byteLength_eq_zero_iff, byteLength_cons, show '"'.utf8Size = 1 from rfl]
    omega
  rw [decodeBody, if_neg Bool.false_ne_true, if_neg (by decide), if_pos rfl]
  simp only [hlast]

/-- A bare quote closes the literal, and nothing may follow it. -/
theorem decode_append {body text : List Char} (h : StandsFor body text) (rest : List Char) :
    decode ('"' :: (body ++ '"' :: rest)) =
      if rest = [] then .ok text else .error "text after closing quote" := by
  rw [decode, decodeBody_append h, byteLength_append, Nat.zero_add, decodeBody_quote]
  split
  · simp [Except.map]
  · rfl

theorem decode_of_denotes {s text : List Char} (h : Denotes s text) : decode s = .ok text := by
  obtain ⟨hbody⟩ := h
  exact decode_append hbody []

theorem unquote_of_denotes {s text : List Char} (h : Denotes s text) : unquote s = text := by
  rw [unquote, decode_of_denotes h]

/-- A text without quotes and backslashes stands for itself. -/
theorem denotes_of_forall_ne {s : List Char} (h : ∀ c ∈ s, c ≠ '"' ∧ c ≠ '\\') :
    Denotes ('"' :: (s ++ ['"'])) s := by
  refine .intro ?_
  induction s with
  | nil => exact .nil
  | cons c s ih =>
      obtain ⟨⟨hquote, hbackslash⟩, hs⟩ := List.forall_mem_cons.mp h
      exact .plain hquote hbackslash (ih hs)

/-! ### Writing a text as a literal -/

/-- A text may be written character by character. -/
theorem standsFor_flatMap {write : Char → List Char}
    (h : ∀ {s t : List Char} (c : Char), StandsFor s t → StandsFor (write c ++ s) (c :: t))
    (text : List Char) : StandsFor (text.flatMap write) text := by
  induction text with
  | nil => exact .nil
  | cons c text ih =>
      rw [List.flatMap_cons]
      exact h c ih

def quoteChar (c : Char) : List Char :=
  if c = '"' ∨ c = '\\' then ['\\', c]
  else if c = '\n' then ['\\', 'n']
  else [c]

def quote (text : List Char) : List Char :=
  '"' :: (text.flatMap quoteChar ++ ['"'])

theorem StandsFor.quoteChar_append {s t : List Char} (h : StandsFor s t) (c : Char) :
    StandsFor (quoteChar c ++ s) (c :: t) := by
  unfold quoteChar
  split
  · rename_i hpair
    have hc : unescape c = [c] := by
      rcases hpair with rfl | rfl <;> rfl
    have hs := StandsFor.pair c h
    rwa [hc] at hs
  · rename_i hplain
    split
    · rename_i hnewline
      subst hnewline
      exact .pair 'n' h
    · rw [not_or] at hplain
      exact .plain hplain.1 hplain.2 h

theorem denotes_quote (text : List Char) : Denotes (quote text) text :=
  .intro (standsFor_flatMap (fun c h => h.quoteChar_append c) text)

theorem not_mem_quote (text : List Char) : '\n' ∉ quote text := by
  have hchar : ∀ c : Char, '\n' ∉ quoteChar c := by
    intro c hc
    unfold quoteChar at hc
    split at hc
    · rename_i hpair
      rcases hpair with rfl | rfl <;> simp at hc
    · split at hc
      · simp at hc
      · rename_i hnewline
        exact hnewline (List.mem_singleton.mp hc).symm
  simpa [quote] using fun c _ => hchar c

end NpcScript.Text
