import NpcScript.Proofs.Grammar.Token

/-!
Two readers of literals. The grammar takes a literal off a line pair by pair and character by
character, up to the first quote that is not part of a pair. What the literal stands for is found by
a second reader, which goes through the bytes with a flag for a pending backslash and tells the
closing quote by its place. Both split what follows the opening quote in the same way, so they agree
on which texts are literals, and a literal stands for what the replacement of its pairs makes of it.
-/

namespace NpcScript.Text

/-- The pairs that stand for one character: what follows the backslash, and the character. -/
def escapePairs : List (Char × Char) :=
  [('n', '\n'), ('t', '\t'), ('r', '\r'), ('"', '"'), ('\\', '\\')]

/-- Replaces the pairs of a text, taken from the left. A pair that stands for no character is kept,
and so is a backslash at the end. -/
def replacePairs : List Char → List Char
  | '\\' :: mark :: rest =>
      match escapePairs.lookup mark with
      | some c => c :: replacePairs rest
      | none => '\\' :: mark :: replacePairs rest
  | c :: rest => c :: replacePairs rest
  | [] => []

/-- A character as it may stand between quotes: as a pair if there is one for it. -/
def pairFor (c : Char) : List Char :=
  match escapePairs.find? (·.2 = c) with
  | some (mark, _) => ['\\', mark]
  | none => [c]

/-- The literal in which every character that there is a pair for is written as that pair. -/
def literalFor (text : List Char) : List Char :=
  '"' :: (text.flatMap pairFor ++ ['"'])

/-! ### Pairs -/

theorem unescape_eq (mark : Char) :
    unescape mark = match escapePairs.lookup mark with
      | some c => [c]
      | none => ['\\', mark] := by
  unfold unescape
  split
  case h_6 hn hr ht hquote hbackslash =>
    have hnone : escapePairs.lookup mark = none := by
      simpa [escapePairs, List.lookup_eq_none_iff] using ⟨hn, ht, hr, hquote, hbackslash⟩
    rw [hnone]
  all_goals rfl

theorem replacePairs_cons_of_ne {c : Char} (hc : c ≠ '\\') (s : List Char) :
    replacePairs (c :: s) = c :: replacePairs s := by
  rw [replacePairs.eq_def]
  split <;> simp_all

theorem StandsFor.replacePairs_eq {s t : List Char} (h : StandsFor s t) : replacePairs s = t := by
  induction h with
  | nil => rfl
  | plain hquote hbackslash hs ih => rw [replacePairs_cons_of_ne hbackslash, ih]
  | pair mark hs ih =>
      rw [replacePairs, unescape_eq, ih]
      cases escapePairs.lookup mark <;> rfl

theorem unescape_of_mem : ∀ pair ∈ escapePairs, unescape pair.1 = [pair.2] := by
  decide

/-- A character is written as one of the pairs, or no pair stands for it. -/
theorem pairFor_cases (c : Char) :
    (∃ mark, (mark, c) ∈ escapePairs ∧ pairFor c = ['\\', mark]) ∨
      (∀ pair ∈ escapePairs, pair.2 ≠ c) ∧ pairFor c = [c] := by
  cases hfound : escapePairs.find? (·.2 = c) with
  | none => exact .inr ⟨by simpa using List.find?_eq_none.mp hfound, by rw [pairFor, hfound]⟩
  | some pair =>
      obtain ⟨mark, d⟩ := pair
      obtain rfl : d = c := by simpa using List.find?_some hfound
      exact .inl ⟨mark, List.mem_of_find?_eq_some hfound, by rw [pairFor, hfound]⟩

theorem StandsFor.pairFor_append {s t : List Char} (h : StandsFor s t) (c : Char) :
    StandsFor (pairFor c ++ s) (c :: t) := by
  rcases pairFor_cases c with ⟨mark, hmem, hpair⟩ | ⟨hne, hplain⟩
  · have hs := StandsFor.pair mark h
    rw [unescape_of_mem _ hmem] at hs
    rw [hpair]
    exact hs
  · rw [hplain]
    exact .plain (hne ('"', '"') (by decide)).symm (hne ('\\', '\\') (by decide)).symm h

theorem denotes_literalFor (text : List Char) : Denotes (literalFor text) text :=
  .intro (standsFor_flatMap (fun c h => h.pairFor_append c) text)

theorem not_mem_pairFor (c : Char) : '\n' ∉ pairFor c := by
  have hmarks : ∀ pair ∈ escapePairs, '\n' ∉ ['\\', pair.1] := by decide
  rcases pairFor_cases c with ⟨mark, hmem, hpair⟩ | ⟨hne, hplain⟩
  · rw [hpair]
    exact hmarks _ hmem
  · rw [hplain, List.mem_singleton]
    exact hne ('n', '\n') (by decide)

theorem not_mem_literalFor (text : List Char) : '\n' ∉ literalFor text := by
  simpa [literalFor] using fun c _ => not_mem_pairFor c

end NpcScript.Text

namespace NpcScript.Grammar

open Text

/-! ### Texts that are no literals -/

/-- Where nothing closes a literal, all of it stands for some text, a last backslash aside. -/
theorem closingQuoteLexer_eq_none {s : List Char} (h : closingQuoteLexer s = none) :
    ∃ body text, StandsFor body text ∧ (s = body ∨ s = body ++ ['\\']) := by
  fun_induction closingQuoteLexer s with
  | case1 => exact ⟨[], [], .nil, .inl rfl⟩
  | case2 => cases h
  | case3 => exact ⟨[], [], .nil, .inr rfl⟩
  | case4 c s ih =>
      obtain ⟨body, text, hbody, rfl | rfl⟩ := ih h
      · exact ⟨_, _, .pair c hbody, .inl rfl⟩
      · exact ⟨_, _, .pair c hbody, .inr rfl⟩
  | case5 c s hquote hlast hbackslash ih =>
      have hplain := ne_backslash_of_forall hlast hbackslash
      obtain ⟨body, text, hbody, rfl | rfl⟩ := ih h
      · exact ⟨_, _, .plain hquote hplain hbody, .inl rfl⟩
      · exact ⟨_, _, .plain hquote hplain hbody, .inr rfl⟩

theorem decode_of_literalLexer_eq_none {s : List Char} (h : literalLexer ('"' :: s) = none) :
    decode ('"' :: s) = .error "missing closing quote" := by
  obtain ⟨body, text, hbody, hs⟩ := closingQuoteLexer_eq_none (s := s) h
  rw [decode]
  rcases hs with rfl | rfl
  · have hread := decodeBody_append hbody (byteLength s) 0 []
    rw [List.append_nil] at hread
    exact hread
  · exact decodeBody_append hbody _ 0 ['\\']

theorem decode_of_literalLexer_eq_some {c : Char} {s rest : List Char}
    (h : literalLexer s = some (c :: rest)) : decode s = .error "text after closing quote" := by
  obtain ⟨_, rfl, text, ⟨hbody⟩⟩ := literalLexer_sound h
  rw [List.cons_append, List.append_assoc]
  exact decode_append hbody (c :: rest)

/-! ### The two readers -/

/-- The two readers agree on which texts with a quote in front are literals. What is between the
quotes of a literal stands for what the replacement of its pairs makes of it, and every text is what
some literal in one line stands for. -/
theorem literalLexer_decode :
    (∀ s, literalLexer s = some [] →
      ∃ body, s = '"' :: (body ++ ['"']) ∧
        decode s = .ok (replacePairs body) ∧ unquote s = replacePairs body) ∧
    (∀ text, literalLexer (literalFor text) = some [] ∧ '\n' ∉ literalFor text ∧
      decode (literalFor text) = .ok text) ∧
    ∀ s, literalLexer ('"' :: s) ≠ some [] → ∃ message, decode ('"' :: s) = .error message := by
  refine ⟨?_, ?_, ?_⟩
  · intro s h
    obtain ⟨_, rfl, text, hdenotes⟩ := literalLexer_sound h
    rw [List.append_nil]
    obtain ⟨hbody⟩ := hdenotes
    refine ⟨_, rfl, ?_, ?_⟩
    · rw [hbody.replacePairs_eq]
      exact decode_of_denotes (.intro hbody)
    · rw [hbody.replacePairs_eq]
      exact unquote_of_denotes (.intro hbody)
  · intro text
    have hdenotes := denotes_literalFor text
    have hlexer := literalLexer_append ⟨text, hdenotes⟩ []
    rw [List.append_nil] at hlexer
    exact ⟨hlexer, not_mem_literalFor text, decode_of_denotes hdenotes⟩
  · intro s h
    cases hlexer : literalLexer ('"' :: s) with
    | none => exact ⟨_, decode_of_literalLexer_eq_none hlexer⟩
    | some rest =>
        cases rest with
        | nil => exact absurd hlexer h
        | cons c rest => exact ⟨_, decode_of_literalLexer_eq_some hlexer⟩

/-- Before the letter the backslashes pair up, so the quote is one of the text; the pair behind it
stands for itself. A quote behind a single backslash leaves the literal open. -/
theorem literalLexer_decode_backslashes :
    literalLexer ['"', '\\', '\\', '\\', '"', 'é', '\\', 'x', '"'] = some [] ∧
    decode ['"', '\\', '\\', '\\', '"', 'é', '\\', 'x', '"'] =
      .ok ['\\', '"', 'é', '\\', 'x'] ∧
    decode (literalFor ['\t', '"']) = .ok ['\t', '"'] ∧
    literalLexer ['"', '\\', '"'] ≠ some [] ∧
    ∃ message, decode ['"', '\\', '"'] = .error message := by
  obtain ⟨hliteral, hwritten, hother⟩ := literalLexer_decode
  have hread : literalLexer ['"', '\\', '\\', '\\', '"', 'é', '\\', 'x', '"'] = some [] := by
    decide
  have hopen : literalLexer ['"', '\\', '"'] ≠ some [] := by decide
  refine ⟨hread, ?_, (hwritten _).2.2, hopen, hother _ hopen⟩
  obtain ⟨body, hbody, hdecode, -⟩ := hliteral _ hread
  have hpairs : body = ['\\', '\\', '\\', '"', 'é', '\\', 'x'] :=
    List.append_cancel_right (List.cons.inj hbody).2.symm
  rw [hdecode, hpairs]
  rfl

end NpcScript.Grammar
