import NpcScript.Proofs.Quoting

/-!
Closed choices. In many places a text is asked to be one of a fixed set of words, and if it is none
of them, a message lists the set. The list is made of the words that are printed, while a text is
taken if it is read as one of them, so it has to be shown that what a message lists is taken. The
second half of the module is about readers: an issue about an unknown token comes from a text that
was asked for in this way and not taken.
-/

namespace NpcScript

open Grammar (IsOperator IsWord continuesWord)

/-- A closed set of words: how a message lists it, and which texts are taken for a word of it. -/
structure Choice where
  listing : String
  takes : List Char → Bool

def suggestions (listing : String) : List (List Char) :=
  (listing.toList.splitOn ',').map Text.trim

/-- All that a message lists is of this kind, and is taken. -/
def Choice.Offers (choice : Choice) (kind : List Char → Prop) : Prop :=
  ∀ suggestion ∈ suggestions choice.listing, kind suggestion ∧ choice.takes suggestion = true

/-! ### Listings -/

/-- A text with neither commas nor blanks, which is found again in a listing. -/
def IsListable (s : List Char) : Prop :=
  ∀ c ∈ s, c ≠ ',' ∧ Text.isBlank c = false

theorem Grammar.IsWord.isListable {s : List Char} (h : IsWord s) : IsListable s :=
  fun c hc => Grammar.of_continuesWord (p := fun c => c ≠ ',' ∧ Text.isBlank c = false) (by decide)
    (h.continuesWord c hc)

/-- A separating comma and blank can be seen as a comma and a word that begins with a blank. -/
theorem intercalate_comma_blank (first : List Char) (words : List (List Char)) :
    [',', ' '].intercalate (first :: words) =
      [','].intercalate (first :: words.map (' ' :: ·)) := by
  induction words generalizing first with
  | nil => rfl
  | cons word words ih =>
      rw [List.intercalate_cons_cons, ih, List.map_cons, List.intercalate_cons_cons]
      cases words <;> simp [List.intercalate_cons_cons]

theorem suggestions_of_intercalate {listing : String} {words : List (List Char)} (hne : words ≠ [])
    (hlisting : listing.toList = [',', ' '].intercalate words)
    (hclean : ∀ word ∈ words, IsListable word) :
    suggestions listing = words := by
  obtain ⟨first, words, rfl⟩ := List.exists_cons_of_ne_nil hne
  have htrim : ∀ word ∈ first :: words, Text.trim word = word := fun word hword =>
    Text.trim_eq_self (Text.isTrimmed_of_forall fun c hc => (hclean word hword c hc).2)
  have hcomma : ∀ word ∈ first :: words.map (' ' :: ·), ',' ∉ word := by
    intro word hword hmem
    rcases List.mem_cons.mp hword with rfl | hword
    · exact (hclean word (by simp) _ hmem).1 rfl
    · obtain ⟨word, hfound, rfl⟩ := List.mem_map.mp hword
      rcases List.mem_cons.mp hmem with hblank | hmem
      · exact absurd hblank (by decide)
      · exact (hclean word (List.mem_cons_of_mem first hfound) _ hmem).1 rfl
  calc suggestions listing
      = (first :: words.map (' ' :: ·)).map Text.trim := by
        rw [suggestions, hlisting, intercalate_comma_blank,
          List.splitOn_intercalate _ hcomma (by simp)]
    _ = (first :: words).map Text.trim := by
        simp [Text.trim, Text.trimStart, show Text.isBlank ' ' = true by decide]
    _ = first :: words := (List.map_congr_left htrim).trans (List.map_id _)

namespace Vocabulary

variable {α : Type} [Vocabulary α]

theorem suggestions_listing (hne : (all : List α) ≠ [])
    (hclean : ∀ a : α, IsListable (token a).toList) :
    suggestions (listing α) = (all : List α).map fun a => (token a).toList := by
  refine suggestions_of_intercalate (by simpa using hne) ?_ ?_
  · rw [listing, String.toList_intercalate, List.map_map]
    rfl
  · intro word hword
    obtain ⟨a, -, rfl⟩ := List.mem_map.mp hword
    exact hclean a

/-- The word that a member is printed with is read as a member. -/
theorem ofToken?_token_isSome {a : α} (hblank : ∀ c ∈ (token a).toList, Text.isBlank c = false) :
    (ofToken? α (token a).toList).isSome := by
  rw [ofToken?, Text.trim_eq_self (Text.isTrimmed_of_forall hblank), ofWord?, List.find?_isSome]
  exact ⟨a, mem_all a, by simp [isWrittenAs, Text.sameLetters]⟩

end Vocabulary

namespace Choice

def of (α : Type) [Vocabulary α] : Choice where
  listing := Vocabulary.listing α
  takes text := (Vocabulary.ofToken? α text).isSome

def switch : Choice where
  listing := "on, off, true, false, yes, no"
  takes text :=
    ["on", "true", "yes"].any (Text.sameLetters text ·.toList) ||
      ["off", "false", "no"].any (Text.sameLetters text ·.toList)

theorem of_offers {α : Type} [Vocabulary α] {kind : List Char → Prop}
    (hclean : ∀ s, kind s → IsListable s)
    (hne : (Vocabulary.all : List α) ≠ []) (hkind : ∀ a : α, kind (Vocabulary.token a).toList) :
    (of α).Offers kind := by
  intro suggestion hsuggestion
  have hlisting := Vocabulary.suggestions_listing hne fun a => hclean _ (hkind a)
  obtain ⟨a, -, rfl⟩ := List.mem_map.mp (hlisting ▸ hsuggestion)
  exact ⟨hkind a, Vocabulary.ofToken?_token_isSome fun c hc => (hclean _ (hkind a) c hc).2⟩

theorem of_offers_word {α : Type} [Vocabulary α] (hne : (Vocabulary.all : List α) ≠ [])
    (hwords : ∀ a ∈ (Vocabulary.all : List α),
      Grammar.wordLexer (Vocabulary.token a).toList = some []) :
    (of α).Offers IsWord := by
  refine of_offers (fun s hs => hs.isListable) hne fun a => ?_
  exact Grammar.isWord_of_wordLexer (hwords a (Vocabulary.mem_all a))

/-- An operator that makes a condition of its clause is one of those that compare. -/
theorem takes_of_isCompareOnly {operator : List Char} (h : isCompareOnly operator = true) :
    (of CompareOperator).takes operator = true := by
  have hall : ∀ spelling ∈ ["==", "!=", "~=", "<", ">", "<=", ">="],
      (Vocabulary.ofWord? CompareOperator spelling.toList).isSome = true := by decide
  obtain ⟨spelling, hmem, hspelling⟩ := List.any_eq_true.mp h
  simp only [of, Vocabulary.ofToken?, eq_of_beq hspelling, hall spelling hmem]

theorem compareOperator_offers : (of CompareOperator).Offers IsOperator := by
  have hoperators : Grammar.operators.all fun operator =>
      operator.toList.all fun c => c != ',' && !Text.isBlank c := by decide
  refine of_offers ?_ (by simp [Vocabulary.all]) fun operator => ?_
  · rintro _ ⟨operator, hmem, rfl⟩ c hc
    simpa using List.all_eq_true.mp (List.all_eq_true.mp hoperators operator hmem) c hc
  · have hall : ∀ operator ∈ (Vocabulary.all : List CompareOperator),
        Vocabulary.token operator ∈ Grammar.operators := by decide
    exact ⟨_, hall operator (Vocabulary.mem_all operator), rfl⟩

theorem switch_offers : switch.Offers IsWord := by
  have hall : ∀ word ∈ ["on", "off", "true", "false", "yes", "no"].map String.toList,
      Grammar.wordLexer word = some [] ∧ switch.takes word = true := by decide
  have hword (word : List Char)
      (h : word ∈ ["on", "off", "true", "false", "yes", "no"].map String.toList) : IsWord word :=
    Grammar.isWord_of_wordLexer (hall word h).1
  have hlisting : suggestions switch.listing =
      ["on", "off", "true", "false", "yes", "no"].map String.toList :=
    suggestions_of_intercalate (by simp) (by decide) fun word h => (hword word h).isListable
  intro suggestion hsuggestion
  rw [hlisting] at hsuggestion
  exact ⟨hword suggestion hsuggestion, (hall suggestion hsuggestion).2⟩

end Choice

/-! ### Suggestions in the place of a text -/

/-- What is written for a suggestion in the place of `s`: between quotes if there are some. -/
def mended (s suggestion : List Char) : List Char :=
  if s.head? = some '"' then '"' :: (suggestion ++ ['"']) else suggestion

theorem mended_of_isLiteral {s : List Char} (h : Text.IsLiteral s) (suggestion : List Char) :
    mended s suggestion = '"' :: (suggestion ++ ['"']) := by
  obtain ⟨text, ⟨hbody⟩⟩ := h
  rfl

theorem mended_of_isBare {s : List Char} (h : Grammar.IsBare s) (suggestion : List Char) :
    mended s suggestion = suggestion :=
  if_neg h.head_ne

theorem mended_ne_nil {s suggestion : List Char} (h : suggestion ≠ []) :
    mended s suggestion ≠ [] := by
  unfold mended
  split
  · simp
  · exact h

/-- The texts that a text of a choice is written as: a string literal that stands for it, or the
text itself. -/
inductive IsWrittenFor : List Char → List Char → Prop
  | literal {s : List Char} (hs : Text.IsLiteral s) : IsWrittenFor (Text.unquote s) s
  | operand {s : List Char} (hs : Grammar.Operand s) : IsWrittenFor s s
  | operator {s : List Char} (hs : Grammar.IsOperator s) : IsWrittenFor s s

def IsTextOf (token : String) (s : List Char) : Prop :=
  ∃ name, IsWrittenFor name s ∧ (token.toList = name ∨ token.toList = Text.trim name)

theorem IsTextOf.isLiteral_or {token : String} {s : List Char} (h : IsTextOf token s) :
    Text.IsLiteral s ∨ Grammar.IsBare s ∧ token.toList = s := by
  obtain ⟨name, hfor, htoken⟩ := h
  have hbare (hs : Grammar.IsBare name) : token.toList = name := by
    rwa [Text.trim_eq_self hs.isTrimmed, or_self] at htoken
  cases hfor with
  | literal hs => exact .inl hs
  | operand hs => exact .inr ⟨hs.isBare, hbare hs.isBare⟩
  | operator hs => exact .inr ⟨hs.isBare, hbare hs.isBare⟩

/-- Where such a text ends is told by the text alone. -/
theorem IsTextOf.append_inj {token : String} {s s' rest rest' : List Char} (h : IsTextOf token s)
    (h' : IsTextOf token s') (heq : s ++ rest = s' ++ rest') : s = s' ∧ rest = rest' := by
  have hmixed {s s' rest rest' : List Char} (hs : Text.IsLiteral s) (hs' : Grammar.IsBare s')
      (heq : s ++ rest = s' ++ rest') : False := by
    obtain ⟨text, ⟨hbody⟩⟩ := hs
    have hhead := congrArg List.head? heq
    rw [List.head?_append_of_ne_nil s' hs'.ne_nil] at hhead
    exact hs'.head_ne hhead.symm
  rcases h.isLiteral_or with hs | ⟨hs, htoken⟩ <;> rcases h'.isLiteral_or with hs' | ⟨hs', htoken'⟩
  · have hlexer := congrArg Grammar.literalLexer heq
    rw [Grammar.literalLexer_append hs, Grammar.literalLexer_append hs', Option.some.injEq]
      at hlexer
    subst hlexer
    exact ⟨List.append_cancel_right heq, rfl⟩
  · exact (hmixed hs hs' heq).elim
  · exact (hmixed hs' hs heq.symm).elim
  · obtain rfl := htoken.symm.trans htoken'
    exact ⟨rfl, List.append_cancel_left heq⟩

def Cause.IsUnknownToken (cause : Cause) : Prop :=
  ∃ field token expected, cause = .unknownToken field token expected

/-! ### Readers -/

/-- The choice does not take the text, and this is what a message says of it. The blanks around the
text may be left out. -/
structure Choice.Refuses (choice : Choice) (text : List Char) (token expected : String) : Prop where
  takes : choice.takes text = false
  token : token.toList = text ∨ token.toList = Text.trim text
  expected : expected = choice.listing

/-- If a token is said to be unknown, then a text at the column of the issue is asked to be one of a
choice, and the choice does not take it. -/
def Issue.Answers (asked : Nat → List Char → Choice → Prop) (issue : Issue) : Prop :=
  ∀ field token expected, issue.cause = .unknownToken field token expected →
    ∃ column text choice, issue.column = some column ∧ asked column text choice ∧
      choice.Refuses text token expected

section Readers

variable {asked : Nat → List Char → Choice → Prop}

theorem malformed_answers (keyword : List Char) (expected : String) (column : Nat) :
    (malformed keyword expected column).Answers asked :=
  nofun

theorem invalidClause_answers (keyword : List Char) (reason : String) (column : Nat) :
    (invalidClause keyword reason column).Answers asked :=
  nofun

theorem NumericPlace.read_answers (place : NumericPlace) (column : Nat) (text : List Char) :
    Ends (place.read column text) (fun _ => True) (Issue.Answers asked) := by
  simp only [read]
  split
  · rintro field token expected ⟨⟩
  · split
    · exact True.intro
    · rintro field token expected ⟨⟩

theorem Quantity.read_answers (field : String) (column : Nat) (text : List Char) :
    Ends (read field column text) (fun _ => True) (Issue.Answers asked) := by
  unfold read
  split
  · exact True.intro
  · exact nofun

theorem Context.item_answers (context : Context) (line : List Char) (column : Nat)
    (text : List Char) :
    Ends (context.item line column text) (fun _ => True) (Issue.Answers asked) := by
  refine (NumericPlace.itemId.read_answers column text).bind fun id _ => ?_
  dsimp only
  split
  · exact True.intro
  · exact nofun

theorem Context.skill_answers (context : Context) (column : Nat) (name : List Char) :
    Ends (context.skill column name) (fun _ => True) (Issue.Answers asked) := by
  unfold skill
  split
  · exact True.intro
  · exact nofun

variable {column : Nat} {text : List Char}

theorem Vocabulary.resolve_answers {α : Type} [Vocabulary α] (h : asked column text (.of α))
    (field : String) :
    Ends (resolve α field column text) (fun _ => True) (Issue.Answers asked) := by
  unfold resolve
  split
  · exact True.intro
  · rename_i hnone
    rintro field token expected ⟨⟩
    exact ⟨column, text, .of α, rfl, h, by simp [Choice.of, hnone], .inr (by simp), rfl⟩

theorem readSwitch_answers (h : asked column text .switch) (field : String) :
    Ends (readSwitch field column text) (fun _ => True) (Issue.Answers asked) := by
  unfold readSwitch
  split
  · exact True.intro
  · split
    · exact True.intro
    · rename_i hon hoff
      rintro field token expected ⟨⟩
      exact ⟨column, text, .switch, rfl, h, by simp only [Choice.switch, hon, hoff]; rfl,
        .inl (by simp), rfl⟩

end Readers

end NpcScript
