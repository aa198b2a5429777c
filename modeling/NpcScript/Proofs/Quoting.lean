import NpcScript.Proofs.Ending
import NpcScript.Proofs.Grammar.Place
import NpcScript.Proofs.Writing.Number

/-!
What diagnostics quote. A diagnostic that quotes a number, a keyword or a text points at the place
where the quotation begins. A word that names nothing is quoted without the quotes that may have
been around it in the script; then the diagnostic points at the string literal that stands for it.
Every reader is given the column of what it reads, so it is enough that what it is given stands at
that column.
-/

namespace NpcScript

open Text (IsTrimmed Denotes)
open Grammar (Lexeme IsWord IsNumber IsOperator Operand)

/-! ### Quotations -/

/-- The text begins with a name: with a string literal for it if a quote stands there, and else with
the name itself. Of a literal, `same` says how its text and the name agree. -/
def BeginsWithName (same : List Char → List Char → Prop) (name rest : List Char) : Prop :=
  if rest.head? = some '"' then
    ∃ literal text, literal <+: rest ∧ Denotes literal text ∧ same text name
  else name <+: rest

/-- The text begins with what the cause quotes. Causes that quote no part of a line, or the whole of
it, say nothing. -/
def Cause.IsQuotedFrom (rest : List Char) : Cause → Prop
  | malformedNumber _ text | suspiciousQuote _ text => text.toList <+: rest
  | valueOutOfRange _ value _ _ => value.toList <+: rest
  | unknownKeyword keyword => keyword.toList <+: rest
  | unknownToken _ token _ =>
    BeginsWithName (fun text name => Text.trim text = Text.trim name) token.toList rest
  | unknownSkill name => BeginsWithName Eq name.toList rest
  | unparseableLine _ | malformedStatement _ _ | unknownItem _ _ | invalidClause _ _ => True

/-- From the column of the issue on, the line begins with what the issue quotes. -/
def Issue.Quotes (line : List Char) (issue : Issue) : Prop :=
  ∀ column, issue.column = some column → issue.cause.IsQuotedFrom (line.drop (column - 1))

def Quoting (line : List Char) (issues : List Issue) : Prop :=
  ∀ issue ∈ issues, issue.Quotes line

section Issues

variable {line : List Char}

theorem Issue.quotes_atColumn {column : Nat} {cause : Cause}
    (h : cause.IsQuotedFrom (line.drop (column - 1))) :
    (Issue.atColumn column cause).Quotes line := by
  rintro c ⟨⟩
  exact h

theorem quoting_singleton (issue : Issue) (h : issue.Quotes line) : Quoting line [issue] := by
  intro other hother
  rwa [List.mem_singleton.mp hother]

theorem Quoting.append {issues more : List Issue} (h : Quoting line issues)
    (hmore : Quoting line more) : Quoting line (issues ++ more) :=
  List.forall_mem_append.mpr ⟨h, hmore⟩

/-- The parts of a statement are read one by one, and each has its own issue. -/
theorem Ends.quoting {α : Type} {good : α → Prop} {result : Except Issue α}
    (h : Ends result good (Issue.Quotes line)) :
    Ends (Checked.ofPart result) good (Quoting line) :=
  h.part quoting_singleton

/-- Of a statement the key is quoted, which does not stand where the statement is wrong. -/
theorem malformed_quotes (line keyword : List Char) (expected : String) (column : Nat) :
    (malformed keyword expected column).Quotes line :=
  Issue.quotes_atColumn True.intro

theorem invalidClause_quotes (line keyword : List Char) (reason : String) (column : Nat) :
    (invalidClause keyword reason column).Quotes line :=
  Issue.quotes_atColumn True.intro

end Issues

/-! ### Names -/

namespace Grammar

/-- The text is no string literal and has no blanks around it. -/
structure IsBare (s : List Char) : Prop where
  ne_nil : s ≠ []
  isTrimmed : IsTrimmed s
  head_ne : s.head? ≠ some '"'

section IsBare

variable {s : List Char}

theorem IsWord.isBare (h : IsWord s) : IsBare s :=
  ⟨h.ne_nil, isTrimmed_of_continuesWord h.continuesWord, h.head_ne (by decide)⟩

theorem Operand.isBare (h : Operand s) : IsBare s := by
  refine ⟨h.ne_nil, h.isTrimmed, fun hc => ?_⟩
  cases h.beginsOperand_of_head? hc

theorem IsNumber.isBare (h : IsNumber s) : IsBare s :=
  h.operand.isBare

theorem IsOperator.isBare (h : IsOperator s) : IsBare s := by
  obtain ⟨operator, hmem, rfl⟩ := h
  have hall : ∀ operator ∈ operators, operator.toList ≠ [] ∧
      (operator.toList.all fun c => !Text.isBlank c && c != '"') = true := by decide
  obtain ⟨hne, hchars⟩ := hall operator hmem
  have hchar (c : Char) (hc : c ∈ operator.toList) : Text.isBlank c = false ∧ c ≠ '"' := by
    simpa using List.all_eq_true.mp hchars c hc
  refine ⟨hne, Text.isTrimmed_of_forall fun c hc => (hchar c hc).1, fun hc => ?_⟩
  exact (hchar '"' (List.mem_of_mem_head? hc)).2 rfl

end IsBare

end Grammar

/-- The name is written at the column: as it is, or as a string literal. -/
inductive NamedAt (line : List Char) (column : Nat) : List Char → Prop
  | bare {s : List Char} (hs : Grammar.IsBare s) (h : (⟨column, s⟩ : Lexeme).StandsIn line) :
      NamedAt line column s
  | literal {s text : List Char} (hs : Denotes s text) (h : (⟨column, s⟩ : Lexeme).StandsIn line) :
      NamedAt line column text

theorem NamedAt.beginsWithName {same : List Char → List Char → Prop} {line : List Char}
    {column : Nat} {token name : List Char} (h : NamedAt line column token)
    (hsame : same token name) (hbare : Grammar.IsBare token → name = token) :
    BeginsWithName same name (line.drop (column - 1)) := by
  unfold BeginsWithName
  cases h with
  | bare hs h =>
      have hhead : (line.drop (column - 1)).head? ≠ some '"' := by
        obtain ⟨rest, hrest⟩ := h
        rw [← hrest, List.head?_append_of_ne_nil token hs.ne_nil]
        exact hs.head_ne
      rw [if_neg hhead, hbare hs]
      exact h
  | @literal s text hs h =>
      have hhead : (line.drop (column - 1)).head? = some '"' := by
        obtain ⟨rest, hrest⟩ := h
        rw [← hrest]
        obtain ⟨hbody⟩ := hs
        rfl
      rw [if_pos hhead]
      exact ⟨s, token, h, hs, hsame⟩

theorem Grammar.Lexeme.StandsIn.namedAt_unquote {source : Lexeme} {line : List Char}
    (h : source.StandsIn line) (hs : Text.IsLiteral source.text) :
    NamedAt line source.column (Text.unquote source.text) := by
  obtain ⟨text, hdenotes⟩ := hs
  rw [Text.unquote_of_denotes hdenotes]
  exact .literal hdenotes h

/-! ### Readers -/

section Readers

variable {line : List Char}

theorem NumericPlace.read_quotes {source : Lexeme} (h : source.StandsIn line)
    (hs : Grammar.IsBare source.text) (place : NumericPlace) :
    Ends (place.read source.column source.text) (fun _ => True) (Issue.Quotes line) := by
  have hquoted : (String.ofList source.text).toList <+: line.drop (source.column - 1) := by
    rwa [String.toList_ofList]
  simp only [read, Text.trim_eq_self hs.isTrimmed]
  split
  · exact Issue.quotes_atColumn hquoted
  · split
    · exact True.intro
    · exact Issue.quotes_atColumn hquoted

theorem Quantity.read_quotes {source : Lexeme} (h : source.StandsIn line)
    (hs : Grammar.IsBare source.text) (field : String) :
    Ends (Quantity.read field source.column source.text) (fun _ => True) (Issue.Quotes line) := by
  unfold read
  split
  · exact True.intro
  · refine Issue.quotes_atColumn ?_
    simp only [Cause.IsQuotedFrom, String.toList_ofList, Text.trim_eq_self hs.isTrimmed]
    exact h

/-- The whole line is quoted for an item that is not found. -/
theorem Context.item_quotes {source : Lexeme} (h : source.StandsIn line)
    (hs : Grammar.IsBare source.text) (context : Context) (text : List Char) :
    Ends (context.item text source.column source.text) (fun _ => True) (Issue.Quotes line) := by
  refine (NumericPlace.itemId.read_quotes h hs).bind fun id _ => ?_
  dsimp only
  split
  · exact True.intro
  · exact Issue.quotes_atColumn True.intro

variable {column : Nat} {token : List Char} (h : NamedAt line column token)

include h

theorem Context.skill_quotes (context : Context) :
    Ends (context.skill column token) (fun _ => True) (Issue.Quotes line) := by
  unfold skill
  split
  · exact True.intro
  · refine Issue.quotes_atColumn ?_
    simp only [Cause.IsQuotedFrom, String.toList_ofList]
    exact h.beginsWithName rfl fun _ => rfl

theorem Vocabulary.resolve_quotes (α : Type) [Vocabulary α] (field : String) :
    Ends (resolve α field column token) (fun _ => True) (Issue.Quotes line) := by
  unfold resolve
  split
  · exact True.intro
  · refine Issue.quotes_atColumn ?_
    simp only [Cause.IsQuotedFrom, String.toList_ofList]
    exact h.beginsWithName (Text.trim_trim token).symm fun hs => Text.trim_eq_self hs.isTrimmed

theorem readSwitch_quotes (field : String) :
    Ends (readSwitch field column token) (fun _ => True) (Issue.Quotes line) := by
  unfold readSwitch
  split
  · exact True.intro
  · split
    · exact True.intro
    · refine Issue.quotes_atColumn ?_
      simp only [Cause.IsQuotedFrom, String.toList_ofList]
      exact h.beginsWithName rfl fun _ => rfl

end Readers

end NpcScript
