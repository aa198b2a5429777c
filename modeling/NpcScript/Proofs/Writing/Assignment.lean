import Mathlib.Data.List.Forall2
import NpcScript.Proofs.Grammar.Assignment
import NpcScript.Proofs.Statement.Kind
import NpcScript.Proofs.Statement.Value
import NpcScript.Proofs.Writing.Number
import NpcScript.Proofs.Writing.Vocabulary

/-!
Writing assignments. A draft says what an assignment should hold, in terms of numbers, texts and
words; it is written with one space between the parts. What is read from the written line is the
draft again, but for the columns of its parts.
-/

namespace NpcScript

open Text (FitsLine quote)

theorem Text.fitsLine_quote (text : List Char) : FitsLine (quote text) := by
  refine ⟨not_mem_quote text, ?_⟩
  rw [quote, ← List.cons_append, List.getLast?_concat]
  decide

theorem Text.unquote_quote (text : List Char) : unquote (quote text) = text :=
  unquote_of_denotes (denotes_quote text)

namespace Grammar

/-- A value that is no call. -/
inductive AtomDraft where
  | number (value : Int)
  | text (content : String)
  | word (spelling : List Char)

/-- A value that a writer wants to have in an assignment. -/
inductive ValueDraft where
  | atom (draft : AtomDraft)
  | call (name : List Char) (arguments : List AtomDraft)

namespace AtomDraft

def write : AtomDraft → List Char
  | number value => numeral value
  | text content => quote content.toList
  | word spelling => spelling

def IsWritable : AtomDraft → Prop
  | word spelling => IsWord spelling
  | number _ | text _ => True

def Describes : AtomDraft → Value → Prop
  | number value, found => ∃ column, found = .number ⟨column, numeral value⟩
  | text content, found => ∃ column, found = .quoted ⟨column, quote content.toList⟩
  | word spelling, found => ∃ column, found = .word ⟨column, spelling⟩

theorem expresses {draft : AtomDraft} (h : draft.IsWritable) :
    Expresses Value.IsWritten draft.write draft.Describes := by
  cases draft with
  | number value =>
      refine ⟨fitsLine_numeral value, fun offset => ?_⟩
      exact ⟨_, .number (isNumber_numeral value), offset + 1, rfl⟩
  | text content =>
      refine ⟨Text.fitsLine_quote content.toList, fun offset => ?_⟩
      exact ⟨_, .quoted ⟨_, Text.denotes_quote content.toList⟩, offset + 1, rfl⟩
  | word spelling =>
      have hword : IsWord spelling := h
      exact ⟨hword.fitsLine, fun offset => ⟨_, .word hword, offset + 1, rfl⟩⟩

end AtomDraft

namespace ValueDraft

def write : ValueDraft → List Char
  | atom draft => draft.write
  | call name arguments => name ++ '(' :: (commas (arguments.map AtomDraft.write) ++ [')'])

def IsWritable : ValueDraft → Prop
  | atom draft => draft.IsWritable
  | call name arguments => IsWord name ∧ ∀ argument ∈ arguments, argument.IsWritable

def Describes : ValueDraft → Value → Prop
  | atom draft, found => draft.Describes found
  | call name arguments, found => ∃ source values, found = .call source name values ∧
      List.Forall₂ AtomDraft.Describes arguments values

theorem expresses {draft : ValueDraft} (h : draft.IsWritable) :
    Expresses Value.IsWritten draft.write draft.Describes := by
  cases draft with
  | atom draft => exact draft.expresses h
  | call name arguments =>
      obtain ⟨hname, harguments⟩ := h
      have hinside := Expresses.parenthesised fun argument hargument =>
        AtomDraft.expresses (harguments argument hargument)
      refine ⟨hname.fitsLine.append hinside.fitsLine, fun offset => ?_⟩
      obtain ⟨values, hvalues, hdescribes⟩ := hinside.exists_item (offset + name.length)
      exact ⟨_, .call hname isGap_nil hvalues, _, values, rfl, hdescribes⟩

/-! ### Reading values back -/

variable {found : Value}

theorem integer_eq (place : NumericPlace) (hwide : place.IsWide) {value : Int}
    (h : place.Admits value) (hfound : (AtomDraft.number value).Describes found) :
    found.integer place = .ok value := by
  obtain ⟨column, rfl⟩ := hfound
  exact place.read_numeral hwide h column

theorem natural_eq (place : NumericPlace) (hwide : place.IsWide) {min max : Nat}
    (hmin : place.min = min) (hmax : place.max = max) {n : Nat} (h : min ≤ n ∧ n ≤ max)
    (hfound : (AtomDraft.number n).Describes found) : found.natural place = .ok n := by
  rw [Value.natural, integer_eq place hwide (NumericPlace.admits_natCast hmin hmax h) hfound]
  rfl

theorem quotedText_eq {text : String} (hfound : (AtomDraft.text text).Describes found)
    (keyword : List Char) (expected : String) : found.quotedText keyword expected = .ok text := by
  obtain ⟨column, rfl⟩ := hfound
  simp [Value.quotedText, Text.unquote_quote]

theorem token_eq {word : List Char} (hfound : (AtomDraft.word word).Describes found)
    (keyword : List Char) (expected : String) : found.token keyword expected = .ok word := by
  obtain ⟨column, rfl⟩ := hfound
  rfl

end ValueDraft

end Grammar

/-! ### Keys -/

namespace AssignmentKey

def token : AssignmentKey → List Char
  | identity key => (Vocabulary.token key).toList
  | appearance key => (Vocabulary.token key).toList
  | equipment slot => "item".toList ++ (Vocabulary.token slot).toList
  | trade key => (Vocabulary.token key).toList
  | guard key => (Vocabulary.token key).toList
  | cycleText => "cycleText".toList

/-- The tokens of keys are words that are read back. -/
def IsLegible (key : AssignmentKey) : Prop :=
  Grammar.wordLexer key.token = some [] ∧ ofWord? key.token = some key

instance : DecidablePred IsLegible :=
  fun _ => inferInstanceAs (Decidable (_ ∧ _))

theorem isLegible (key : AssignmentKey) : key.IsLegible := by
  have hspelling := key.isLegible_of_mem_spellings
  cases key with
  | identity key | appearance key | trade key | guard key => exact hspelling _ List.mem_cons_self
  | equipment slot =>
      have hlegible := hspelling _ (List.mem_map_of_mem List.mem_cons_self)
      rwa [String.toList_append] at hlegible
  | cycleText => decide +kernel

theorem isWord_token (key : AssignmentKey) : Grammar.IsWord key.token := by
  obtain ⟨w, hw, hword⟩ := Grammar.wordLexer_sound key.isLegible.1
  rwa [hw, List.append_nil]

end AssignmentKey

/-! ### Lines -/

namespace Grammar

structure AssignmentDraft where
  key : AssignmentKey
  values : List ValueDraft

namespace AssignmentDraft

def write (draft : AssignmentDraft) : List Char :=
  draft.key.token ++ (" = ".toList ++ commas (draft.values.map ValueDraft.write))

structure IsWritable (draft : AssignmentDraft) : Prop where
  ne_nil : draft.values ≠ []
  values : ∀ value ∈ draft.values, value.IsWritable

variable {draft : AssignmentDraft}

theorem fitsLine_write (h : draft.IsWritable) : FitsLine draft.write := by
  have hrow := Expresses.row isMark_comma fun value hvalue =>
    ValueDraft.expresses (h.values value hvalue)
  have hlink : FitsLine " = ".toList := Text.fitsLine_of_forall (by simp)
  exact draft.key.isWord_token.fitsLine.append (hlink.append hrow.fitsLine)

/-- What a written draft is read as. -/
theorem exists_isWritten (h : draft.IsWritable) :
    ∃ values, Assignment.IsWritten draft.write ⟨draft.key.token, values⟩ ∧
      List.Forall₂ ValueDraft.Describes draft.values values := by
  have hrow := Expresses.row isMark_comma fun value hvalue =>
    ValueDraft.expresses (h.values value hvalue)
  obtain ⟨values, hvalues, hdescribes⟩ := hrow.exists_item (0 + draft.key.token.length + 3)
  have hlink : IsMark '=' " = ".toList := .intro isGap_space isGap_space
  have hne : values ≠ [] := by
    rintro rfl
    exact h.ne_nil (List.forall₂_nil_right_iff.mp hdescribes)
  have hwritten := Assignment.IsWritten.intro isGap_nil draft.key.isWord_token (.equals hlink)
    hvalues hne (.blank isGap_nil)
  refine ⟨values, ?_, hdescribes⟩
  rwa [List.nil_append, List.append_nil] at hwritten

end AssignmentDraft

end Grammar

end NpcScript
