import NpcScript.Proofs.Grammar.Assignment
import NpcScript.Proofs.Grammar.Dialogue
import NpcScript.Statement.Kind

/-!
The kind of a line that is written as a statement. The kind is found from the beginning of a line
only, so this is where the grammar of lines and the sorting of lines meet: a line that the grammar
of its kind knows is also sorted as one of this kind.
-/

namespace NpcScript

open Grammar (Assignment DialogueForm IsGap IsWord)
open Grammar.Reader (isGap)

theorem isBlank_of_isGap {c : Char} (h : isGap c = true) : Text.isBlank c = true := by
  simp only [isGap, Bool.or_eq_true, beq_iff_eq] at h
  rcases h with (rfl | rfl) | rfl <;> decide

theorem holdsArrow_append (s t : List Char) : holdsArrow (s ++ '-' :: '>' :: t) = true := by
  induction s with
  | nil => rfl
  | cons c s ih =>
      rw [List.cons_append, holdsArrow.eq_def]
      split <;> simp_all

/-- A line that is written as a dialogue line begins with a quote and holds an arrow. -/
theorem StatementKind.ofLine?_of_dialogue {separator : List Char → Prop} {line : List Char}
    {form : DialogueForm} (h : form.IsWritten separator line) :
    StatementKind.ofLine? line = some .dialogue := by
  obtain ⟨hstart, ⟨text, ⟨hbody⟩⟩, hbefore, hgap, hgap', hafter, hending⟩ := h
  rename_i start before gap gap' after ending conditions others body
  have htrimmed : Text.IsTrimmed (['"'] ++ (body ++ '"' :: (before ++ gap) ++ ['-', '>'])) :=
    (Text.isTrimmed_singleton (by decide)).enclose (by simp)
      (Text.isTrimmed_of_forall (by simp [Text.isBlank])) (by simp) _
  obtain ⟨-, u, hu, -⟩ := Text.exists_trim_append (fun c hc => isBlank_of_isGap (hstart c hc))
    htrimmed (by simp) (gap' ++ (after ++ ending))
  have hline : Text.trim (start ++ ('"' :: (body ++ ['"']) ++
      (before ++ (gap ++ '-' :: '>' :: (gap' ++ (after ++ ending)))))) =
      '"' :: (body ++ '"' :: (before ++ gap) ++ '-' :: '>' :: u) := by
    simpa using hu
  simp only [ofLine?, hline, holdsArrow_append, if_true]

section Assignments

variable {line : List Char} {assignment : Assignment}

/-- A word that nothing continues is the leading word. -/
theorem leadingWord_append {key rest : List Char} (hkey : IsWord key)
    (hrest : Grammar.Spares Grammar.continuesWord rest) : leadingWord (key ++ rest) = key := by
  have htrimmed := Grammar.isTrimmed_of_continuesWord hkey.continuesWord
  have hnone : ∀ c ∈ ([] : List Char), Text.isBlank c = true := by simp
  obtain ⟨hstart, -⟩ := Text.exists_trim_append hnone htrimmed hkey.ne_nil rest
  rw [List.nil_append] at hstart
  rw [leadingWord, hstart]
  exact Grammar.takeWhile_append_of_spares hkey.continuesWord hrest

/-- A line that is written as an assignment is sorted by its key. -/
theorem StatementKind.ofLine?_of_assignment (h : assignment.IsWritten line) :
    ofLine? line = .assignment <$> AssignmentKey.ofWord? assignment.key := by
  have hkey := h.isWord_key
  obtain ⟨start, rest, rfl, hstart, hrest⟩ := h.exists_rest
  have htrimmed := Grammar.isTrimmed_of_continuesWord hkey.continuesWord
  obtain ⟨-, u, hu, v, rfl⟩ := Text.exists_trim_append
    (fun c hc => isBlank_of_isGap (hstart c hc)) htrimmed hkey.ne_nil rest
  have hleading := leadingWord_append hkey hrest.of_append
  rw [← hu] at hleading
  obtain ⟨c, key, hcons⟩ := List.exists_cons_of_ne_nil hkey.ne_nil
  have hhead {d : Char} (hd : Grammar.beginsWord d = false) : c ≠ d := by
    rintro rfl
    exact hkey.head_ne hd (by rw [hcons]; rfl)
  have hminus := hhead (d := '-') (by decide)
  have hquote := hhead (d := '"') (by decide)
  rw [← hleading, ofLine?]
  rw [hcons, List.cons_append] at hu
  split <;> simp_all

end Assignments

/-- A line that begins with two minus signs is sorted as a comment. -/
theorem StatementKind.ofLine?_of_minus (text : List Char) :
    StatementKind.ofLine? ('-' :: '-' :: text) = some .comment := by
  have htrimmed : Text.IsTrimmed ['-', '-'] := Text.isTrimmed_of_forall (by simp [Text.isBlank])
  have hnone : ∀ c ∈ ([] : List Char), Text.isBlank c = true := by simp
  obtain ⟨-, u, hu, -⟩ := Text.exists_trim_append hnone htrimmed (by simp) text
  have hline : Text.trim ('-' :: '-' :: text) = '-' :: '-' :: u := hu
  simp only [ofLine?, hline]

/-! ### The words of keys -/

def Vocabulary.spellings {α : Type} [Vocabulary α] (a : α) : List String :=
  token a :: (word a).aliases

theorem Vocabulary.isWrittenAs_iff {α : Type} [Vocabulary α] {a : α} {s : List Char} :
    isWrittenAs a s = true ↔
      ∃ spelling ∈ spellings a, Text.sameLetters s spelling.toList = true := by
  simp [isWrittenAs, spellings]

theorem Vocabulary.exists_spelling_of_ofWord? {α : Type} [Vocabulary α] {a : α} {s : List Char}
    (h : ofWord? α s = some a) :
    ∃ spelling ∈ spellings a, Text.sameLetters s spelling.toList = true :=
  isWrittenAs_iff.mp (List.find?_some (p := (isWrittenAs · s)) h)

namespace AssignmentKey

def spellings : AssignmentKey → List String
  | identity key => Vocabulary.spellings key
  | appearance key => Vocabulary.spellings key
  | equipment slot => (Vocabulary.spellings slot).map ("item" ++ ·)
  | trade key => Vocabulary.spellings key
  | guard key => Vocabulary.spellings key
  | cycleText => ["cycletext"]

/-- Whether a word is one of the spellings of a key, up to letter case. -/
def isWrittenAs (key : AssignmentKey) (word : List Char) : Bool :=
  key.spellings.any fun spelling => Text.sameLetters word spelling.toList

def all : List AssignmentKey :=
  Vocabulary.all.map identity ++ Vocabulary.all.map appearance ++ Vocabulary.all.map equipment ++
    Vocabulary.all.map trade ++ Vocabulary.all.map guard ++ [cycleText]

theorem mem_all (key : AssignmentKey) : key ∈ all := by
  cases key <;> simp [all, Vocabulary.mem_all]

/-- All spellings of keys are words, and none of them is one of two keys. -/
theorem isLegible_of_mem_spellings (key : AssignmentKey) :
    ∀ spelling ∈ key.spellings,
      Grammar.wordLexer spelling.toList = some [] ∧ ofWord? spelling.toList = some key := by
  have hall : ∀ key ∈ all, ∀ spelling ∈ key.spellings,
      Grammar.wordLexer spelling.toList = some [] ∧ ofWord? spelling.toList = some key := by
    decide +kernel
  exact hall key key.mem_all

end AssignmentKey

end NpcScript
