import NpcScript.Proofs.Text.Escape
import NpcScript.Proofs.Writing.Number
import NpcScript.Ron.Value

/-!
The parts of a laid-out value. Every value is laid out as a word, which may be empty, and what
stands behind it, its content. A value whose names are proper ones can be put together again from
the two, so a reader who can tell them apart can tell which value it is.
-/

namespace NpcScript.Ron

open Grammar (IsNumber IsWord continuesWord wordLexer)

/-! ### Names -/

def keywords : List String :=
  ["None", "Some", "true", "false"]

def IsName (name : String) : Prop :=
  wordLexer name.toList = some [] ∧ name ∉ keywords

instance : DecidablePred IsName := fun name =>
  inferInstanceAs (Decidable (wordLexer name.toList = some [] ∧ name ∉ keywords))

theorem IsName.isWord {name : String} (h : IsName name) : IsWord name.toList := by
  obtain ⟨w, hw, hword⟩ := Grammar.wordLexer_sound h.1
  rw [hw, List.append_nil]
  exact hword

theorem IsName.toList_ne {name keyword : String} (h : IsName name) (hkeyword : keyword ∈ keywords) :
    name.toList ≠ keyword.toList := by
  intro heq
  rw [String.toList_inj.mp heq] at h
  exact h.2 hkeyword

def isWordPart (c : Char) : Bool :=
  continuesWord c || c == '-'

theorem isWordPart_of_continuesWord {c : Char} (h : continuesWord c = true) :
    isWordPart c = true := by
  simp [isWordPart, h]

theorem IsName.isWordPart {name : String} (h : IsName name) :
    ∀ c ∈ name.toList, isWordPart c = true :=
  fun c hc => isWordPart_of_continuesWord (h.isWord.continuesWord c hc)

theorem isWordPart_of_mem_number {s : List Char} (hs : IsNumber s) :
    ∀ c ∈ s, isWordPart c = true := by
  intro c hc
  cases hs with
  | plain hs => exact isWordPart_of_continuesWord (hs.continuesWord c hc)
  | negative hs =>
      rcases List.mem_cons.mp hc with rfl | hc
      · decide
      · exact isWordPart_of_continuesWord (hs.continuesWord c hc)

namespace Value

/-- All names in a value are proper ones. -/
inductive IsLegible : Value → Prop
  | integer (n : Int) : IsLegible (.integer n)
  | boolean (b : Bool) : IsLegible (.boolean b)
  | text (s : String) : IsLegible (.text s)
  | absent : IsLegible .absent
  | present {value : Value} (h : IsLegible value) : IsLegible (.present value)
  | list {elements : List Value} (h : ∀ value ∈ elements, IsLegible value) :
      IsLegible (.list elements)
  | tuple {elements : List Value} (h : ∀ value ∈ elements, IsLegible value) :
      IsLegible (.tuple elements)
  | record {fields : List (String × Value)} (hnames : ∀ field ∈ fields, IsName field.1)
      (h : ∀ field ∈ fields, IsLegible field.2) : IsLegible (.record fields)
  | tag {name : String} (hname : IsName name) : IsLegible (.tag name)
  | tagged {name : String} {value : Value} (hname : IsName name) (h : IsLegible value) :
      IsLegible (.tagged name value)
  | taggedRecord {name : String} {fields : List (String × Value)} (hname : IsName name)
      (hnames : ∀ field ∈ fields, IsName field.1) (h : ∀ field ∈ fields, IsLegible field.2) :
      IsLegible (.taggedRecord name fields)

/-! ### Words and contents -/

inductive Content where
  | nothing
  | text (s : String)
  /-- Elements in brackets, one to a line. -/
  | elements (values : List Value)
  /-- Values in parentheses, all on the line that is begun. -/
  | values (values : List Value)
  /-- Fields in parentheses, one to a line. -/
  | fields (fields : List (String × Value))

def Content.layout (level : Nat) : Content → List Char
  | nothing => []
  | text s => Text.escape s.toList
  | elements vs => (list vs).layout level
  | values vs => (tuple vs).layout level
  | fields fs => (record fs).layout level

def word : Value → List Char
  | integer n => numeral n
  | boolean b => (toString b).toList
  | absent => "None".toList
  | present _ => "Some".toList
  | tag name | tagged name _ | taggedRecord name _ => name.toList
  | text _ | list _ | tuple _ | record _ => []

def content : Value → Content
  | integer _ | boolean _ | absent | tag _ => .nothing
  | text s => .text s
  | present value | tagged _ value => .values [value]
  | list elements => .elements elements
  | tuple elements => .values elements
  | record fields | taggedRecord _ fields => .fields fields

theorem layout_eq (level : Nat) (v : Value) :
    v.layout level = v.word ++ v.content.layout level := by
  cases v with
  | integer n => exact (List.append_nil _).symm
  | boolean b => exact (List.append_nil _).symm
  | absent => exact (List.append_nil _).symm
  | tag name => exact (List.append_nil _).symm
  | text s => rfl
  | present value => rfl
  | list elements => rfl
  | tuple elements => rfl
  | record fields => rfl
  | tagged name value => exact List.append_assoc name.toList _ _
  | taggedRecord name fields =>
      show name.toList ++ _ ++ indent level ++ [')'] = name.toList ++ (_ ++ indent level ++ [')'])
      rw [List.append_assoc, List.append_assoc, List.append_assoc]

def ofWord (word : List Char) : Value :=
  if word = "None".toList then absent
  else if word = "true".toList then boolean true
  else if word = "false".toList then boolean false
  else if wordLexer word = some [] then tag (String.ofList word)
  else integer (integerOfDigits word)

def assemble (word : List Char) : Content → Value
  | .nothing => ofWord word
  | .text s => text s
  | .elements vs => list vs
  | .values vs =>
    if word = [] then tuple vs
    else if word = "Some".toList then present (vs.headD absent)
    else tagged (String.ofList word) (vs.headD absent)
  | .fields fs => if word = [] then record fs else taggedRecord (String.ofList word) fs

theorem ofWord_numeral (n : Int) : ofWord (numeral n) = integer n := by
  have hlexer : wordLexer (numeral n) = none :=
    Grammar.wordLexer_eq_none (isNumber_numeral n).spares_beginsWord
  have hne : ∀ {s : List Char}, wordLexer s = some [] → numeral n ≠ s := by
    rintro s hs rfl
    rw [hlexer] at hs
    cases hs
  rw [ofWord, if_neg (hne rfl), if_neg (hne rfl), if_neg (hne rfl), hlexer, if_neg (by simp),
    integerOfDigits_numeral]

theorem ofWord_name {name : String} (h : IsName name) : ofWord name.toList = tag name := by
  have hne : ∀ {keyword}, keyword ∈ keywords → name.toList ≠ keyword.toList := h.toList_ne
  rw [ofWord, if_neg (hne (by decide)), if_neg (hne (by decide)), if_neg (hne (by decide)),
    if_pos h.1, String.ofList_toList]

/-- Nothing of a legible value is lost when it is taken apart. -/
theorem assemble_word_content {v : Value} (h : IsLegible v) : assemble v.word v.content = v := by
  cases h with
  | integer n => exact ofWord_numeral n
  | boolean b => cases b <;> rfl
  | text s => rfl
  | absent => rfl
  | present _ => rfl
  | list _ => rfl
  | tuple _ => rfl
  | record _ _ => rfl
  | tag hname => exact ofWord_name hname
  | @tagged name value hname _ =>
      have hsome := hname.toList_ne (show "Some" ∈ keywords by decide)
      show (if name.toList = [] then _ else if name.toList = "Some".toList then _ else _) = _
      rw [if_neg hname.isWord.ne_nil, if_neg hsome, word, String.ofList_toList]
      rfl
  | @taggedRecord name fields hname _ _ =>
      show (if name.toList = [] then _ else _) = _
      rw [if_neg hname.isWord.ne_nil, word, String.ofList_toList]

/-- A legible value is told from its word and its content. -/
theorem eq_of_word_of_content {v w : Value} (hv : IsLegible v) (hw : IsLegible w)
    (hword : v.word = w.word) (hcontent : v.content = w.content) : v = w := by
  rw [← assemble_word_content hv, hword, hcontent, assemble_word_content hw]

theorem isWordPart_of_mem {v : Value} (h : IsLegible v) : ∀ c ∈ v.word, isWordPart c = true := by
  cases h with
  | integer n => exact isWordPart_of_mem_number (isNumber_numeral n)
  | boolean b => cases b <;> exact List.all_eq_true.mp rfl
  | absent => exact List.all_eq_true.mp rfl
  | present _ => exact List.all_eq_true.mp rfl
  | text _ => simp [word]
  | list _ => simp [word]
  | tuple _ => simp [word]
  | record _ _ => simp [word]
  | tag hname => exact hname.isWordPart
  | tagged hname _ => exact hname.isWordPart
  | taggedRecord hname _ _ => exact hname.isWordPart

def beginsValue (c : Char) : Bool :=
  isWordPart c || c == '"' || c == '[' || c == '('

theorem exists_layout_eq_cons {v : Value} (h : IsLegible v) (level : Nat) :
    ∃ c s, v.layout level = c :: s ∧ beginsValue c = true := by
  have hword : v.word ≠ [] → ∃ c s, v.layout level = c :: s ∧ beginsValue c = true := by
    intro hne
    obtain ⟨c, s, hcons⟩ := List.exists_cons_of_ne_nil hne
    refine ⟨c, s ++ v.content.layout level, by rw [layout_eq, hcons]; rfl, ?_⟩
    simp [beginsValue, isWordPart_of_mem h c (by simp [hcons])]
  cases h with
  | integer n => exact hword (operand_numeral n).ne_nil
  | boolean b => exact hword (by cases b <;> decide)
  | absent => exact hword (by decide)
  | present _ => exact hword (by simp [word])
  | tag hname => exact hword hname.isWord.ne_nil
  | tagged hname _ => exact hword hname.isWord.ne_nil
  | taggedRecord hname _ _ => exact hword hname.isWord.ne_nil
  | text s => exact ⟨'"', _, rfl, by decide⟩
  | @list elements _ => cases elements <;> exact ⟨'[', _, rfl, by decide⟩
  | tuple _ => exact ⟨'(', _, rfl, by decide⟩
  | record _ _ => exact ⟨'(', _, rfl, by decide⟩

end Value

end NpcScript.Ron
