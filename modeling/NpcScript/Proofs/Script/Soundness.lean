import NpcScript.Proofs.Script.Locality

/-!
Soundness of documents. The statement that a line makes is valid, and nothing else gets into a
document, so everything that stands in the document of a script is valid in its context.
-/

namespace NpcScript

open Grammar (Assignment DialogueForm)

theorem mem_of_mem_put {entries : List Entry} {entry other : Entry}
    (h : other ∈ put entries entry) : other ∈ entries ∨ other = entry := by
  by_cases htaken : IsTaken entries entry
  · rw [put_of_isTaken htaken] at h
    obtain ⟨old, hold, rfl⟩ := List.mem_map.mp h
    unfold Entry.replacedBy
    split
    · exact .inr rfl
    · exact .inl hold
  · rw [put_of_not_isTaken htaken] at h
    simpa using h

theorem mem_of_mem_merge {added : List Entry} {entry : Entry} (h : entry ∈ merge [] added) :
    entry ∈ added := by
  induction added using List.reverseRecOn with
  | nil => cases h
  | append_singleton added last ih =>
      rw [merge_concat] at h
      rcases mem_of_mem_put h with hmem | rfl
      · exact List.mem_append_left _ (ih hmem)
      · simp

theorem isTrimmed_commentText (text : List Char) : Text.IsTrimmed (commentText text) := by
  fun_induction commentText text with
  | case1 rest ih => exact ih
  | case2 text hnot => exact Text.isTrimmed_trim text

/-- The statement that a line makes is valid. -/
theorem LineReading.isValid_of_statement_ofLine {context : Context} {text : List Char}
    {statement : Statement} (h : (ofLine context text).statement = some statement) :
    statement.IsValid context := by
  unfold ofLine at h
  split at h
  · cases h
  · cases h
    exact True.intro
  · cases h
    simpa [Statement.IsValid] using isTrimmed_commentText (Text.trim text)
  · rename_i key hkind
    split at h
    · cases h
    · rename_i assignment hline
      have hends := key.statement_ends context text (Assignment.values_ne_nil hline)
      split at h
      · cases h
      · rename_i made hmade
        cases h
        exact hends.value hmade
  · split at h
    · cases h
    · rename_i form hline
      cases h
      exact form.isValid_line context (DialogueForm.isFormed_of_ofLine hline)

/-- Everything that the document of a script holds is valid. -/
theorem Document.isValid_of_mem_ofLines (context : Context) (lines : List SourceLine) :
    ∀ entry ∈ (ofLines context lines).entries, entry.statement.IsValid context := by
  intro entry hentry
  have hmem := mem_of_mem_merge (toList_entries_ofLines context lines ▸ hentry.val)
  obtain ⟨line, -, hline⟩ := List.mem_filterMap.mp hmem
  obtain ⟨statement, hstatement, rfl⟩ := Option.map_eq_some_iff.mp hline
  exact LineReading.isValid_of_statement_ofLine hstatement

/-- A dialogue line with an item, an amount to be worked out and an answer. -/
theorem Document.isValid_dialogue :
    let context : Context := { items := .ofList [⟨42, "helmet"⟩], skills := {} }
    let line : DialogueLine :=
      ⟨"hello", [.item ⟨42, "helmet"⟩ .all .greater (.literal 2)],
        [.item ⟨42, "helmet"⟩ (.expression "1 + 2") none, .answer "Hi"]⟩
    let text := "\"hello\", item(42) > 2 -> item(42, expr( 1 + 2)), \"Hi\""
    ⟨1, .dialogue line⟩ ∈ (ofLines context [⟨1, text⟩]).entries ∧
      (Statement.dialogue line).IsValid context := by
  intro context line text
  have hmem : ⟨1, .dialogue line⟩ ∈ (ofLines context [⟨1, text⟩]).entries := by decide +kernel
  exact ⟨hmem, isValid_of_mem_ofLines context [⟨1, text⟩] _ hmem⟩

end NpcScript
