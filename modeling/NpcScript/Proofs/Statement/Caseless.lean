import NpcScript.Proofs.Grammar.Caseless
import NpcScript.Statement.Kind

/-!
The kind of a line in another letter case. Lines are sorted by marks, which have no case, and by
words, which are compared without regard to it.
-/

namespace NpcScript

open Text

theorem holdsArrow_lower (s : List Char) : holdsArrow (lower s) = holdsArrow s := by
  have hother {c : Char} {s : List Char} (h : ¬ ['-', '>'] <+: c :: s) :
      holdsArrow (c :: s) = holdsArrow s := by
    rw [holdsArrow.eq_def]
    split
    · rename_i heq
      cases heq
    · rename_i rest heq
      exact absurd ⟨rest, heq.symm⟩ h
    · rename_i heq
      cases heq
      rfl
  induction s with
  | nil => rfl
  | cons c s ih =>
      by_cases harrow : ['-', '>'] <+: c :: s
      · obtain ⟨rest, hrest⟩ := harrow
        rw [← hrest]
        rfl
      · have hlower : ¬ ['-', '>'] <+: c.toLower :: lower s :=
          mt (Grammar.prefix_lower_iff (by decide) (c :: s)).mp harrow
        rw [hother harrow, lower_cons, hother hlower, ih]

theorem leadingWord_lower (line : List Char) :
    leadingWord (lower line) = lower (leadingWord line) := by
  have hstart : trimStart (lower line) = lower (trimStart line) :=
    IsRecasing.toLower.trimStart_map line
  rw [leadingWord, hstart]
  exact IsRecasing.toLower.takeWhile_map Grammar.continuesWord_toLower _

theorem EquipmentSlot.ofKey?_lower (key : List Char) : ofKey? (lower key) = ofKey? key := by
  have htake : (lower key).take 4 = lower (key.take 4) := List.map_take.symm
  have hdrop : (lower key).drop 4 = lower (key.drop 4) := List.map_drop.symm
  rw [ofKey?, htake, hdrop, sameLetters_lower, Vocabulary.ofToken?_lower, ofKey?]

theorem AssignmentKey.ofWord?_lower (word : List Char) : ofWord? (lower word) = ofWord? word := by
  simp only [ofWord?, Vocabulary.ofWord?_lower, EquipmentSlot.ofKey?_lower, sameLetters_lower]

namespace StatementKind

/-- What begins with neither two minus signs nor a quote may be an assignment. -/
theorem ofLine?_of_begins {line : List Char} (hne : Text.trim line ≠ [])
    (hcomment : ¬ ['-', '-'] <+: Text.trim line) (hquote : (Text.trim line).head? ≠ some '"') :
    ofLine? line = assignment <$> AssignmentKey.ofWord? (leadingWord (Text.trim line)) := by
  unfold ofLine?
  split
  · rename_i htext
    exact absurd htext hne
  · rename_i rest htext
    exact absurd ⟨rest, htext.symm⟩ hcomment
  · rename_i rest htext
    exact absurd (by rw [htext]; rfl) hquote
  · rfl

theorem ofLine?_lower (line : List Char) : ofLine? (lower line) = ofLine? line := by
  by_cases hne : Text.trim line = []
  · simp only [ofLine?, trim_lower, hne, lower_nil]
  by_cases hcomment : ['-', '-'] <+: Text.trim line
  · obtain ⟨rest, hrest⟩ := hcomment
    simp only [ofLine?, trim_lower, ← hrest]
    rfl
  by_cases hquote : (Text.trim line).head? = some '"'
  · obtain ⟨rest, hrest⟩ := List.head?_eq_some_iff.mp hquote
    have hlower : lower ('"' :: rest) = '"' :: lower rest := rfl
    simp only [ofLine?, trim_lower, hrest, hlower, holdsArrow_lower]
  · have hlower : Text.trim (lower line) = lower (Text.trim line) := trim_lower line
    rw [ofLine?_of_begins hne hcomment hquote, ofLine?_of_begins, hlower, leadingWord_lower,
      AssignmentKey.ofWord?_lower]
    · rw [hlower]
      exact mt List.map_eq_nil_iff.mp hne
    · rw [hlower]
      exact mt (Grammar.prefix_lower_iff (by decide) _).mp hcomment
    · rw [hlower]
      exact mt (Grammar.head?_lower_eq_some_iff rfl _).mp hquote

/-- The kind of a line does not depend on letter case. -/
theorem ofLine?_eq {line line' : List Char} (h : lower line = lower line') :
    ofLine? line = ofLine? line' := by
  rw [← ofLine?_lower, h, ofLine?_lower]

end StatementKind

end NpcScript
