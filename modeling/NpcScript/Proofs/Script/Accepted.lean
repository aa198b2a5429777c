import NpcScript.Proofs.Script.Clauses
import NpcScript.Proofs.Script.Outcome
import NpcScript.Proofs.Statement.Caseless

/-!
Sorting lines and reading them. A line is sorted by a scan of its own, before anything of it is
read; then the grammar of its kind reads it from the beginning. The two agree: a line that a grammar
accepts is sorted as a statement of this grammar, under the key that the grammar reads. So what is
well formed is read as what it is, and never passed over as a line of no kind.
-/

namespace NpcScript

open Text
open Grammar (Assignment DialogueForm Value)

/-! ### The words of keys -/

namespace AssignmentKey

theorem exists_spelling_of_ofKey? {word : List Char} {slot : EquipmentSlot}
    (hword : ∀ c ∈ word, Grammar.continuesWord c = true)
    (h : EquipmentSlot.ofKey? word = some slot) :
    ∃ spelling ∈ (equipment slot).spellings, sameLetters word spelling.toList = true := by
  unfold EquipmentSlot.ofKey? at h
  split at h
  · rename_i hitem
    -- There are no blanks in a word, so trimming what stands behind `item` changes nothing.
    have htrimmed : IsTrimmed (word.drop 4) :=
      Grammar.isTrimmed_of_continuesWord fun c hc => hword c (List.mem_of_mem_drop hc)
    rw [Vocabulary.ofToken?, trim_eq_self htrimmed] at h
    obtain ⟨spelling, hmem, hspelling⟩ := Vocabulary.exists_spelling_of_ofWord? h
    refine ⟨"item" ++ spelling, List.mem_map_of_mem hmem, ?_⟩
    rw [sameLetters_iff] at hitem hspelling ⊢
    calc lower word
        = lower (word.take 4) ++ lower (word.drop 4) := by
          rw [lower, lower, lower, ← List.map_append, List.take_append_drop]
      _ = lower ("item" ++ spelling).toList := by
          rw [hitem, hspelling, String.toList_append, lower, lower, lower, List.map_append]
  · cases h

/-- The key that a word stands for is the one that has it among its spellings. -/
theorem ofWord?_eq_some_iff {word : List Char} (hword : ∀ c ∈ word, Grammar.continuesWord c = true)
    {key : AssignmentKey} : ofWord? word = some key ↔ key.isWrittenAs word = true := by
  rw [isWrittenAs, List.any_eq_true]
  constructor
  · intro h
    simp only [ofWord?, Option.orElse_eq_orElse, Option.orElse_eq_or, Option.or_eq_some_iff,
      Option.map_eq_map, Option.map_eq_some_iff, Option.ite_none_right_eq_some] at h
    rcases h with ⟨key, h, rfl⟩ | ⟨-, ⟨key, h, rfl⟩ | ⟨-, ⟨slot, h, rfl⟩ | ⟨-, ⟨key, h, rfl⟩ |
      ⟨-, ⟨key, h, rfl⟩ | ⟨-, h⟩⟩⟩⟩⟩
    · exact Vocabulary.exists_spelling_of_ofWord? h
    · exact Vocabulary.exists_spelling_of_ofWord? h
    · exact exists_spelling_of_ofKey? hword h
    · exact Vocabulary.exists_spelling_of_ofWord? h
    · exact Vocabulary.exists_spelling_of_ofWord? h
    · obtain ⟨hsame, hkey⟩ := h
      cases hkey
      exact ⟨_, List.mem_singleton.mpr rfl, hsame⟩
  · rintro ⟨spelling, hmem, hsame⟩
    rw [← ofWord?_lower, sameLetters_iff.mp hsame, ofWord?_lower]
    exact (key.isLegible_of_mem_spellings spelling hmem).2

end AssignmentKey

/-! ### Accepted lines -/

/-- The grammar of the kind accepts the line. Empty lines and comments have no grammar. -/
def StatementKind.Accepts (line : List Char) : StatementKind → Prop
  | .empty | .comment => False
  | .assignment _ => ∃ assignment, Assignment.ofLine line = .ok assignment
  | .dialogue => ∃ form, DialogueForm.ofLine line = .ok form

/-- The grammar of the kind finds the line to be wrong at this column. -/
def StatementKind.Rejects (line : List Char) (column : Nat) : StatementKind → Prop
  | .empty | .comment => False
  | .assignment _ => Assignment.ofLine line = .error column
  | .dialogue => DialogueForm.ofLine line = .error column

/-- The key of an assignment is the word that the line is sorted by. -/
theorem Grammar.Assignment.IsWritten.leadingWord_eq {line : List Char} {assignment : Assignment}
    (h : assignment.IsWritten line) : leadingWord line = assignment.key := by
  have hkey := h.isWord_key
  obtain ⟨start, rest, rfl, hstart, hrest⟩ := h.exists_rest
  obtain ⟨htrim, -⟩ := exists_trim_append (fun c hc => isBlank_of_isGap (hstart c hc))
    (Grammar.isTrimmed_of_continuesWord hkey.continuesWord) hkey.ne_nil rest
  rw [leadingWord, htrim]
  exact Grammar.takeWhile_append_of_spares hkey.continuesWord hrest

theorem StatementKind.ofLine?_eq_some_iff_of_assignment {line : List Char} {assignment : Assignment}
    (h : assignment.IsWritten line) {kind : StatementKind} :
    ofLine? line = some kind ↔
      ∃ key : AssignmentKey, kind = .assignment key ∧ key.isWrittenAs assignment.key = true := by
  rw [ofLine?_of_assignment h, Option.map_eq_map, Option.map_eq_some_iff]
  refine exists_congr fun key => ?_
  rw [AssignmentKey.ofWord?_eq_some_iff h.isWord_key.continuesWord, and_comm, eq_comm]

namespace LineReading

def ofAssignment (context : Context) (line : List Char) (key : AssignmentKey)
    (assignment : Assignment) : LineReading :=
  match key.statement context line assignment with
  | .error issues => ⟨none, issues⟩
  | .ok statement => ⟨some statement, key.warnings assignment⟩

def ofForm (context : Context) (form : DialogueForm) : LineReading :=
  ⟨some (.dialogue (form.line context)), form.issues context⟩

variable (context : Context) {line : List Char}

theorem ofLine_of_assignment {key : AssignmentKey} {assignment : Assignment}
    (hkind : StatementKind.ofLine? line = some (.assignment key))
    (hline : Assignment.ofLine line = .ok assignment) :
    ofLine context line = ofAssignment context line key assignment := by
  simp only [ofLine, hkind, hline]
  rfl

theorem ofLine_of_form {form : DialogueForm} (hline : DialogueForm.ofLine line = .ok form) :
    ofLine context line = ofForm context form := by
  simp only [ofLine, DialogueForm.ofLine?_of_ofLine hline, hline, ofForm]

end LineReading

/-- The line is sorted under a key, and the grammar of assignments reads these values of it. -/
structure SourceLine.Assigns (line : SourceLine) (key : AssignmentKey) (values : List Value) :
    Prop where
  kind : StatementKind.ofLine? line.text.toList = some (.assignment key)
  accepted : ∃ word, Assignment.ofLine line.text.toList = .ok ⟨word, values⟩

/-- The sorting of lines agrees with the grammars. A line that is accepted as a dialogue line is
sorted as one. Where a line is accepted as an assignment, the key is the leading word; the line is
sorted under the key that has this word among its spellings, or as no statement if there is no such
key, and never as anything else than an assignment. No line is accepted as both. Hence a well-formed
statement is always read as what it is, and it is not reported as a line that cannot be parsed. -/
theorem Scanner.feed_of_accepted (line : SourceLine) :
    let text := line.text.toList
    (∀ form, DialogueForm.ofLine text = .ok form →
      StatementKind.ofLine? text = some .dialogue ∧
      ∀ context, (LineReading.ofForm context form).SparesLine ∧ ∀ document,
        feed context ⟨document, .scanning⟩ line =
          ⟨document.addReading context line.number (.ofForm context form), .scanning⟩) ∧
    (∀ assignment, Assignment.ofLine text = .ok assignment →
      assignment.key = leadingWord text ∧
      (∀ kind, StatementKind.ofLine? text = some kind ↔
        ∃ key : AssignmentKey, kind = .assignment key ∧ key.isWrittenAs assignment.key = true) ∧
      ∀ key : AssignmentKey, key.isWrittenAs assignment.key = true → ∀ context,
        (LineReading.ofAssignment context text key assignment).SparesLine ∧ ∀ document,
          feed context ⟨document, .scanning⟩ line =
            ⟨document.addReading context line.number (.ofAssignment context text key assignment),
              .scanning⟩) ∧
    ∀ form assignment,
      ¬ (DialogueForm.ofLine text = .ok form ∧ Assignment.ofLine text = .ok assignment) := by
  intro text
  refine ⟨fun form hform => ?_, fun assignment hassignment => ?_, fun form assignment hboth => ?_⟩
  · have hkind := DialogueForm.ofLine?_of_ofLine hform
    refine ⟨hkind, fun context => ?_⟩
    have hreading := LineReading.ofLine_of_form context hform
    have hparts := (LineReading.ofLine_isOutcome context hkind).2
    rw [← hreading]
    exact ⟨hparts.sparesLine, fun document => feed_scanning context document line⟩
  · have hwritten := Assignment.isWritten_of_ofLine hassignment
    have hsorted (kind : StatementKind) : StatementKind.ofLine? text = some kind ↔
        ∃ key : AssignmentKey, kind = .assignment key ∧ key.isWrittenAs assignment.key = true :=
      StatementKind.ofLine?_eq_some_iff_of_assignment hwritten
    refine ⟨hwritten.leadingWord_eq.symm, hsorted, fun key hkey context => ?_⟩
    have hkind := (hsorted _).mpr ⟨key, rfl, hkey⟩
    have hreading := LineReading.ofLine_of_assignment context hkind hassignment
    have hparts := (LineReading.ofLine_isOutcome context hkind).2
    rw [← hreading]
    exact ⟨hparts.sparesLine, fun document => feed_scanning context document line⟩
  · have hdialogue := DialogueForm.ofLine?_of_ofLine hboth.1
    obtain ⟨key, hkey, -⟩ := (StatementKind.ofLine?_eq_some_iff_of_assignment
      (Assignment.isWritten_of_ofLine hboth.2)).mp hdialogue
    cases hkey

/-- An arrow inside a literal of an assignment, and an assignment inside the trigger of a dialogue
line. Both lines are sorted by what the grammars make of them. -/
theorem Scanner.feed_of_accepted_itemShoes :
    let line : SourceLine := ⟨1, "\tITEMshoes \"->\" -- name = \"a\""⟩
    let line' : SourceLine := ⟨2, "\"name = 1\" -> introduce"⟩
    (∃ assignment, Assignment.ofLine line.text.toList = .ok assignment ∧
      assignment.key = leadingWord line.text.toList ∧
      StatementKind.ofLine? line.text.toList = some (.assignment (.equipment .feet))) ∧
    ∃ form, DialogueForm.ofLine line'.text.toList = .ok form ∧
      StatementKind.ofLine? line'.text.toList = some .dialogue := by
  intro line line'
  refine ⟨?_, ?_⟩
  · have hread : (Assignment.ofLine line.text.toList).toOption.map (·.key) =
        some "ITEMshoes".toList := by decide +kernel
    cases hline : Assignment.ofLine line.text.toList with
    | error column =>
        rw [hline] at hread
        cases hread
    | ok assignment =>
        rw [hline] at hread
        have hkey : assignment.key = "ITEMshoes".toList := Option.some.inj hread
        obtain ⟨hleading, hsorted, -⟩ := (feed_of_accepted line).2.1 assignment hline
        refine ⟨assignment, rfl, hleading, (hsorted _).mpr ⟨.equipment .feet, rfl, ?_⟩⟩
        rw [hkey]
        decide +kernel
  · let form : DialogueForm :=
      ⟨⟨1, "\"name = 1\"".toList⟩, [], [.keyword ⟨⟨15, "introduce".toList⟩, none, none⟩]⟩
    have hform : DialogueForm.ofLine line'.text.toList = .ok form := by decide +kernel
    exact ⟨form, hform, ((feed_of_accepted line').1 form hform).1⟩

end NpcScript
