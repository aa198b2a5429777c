import NpcScript.Proofs.Clause.Stray
import NpcScript.Proofs.Script.Clauses

/-!
Lines with stray comparisons. A clause that comes to an issue adds nothing else to its line, so a
line whose keyword is given a comparison that it does not take is the line without that clause.
-/

namespace NpcScript

open Grammar (Clause DialogueForm KeywordClause)

variable {context : Context}

/-- A clause that comes to an issue adds nothing else to its line. -/
theorem Grammar.DialogueForm.exists_issues_of_error {form : DialogueForm} {side : Side}
    {first others : List Clause} {clause : Clause}
    (hside : form.on side = first ++ clause :: others) {issue : Issue}
    (h : Meaning.on side context clause = .error issue) :
    let rest := form.put (first ++ others) side
    form.line context = rest.line context ∧ ∃ earlier later,
      rest.issues context = earlier ++ later ∧
        form.issues context = earlier ++ issue :: later := by
  intro rest
  obtain ⟨earlier, later, hmeanings⟩ := form.exists_meanings_put context side first others
  have hform : form.meanings context = earlier ++ .error issue :: later := by
    have hput := hmeanings [clause]
    rw [List.singleton_append, ← hside, put_on, List.map_singleton, h] at hput
    exact hput
  have hrest : rest.meanings context = earlier ++ later := hmeanings []
  refine ⟨?_, earlier.filterMap Meaning.issue?, later.filterMap Meaning.issue?, ?_, ?_⟩
  · rw [line_eq_filterMap, line_eq_filterMap, hform, hrest]
    have hcondition : Meaning.conditionOf? (.error issue) = none := rfl
    have hconsequence : Meaning.consequenceOf? (.error issue) = none := rfl
    simp [rest, hcondition, hconsequence]
  · rw [issues, hrest, List.filterMap_append]
  · rw [issues, hform, List.filterMap_append]
    rfl

/-- A line gets nothing from a clause with a comparison that its keyword does not take: it is the
line without the clause, and one more issue is reported, which is no warning. Only where the
comparison stands in place of a task of `arena`, with the task for its subject, the clause is kept
as if there were no comparison. -/
theorem Scanner.feed_of_holdsComparison (context : Context) {line : SourceLine}
    {form : DialogueForm} (hform : DialogueForm.ofLine line.text.toList = .ok form) {side : Side}
    {first others : List Clause} {clause : KeywordClause}
    (hside : form.on side = first ++ .keyword clause :: others) {role : Role}
    (hrole : clause.role? side = some role) (htakes : role.takesNoComparison = true)
    (hholds : clause.HoldsComparison) :
    let rest := form.put (first ++ others) side
    ((∀ task, role = .consequence .arena → ¬ clause.ComparesTask task) →
      ∃ earlier issue later, Meaning.on side context (.keyword clause) = .error issue ∧
        issue.cause.isWarning = false ∧ rest.issues context = earlier ++ later ∧
        ∀ document state,
          feed context ⟨document, state⟩ line =
            ⟨(document.reportAll context line.number (earlier ++ issue :: later)).add line.number
              (.dialogue (rest.line context)), .scanning⟩) ∧
    (∀ task, role = .consequence .arena → clause.ComparesTask task →
      Meaning.on side context (.keyword clause) = .ok (.consequence (.arena task))) := by
  intro rest
  have hread := Meaning.on_eq_read hrole context
  refine ⟨?_, ?_⟩
  · intro htask
    obtain ⟨issue, hissue⟩ : ∃ issue, role.read context clause = .error issue :=
      Role.read_eq_error htakes hholds htask
    rw [hissue] at hread
    obtain ⟨hline, earlier, later, hrest, hissues⟩ :=
      DialogueForm.exists_issues_of_error hside hread
    have hmem : issue ∈ form.issues context := by simp [hissues]
    have hfault := DialogueForm.isFault_of_mem_issues context
      (DialogueForm.isFormed_of_ofLine hform) hmem
    refine ⟨earlier, issue, later, hread, hfault.isWarning_eq_false, hrest, ?_⟩
    intro document state
    rw [feed_of_ofLine hform, hline, hissues]
  · rintro task rfl htask
    rw [hread, Role.read, Consequence.arena_of_comparesTask htask]
    rfl

/-- A chance with a comparison in place of its number is left out, and the clauses around it are
kept. -/
theorem Scanner.feed_of_holdsComparison_chance :
    let context : Context := { items := {}, skills := {} }
    let line : SourceLine := ⟨3, "\"hello\", isadmin, chance(x > 5) -> \"Hi\""⟩
    ∃ issue, issue.cause.isWarning = false ∧ ∀ document state,
      feed context ⟨document, state⟩ line =
        ⟨(document.reportAll context 3 [issue]).add 3
          (.dialogue ⟨"hello", [.isAdmin], [.answer "Hi"]⟩), .scanning⟩ := by
  intro context line
  let isAdmin : Clause := .keyword ⟨⟨10, "isadmin".toList⟩, none, none⟩
  let chance : KeywordClause :=
    ⟨⟨19, "chance".toList⟩,
      some [.comparison ⟨26, "x".toList⟩ ⟨⟨28, ">".toList⟩, ⟨30, "5".toList⟩⟩], none⟩
  let form : DialogueForm :=
    ⟨⟨1, "\"hello\"".toList⟩, [isAdmin, .keyword chance], [.answer ⟨36, "\"Hi\"".toList⟩]⟩
  have hform : DialogueForm.ofLine line.text.toList = .ok form := by decide +kernel
  have hrole : chance.role? .before = some (.condition .chance) := by decide +kernel
  have hholds : chance.HoldsComparison := .inr ⟨_, List.mem_singleton_self _, rfl⟩
  have hside : form.on .before = [isAdmin] ++ .keyword chance :: [] := rfl
  have hfeed := feed_of_holdsComparison context hform hside hrole rfl hholds
  obtain ⟨earlier, issue, later, -, hwarning, hrest, hfeed⟩ :=
    hfeed.1 fun task harena => by cases harena
  have hissues : (form.put ([isAdmin] ++ []) .before).issues context = [] := by decide +kernel
  have hline : (form.put ([isAdmin] ++ []) .before).line context =
      ⟨"hello", [.isAdmin], [.answer "Hi"]⟩ := by
    decide +kernel
  rw [hissues] at hrest
  obtain ⟨rfl, rfl⟩ := List.append_eq_nil_iff.mp hrest.symm
  rw [hline] at hfeed
  exact ⟨issue, hwarning, hfeed⟩

/-- The exception is not an empty one: this comparison is dropped without a word. -/
theorem Scanner.feed_of_comparesTask_getStats :
    let context : Context := { items := {}, skills := {} }
    let line : SourceLine := ⟨1, "\"hi\" -> arena(getStats > 5)"⟩
    let arena : KeywordClause :=
      ⟨⟨9, "arena".toList⟩,
        some [.comparison ⟨15, "getStats".toList⟩ ⟨⟨24, ">".toList⟩, ⟨26, "5".toList⟩⟩], none⟩
    DialogueForm.ofLine line.text.toList = .ok ⟨⟨1, "\"hi\"".toList⟩, [], [.keyword arena]⟩ ∧
      arena.HoldsComparison ∧ arena.role? .after = some (.consequence .arena) ∧
      (Role.consequence .arena).takesNoComparison = true ∧
      (feed context {} line).document.statements = [.dialogue ⟨"hi", [], [.arena .getStats]⟩] ∧
      (feed context {} line).document.diagnostics = #[] := by
  intro context line arena
  refine ⟨?_, .inr ⟨_, List.mem_singleton_self _, rfl⟩, ?_, rfl, ?_, ?_⟩
  · decide +kernel
  · decide +kernel
  · decide +kernel
  · decide +kernel

end NpcScript
