import NpcScript.Proofs.Clause.Number
import NpcScript.Proofs.Script.Accepted
import NpcScript.Proofs.Statement.Number

/-!
Numbers in a script. If all else in a line is in order, the number that is written in it decides
what becomes of it: either this number is kept, or it is reported what is wrong with it.
-/

namespace NpcScript

open Grammar (Assignment Clause DialogueForm IsNumber KeywordClause Lexeme Value)

/-- The document with a statement, or with the issue that there is instead of one. -/
def Document.addResult (document : Document) (context : Context) (number : Nat) :
    Except Issue Statement → Document
  | .ok statement => document.add number statement
  | .error issue => document.reportAll context number [issue]

def LineReading.ofResult : Except Issue Statement → LineReading
  | .ok statement => ⟨some statement, []⟩
  | .error issue => ⟨none, [issue]⟩

theorem Document.addResult_eq_addReading (document : Document) (context : Context) (number : Nat)
    (result : Except Issue Statement) :
    document.addResult context number result =
      document.addReading context number (.ofResult result) := by
  cases result with
  | error issue => rfl
  | ok statement => simp [addResult, addReading, LineReading.ofResult, reportAll]

theorem Scanner.feed_of_statement_eq {context : Context} {line : SourceLine}
    {assignment : Assignment} (hline : assignment.IsWritten line.text.toList) {key : AssignmentKey}
    (hkey : key.isWrittenAs assignment.key = true) (hlocalized : key.isLocalized = false)
    {result : Except Issue Statement}
    (hstatement : key.statement context line.text.toList assignment = Checked.ofPart result)
    (document : Document) :
    feed context ⟨document, .scanning⟩ line =
      ⟨document.addResult context line.number result, .scanning⟩ := by
  have hkind := (StatementKind.ofLine?_eq_some_iff_of_assignment hline).mpr ⟨key, rfl, hkey⟩
  rw [feed_scanning, LineReading.ofLine_of_assignment context hkind hline.ofLine,
    LineReading.ofAssignment, hstatement, document.addResult_eq_addReading]
  cases result with
  | error issue => rfl
  | ok statement => simp [Checked.ofPart, AssignmentKey.warnings, hlocalized, LineReading.ofResult]

/-- Among the results of a line's clauses there is the one that is settled by the number. -/
theorem Grammar.DialogueForm.exists_meanings_number {context : Context} {form : DialogueForm}
    {side : Side} {before after : List Clause} {clause : KeywordClause} {role : Role}
    {source : Lexeme} {place : NumericPlace} {use : Int → Except Cause Meaning}
    (hon : form.on side = before ++ Clause.keyword clause :: after)
    (hrole : clause.role? side = some role) (h : role.HoldsNumber context clause source place use)
    (hnumber : IsNumber source.text) :
    ∃ result, place.Decides source use result ∧ ∃ earlier later,
      form.meanings context = earlier ++ result :: later := by
  obtain ⟨earlier, later, hput⟩ := form.exists_meanings_put context side before after
  refine ⟨_, NumericPlace.decides_settle hnumber use, earlier, later, ?_⟩
  have hclause := hput [.keyword clause]
  rwa [List.singleton_append, ← hon, DialogueForm.put_on, List.map_singleton,
    Meaning.on_eq_read hrole, h.read_eq, List.singleton_append] at hclause

/-- Every number is kept as it is written or refused. Wherever a number may be written, if all else
in the line is in order, the number is taken exactly if it has no more digits than its place allows
and its value lies between the bounds of the place; then the statement or clause is made with this
value. A number of too many digits is malformed, however many there are, and a number of few enough
digits is out of range, with its text as it is written. A statement is entered or the issue is
reported instead; in a dialogue line this is a matter of the one clause, and the others come to what
they come to. -/
theorem Scanner.feed_number (context : Context) (document : Document) (line : SourceLine) :
    (∀ word values key source place use,
      Assignment.IsWritten line.text.toList ⟨word, values⟩ →
      AssignmentKey.isWrittenAs key word = true →
      HoldsNumber context line.text.toList key values source place use →
      ∃ result, place.Decides source use result ∧
        feed context ⟨document, .scanning⟩ line =
          ⟨document.addResult context line.number result, .scanning⟩) ∧
    ∀ form side before clause after role source place use,
      DialogueForm.IsSpelt line.text.toList form →
      form.on side = before ++ Clause.keyword clause :: after →
      clause.role? side = some role → role.HoldsNumber context clause source place use →
      IsNumber source.text →
      ∃ result, place.Decides source use result ∧ ∃ earlier later,
        let results := earlier ++ result :: later
        form.meanings context = results ∧ ∀ state,
          feed context ⟨document, state⟩ line =
            ⟨(document.reportAll context line.number (results.filterMap Meaning.issue?)).add
              line.number (.dialogue ⟨String.ofList (Text.unquote form.trigger.text),
                results.filterMap Meaning.conditionOf?,
                results.filterMap Meaning.consequenceOf?⟩), .scanning⟩ := by
  refine ⟨?_, ?_⟩
  · intro word values key source place use hline hkey h
    have hplaced := hline.isPlaced
    exact ⟨_, NumericPlace.decides_settle (h.isNumber hplaced) use,
      feed_of_statement_eq hline hkey h.isLocalized (h.statement_eq hplaced word) document⟩
  · intro form side before clause after role source place use hform hon hrole h hnumber
    obtain ⟨result, hresult, earlier, later, hmeanings⟩ :=
      form.exists_meanings_number hon hrole h hnumber
    refine ⟨result, hresult, earlier, later, hmeanings, fun state => ?_⟩
    rw [feed_of_ofLine (DialogueForm.ofLine_iff_isSpelt.mpr hform), DialogueForm.line_eq_filterMap,
      DialogueForm.issues, hmeanings]

/-- A number with too many zeros in front, and a coordinate that is one too small beside one that
has as many zeros in front as it may. -/
theorem Scanner.feed_number_warp :
    let context : Context := { items := .ofList [], skills := {} }
    let line : SourceLine := ⟨1, "hairID = 00000000000000000255"⟩
    let line' : SourceLine := ⟨2, "\"hi\" -> warp(-32769, 00007, 0)"⟩
    feed context {} line =
      ⟨({} : Document).reportAll context 1 [.atColumn 10 (.malformedNumber
        "hair id" "00000000000000000255")], .scanning⟩ ∧
    feed context {} line' =
      ⟨(({} : Document).reportAll context 2 [.atColumn 14 (.valueOutOfRange
        "x coordinate" "-32769" (-32768) 32767)]).add 2 (.dialogue ⟨"hi", [], []⟩), .scanning⟩ := by
  intro context line line'
  refine ⟨?_, ?_⟩
  · let source : Lexeme := ⟨10, "00000000000000000255".toList⟩
    have hread : ((Assignment.ofLine line.text.toList).toOption.any fun assignment =>
        decide (assignment.key = "hairID".toList ∧ assignment.values.map Value.source = [source])) =
          true := by decide +kernel
    obtain ⟨⟨word, values⟩, hline, hread⟩ := (Option.any_eq_true _ _).mp hread
    obtain ⟨rfl, hsource⟩ := of_decide_eq_true hread
    obtain ⟨value, rfl, hvalue⟩ := List.map_eq_singleton_iff.mp hsource
    have hline := Assignment.isWritten_of_ofLine (Checked.toOption_eq_some_iff.mp hline)
    have hnumber : IsNumber value.text := by
      rw [Value.text, hvalue, Quantity.isNumber_iff_dropMinus, ← List.all_eq_true]
      decide +kernel
    rw [(hline.isPlaced value (List.mem_singleton.mpr rfl)).eq_number hnumber, hvalue] at hline
    obtain ⟨result, hresult, hfeed⟩ := (feed_number context {} line).1 _ _ _ _ _ _ hline
      (by decide +kernel) (.row .hairId ![source] 0 (by decide +kernel))
    rw [hresult.tooLong (by decide +kernel)] at hfeed
    exact hfeed
  · let sources : Fin 3 → Lexeme :=
      ![⟨14, "-32769".toList⟩, ⟨22, "00007".toList⟩, ⟨29, "0".toList⟩]
    let clause : KeywordClause :=
      ⟨⟨9, "warp".toList⟩, some (List.ofFn fun j => .operand (sources j)), none⟩
    let form : DialogueForm := ⟨⟨1, "\"hi\"".toList⟩, [], [.keyword clause]⟩
    have hform : DialogueForm.ofLine line'.text.toList = .ok form := by decide +kernel
    have hnumber : ∀ j, IsNumber (sources j).text := by
      simp only [Quantity.isNumber_iff_dropMinus, ← List.all_eq_true]
      decide +kernel
    have hothers : ∀ j, j ≠ 0 → IsNumber (sources j).text ∧
        (![.coordinateX, .coordinateY, .coordinateZ] j : NumericPlace).Takes (sources j).text :=
      fun j hj => ⟨hnumber j, by revert j; decide +kernel⟩
    obtain ⟨result, hresult, earlier, later, hmeanings, hfeed⟩ := (feed_number context {} line').2
      form .after [] clause [] _ _ _ _ (DialogueForm.ofLine_iff_isSpelt.mp hform) rfl
      (by decide +kernel) (.row .warp rfl rfl 0 hothers) (hnumber 0)
    -- There is only this clause.
    obtain ⟨rfl, rfl⟩ : earlier = [] ∧ later = [] := by
      have hlength : 1 = (earlier ++ result :: later).length := congrArg List.length hmeanings
      rw [List.length_append, List.length_cons] at hlength
      exact ⟨List.length_eq_zero_iff.mp (by omega), List.length_eq_zero_iff.mp (by omega)⟩
    rw [hresult.outOfRange (by decide +kernel) (by decide +kernel)] at hfeed
    exact hfeed .scanning

/-- What a document holds behind a statement with a number. If the number is taken, the statement
with its value is one of the entries; if not, the entries are what they were, and the document says
why. -/
theorem Scanner.gains_statement_number {context : Context} {document : Document}
    (h : document.IsIndexed) {line : SourceLine} {word : List Char} {values : List Value}
    (hline : Assignment.IsWritten line.text.toList ⟨word, values⟩) {key : AssignmentKey}
    (hkey : key.isWrittenAs word = true) {source : Lexeme} {place : NumericPlace}
    {use : Int → Except Cause Statement}
    (hnumber : HoldsNumber context line.text.toList key values source place use) :
    let next := (feed context ⟨document, .scanning⟩ line).document
    (∀ statement, place.Takes source.text →
      use (integerOfDigits source.text) = .ok statement →
      ⟨line.number, statement⟩ ∈ next.entries ∧ next.diagnostics = document.diagnostics) ∧
    (¬ place.Takes source.text → next.entries = document.entries ∧
      ∃ cause, next.diagnostics.toList = document.diagnostics.toList ++
        [Issue.diagnostic context line.number (.atColumn source.column cause)]) := by
  intro next
  have hplaced := hline.isPlaced
  have hdecides : place.Decides source use (place.settle source use) :=
    NumericPlace.decides_settle (hnumber.isNumber hplaced) use
  have hgains : document.Gains context line.number (.ofResult (place.settle source use)) next := by
    have hfeed := feed_of_statement_eq hline hkey hnumber.isLocalized
      (hnumber.statement_eq hplaced word) document
    rw [document.addResult_eq_addReading] at hfeed
    rw [show next = _ from congrArg Scanner.document hfeed]
    exact h.gains_addReading context line.number _
  refine ⟨fun statement htakes huse => ?_, fun htakes => ?_⟩
  · have hresult : place.settle source use = .ok statement := by
      rw [hdecides.taken htakes, huse]
      rfl
    rw [hresult] at hgains
    have hdiagnostics := hgains.diagnostics
    rw [LineReading.ofResult, List.map_nil, List.append_nil] at hdiagnostics
    exact ⟨hgains.mem_entries rfl, Array.toList_inj.mp hdiagnostics⟩
  · obtain ⟨cause, hread⟩ :=
      NumericPlace.exists_read_of_not_takes source.column (hnumber.isNumber hplaced) htakes
    have hresult : place.settle source use = .error (.atColumn source.column cause) := by
      rw [NumericPlace.settle, hread]
      rfl
    rw [hresult] at hgains
    exact ⟨hgains.entries_eq rfl, cause, hgains.diagnostics⟩

/-- What a document holds behind a dialogue line with a number: the line, made of what its clauses
come to, and the issues of those that come to nothing. -/
theorem Scanner.gains_clause_number {context : Context} {line : SourceLine} {form : DialogueForm}
    (hform : form.IsSpelt line.text.toList) {side : Side} {before after : List Clause}
    {clause : KeywordClause} {role : Role} {source : Lexeme} {place : NumericPlace}
    {use : Int → Except Cause Meaning}
    (hon : form.on side = before ++ Clause.keyword clause :: after)
    (hrole : clause.role? side = some role) (h : role.HoldsNumber context clause source place use)
    (hnumber : IsNumber source.text) :
    ∃ result, place.Decides source use result ∧ ∃ earlier later,
      let results := earlier ++ result :: later
      form.meanings context = results ∧ ∀ (document : Document) state,
        document.Gains context line.number
          ⟨some (.dialogue ⟨String.ofList (Text.unquote form.trigger.text),
            results.filterMap Meaning.conditionOf?, results.filterMap Meaning.consequenceOf?⟩),
            results.filterMap Meaning.issue?⟩
          (feed context ⟨document, state⟩ line).document := by
  obtain ⟨result, hresult, earlier, later, hmeanings⟩ :=
    form.exists_meanings_number hon hrole h hnumber
  refine ⟨result, hresult, earlier, later, hmeanings, fun document state => ?_⟩
  rw [feed_of_ofLine (DialogueForm.ofLine_iff_isSpelt.mpr hform), DialogueForm.line_eq_filterMap,
    DialogueForm.issues, hmeanings]
  exact document.gains_dialogue context line.number _ _

end NpcScript
