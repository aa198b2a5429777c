import NpcScript.Proofs.Clause.Mended
import NpcScript.Proofs.Script.Locality
import NpcScript.Proofs.Script.Accepted
import NpcScript.Proofs.Statement.Mended

/-!
Suggestions. A message about an unknown token lists what would have been understood. Whatever of it
is written in the place of the token, the line is a statement of the same kind as before, and no
token is unknown in this place any more.
-/

namespace NpcScript

open Grammar (Assignment BeginsFrom Clause DialogueForm EndsBy Operand Spares continuesWord)

/-! ### Assignments -/

section Assignments

variable {assignment : Assignment} {line : List Char} {issue : Issue}

theorem LineReading.ofAssignment_answers (context : Context) (line : List Char)
    (key : AssignmentKey) (assignment : Assignment) :
    Answering (key.Asks assignment) (ofAssignment context line key assignment).issues := by
  have hstatement := key.statement_answers assignment context line
  unfold ofAssignment
  split
  · rename_i issues herror
    exact hstatement.error herror
  · exact key.warnings_answer assignment

/-- In an assignment that reports an unknown token, any of the suggestions may be written in its
place. -/
theorem LineReading.exists_mended_assignment {context : Context} {key : AssignmentKey}
    (hwritten : assignment.IsWritten line)
    (hissue : issue ∈ (ofAssignment context line key assignment).issues)
    {field token expected : String} (hcause : issue.cause = .unknownToken field token expected) :
    ∃ u v w, line = u ++ (v ++ w) ∧ issue.column = some (u.length + 1) ∧ IsTextOf token v ∧
      ∀ suggestion ∈ suggestions expected, ∃ assignment' : Assignment,
        assignment'.IsWritten (u ++ (mended v suggestion ++ w)) ∧
        assignment'.key = assignment.key ∧
        ∀ line', ∀ issue' ∈ (ofAssignment context line' key assignment').issues,
          issue'.column = issue.column → ¬ issue'.cause.IsUnknownToken := by
  obtain ⟨column, text, choice, hcolumn, hasked, hrefuses⟩ :=
    ofAssignment_answers context line key assignment issue hissue field token expected hcause
  obtain ⟨u, v, w, rfl, rfl, hfor, hmend⟩ := hasked.exists_isMendable hwritten
  refine ⟨u, v, w, rfl, hcolumn, ⟨text, hfor, hrefuses.token⟩, fun suggestion hsuggestion => ?_⟩
  obtain ⟨hword, htakes⟩ := hasked.offers suggestion (hrefuses.expected ▸ hsuggestion)
  obtain ⟨assignment', hwritten', hkey, htaken⟩ := hmend suggestion hword htakes
  refine ⟨assignment', hwritten', hkey, ?_⟩
  rintro line' issue' hissue' hcolumn' ⟨field', token', expected', hcause'⟩
  have hanswers := ofAssignment_answers context line' key assignment' issue' hissue'
  obtain ⟨column', text', choice', hc, hasked', hrefuses'⟩ :=
    hanswers field' token' expected' hcause'
  rw [hcolumn', hcolumn] at hc
  have hrefused := hrefuses'.takes
  rw [htaken column' text' choice' hasked' (Option.some.inj hc).symm] at hrefused
  cases hrefused

end Assignments

/-! ### Dialogue lines -/

section Dialogue

variable {form : DialogueForm} {line : List Char} {context : Context} {issue : Issue}

theorem Grammar.DialogueForm.mem_issues_iff : issue ∈ form.issues context ↔
    ∃ side, ∃ clause ∈ form.on side, Meaning.on side context clause = .error issue := by
  have hresult (result : Except Issue Meaning) :
      Meaning.issue? result = some issue ↔ result = .error issue := by
    cases result <;> simp [Meaning.issue?]
  simp only [issues, meanings, List.mem_filterMap, List.mem_append, List.mem_map, hresult]
  constructor
  · rintro ⟨result, ⟨clause, hclause, rfl⟩ | ⟨clause, hclause, rfl⟩, herror⟩
    · exact ⟨.before, clause, hclause, herror⟩
    · exact ⟨.after, clause, hclause, herror⟩
  · rintro ⟨_ | _, clause, hclause, herror⟩
    · exact ⟨_, .inl ⟨clause, hclause, rfl⟩, herror⟩
    · exact ⟨_, .inr ⟨clause, hclause, rfl⟩, herror⟩

/-- The issue of a clause lies where the clause stands. -/
theorem Meaning.column_mem_of_isWritten {side : Side} {clause : Clause} {s : List Char}
    {offset : Nat} (hwritten : clause.IsWritten s offset)
    (h : on side context clause = .error issue) :
    ∃ c, issue.column = some c ∧ offset < c ∧ c ≤ offset + s.length := by
  have hagree := on_alike side context (Likeness.within_keepsLiterals offset (offset + s.length))
    (hwritten.alike_within (Nat.le_refl _) (Nat.le_refl _))
  rw [h] at hagree
  obtain _ | ⟨⟨c, c', hc, -, hcolumn⟩, -⟩ := hagree
  exact ⟨c, hc, hcolumn⟩

/-- No issue of a clause that stands in front of a stretch, or behind it, is inside the stretch. -/
theorem Meaning.column_ne {side : Side} {clause : Clause} {lo hi column : Nat}
    (hclause : EndsBy Clause.IsWritten lo clause ∨ BeginsFrom Clause.IsWritten hi clause)
    (h : on side context clause = .error issue) (hlo : lo < column) (hhi : column ≤ hi) :
    issue.column ≠ some column := by
  rintro hcolumn
  rcases hclause with ⟨t, offset, ht, hend⟩ | ⟨t, offset, ht, hbegin⟩
  · obtain ⟨c, hc, hlt, hle⟩ := column_mem_of_isWritten ht h
    rw [hcolumn, Option.some.injEq] at hc
    omega
  · obtain ⟨c, hc, hlt, hle⟩ := column_mem_of_isWritten ht h
    rw [hcolumn, Option.some.injEq] at hc
    omega

theorem Grammar.DialogueForm.eq_or_mem_of_mem_place {side side' : Side} {clause other : Clause}
    {before after others : List Clause}
    (h : other ∈ (form.place side before after others clause).on side') :
    (side' = side ∧ other = clause) ∨ other ∈ before ++ (after ++ others) := by
  cases side <;> cases side' <;> simp [place, put, Side.other, on] at h ⊢ <;> tauto

/-- In a dialogue line that reports an unknown token, any of the suggestions may be written in its
place. -/
theorem Grammar.DialogueForm.IsSpelt.exists_mended (h : form.IsSpelt line)
    (hissue : issue ∈ form.issues context) {field token expected : String}
    (hcause : issue.cause = .unknownToken field token expected) :
    ∃ u v w, line = u ++ (v ++ w) ∧ issue.column = some (u.length + 1) ∧ IsTextOf token v ∧
      ((Operand v → Spares continuesWord w) → ∀ suggestion ∈ suggestions expected,
        ∃ form' : DialogueForm, form'.IsSpelt (u ++ (mended v suggestion ++ w)) ∧
          ∀ issue' ∈ form'.issues context, issue'.column = issue.column →
            ¬ issue'.cause.IsUnknownToken) := by
  obtain ⟨side, clause, hclause, herror⟩ := mem_issues_iff.mp hissue
  obtain ⟨before, after, hon⟩ := List.append_of_mem hclause
  obtain ⟨front, text, rest, rfl, hcut⟩ := h.exists_isClauseCut hon
  obtain ⟨u, v, w, rfl, hne, hcolumn, htext, hmend⟩ :=
    Meaning.exists_mended hcut.written herror hcause
  refine ⟨front ++ u, v, w ++ rest, by simp, ?_, htext, fun hspares suggestion hsuggestion => ?_⟩
  · rw [hcolumn, List.length_append]
  · obtain ⟨hmended, hstops, clause', hclause', hnot⟩ := hmend suggestion hsuggestion
    have hhead : (u ++ (mended v suggestion ++ w)).head? = (u ++ (v ++ w)).head? := by
      rw [List.head?_append_of_ne_nil u hne, List.head?_append_of_ne_nil u hne]
    obtain ⟨after', others', -, -, hplaced, hput⟩ :=
      hcut.exchange _ hhead fun hside => hstops rest hspares (hcut.stops hside)
    refine ⟨_, by simpa using hput clause' hclause', ?_⟩
    intro issue' hissue' hcolumn'
    obtain ⟨side', other, hother, herror'⟩ := mem_issues_iff.mp hissue'
    rcases eq_or_mem_of_mem_place hother with ⟨rfl, rfl⟩ | hother
    · exact hnot issue' herror' hcolumn'
    · -- The other clauses have their issues elsewhere.
      have hpos := List.length_pos_iff.mpr hmended
      refine absurd (hcolumn'.trans hcolumn)
        (Meaning.column_ne (hplaced other hother) herror' (by omega) ?_)
      simp only [List.length_append]
      omega

end Dialogue

/-! ### Lines -/

/-- From the column on, the line is written as the token of a message and a rest. -/
structure PointsAt (line : List Char) (column : Option Nat) (token : String)
    (front text rest : List Char) : Prop where
  line_eq : line = front ++ (text ++ rest)
  column_eq : column = some (front.length + 1)
  isTextOf : IsTextOf token text

/-- A message points at one text. -/
theorem PointsAt.unique {line : List Char} {column : Option Nat} {token : String}
    {front front' text text' rest rest' : List Char}
    (h : PointsAt line column token front text rest)
    (h' : PointsAt line column token front' text' rest') :
    front = front' ∧ text = text' ∧ rest = rest' := by
  have hlength : front.length = front'.length := by
    have hcolumn := h.column_eq.symm.trans h'.column_eq
    simpa using hcolumn
  obtain ⟨hfront, hbehind⟩ := List.append_inj (h.line_eq.symm.trans h'.line_eq) hlength
  exact ⟨hfront, h.isTextOf.append_inj h'.isTextOf hbehind⟩

/-- With any of the suggestions in the place of an unknown token, the line is of the same kind, its
grammar accepts it, and no token is unknown in this place. -/
theorem LineReading.exists_mended {context : Context} {line : List Char} {issue : Issue}
    (hissue : issue ∈ (ofLine context line).issues) {field token expected : String}
    (hcause : issue.cause = .unknownToken field token expected) :
    ∃ kind, StatementKind.ofLine? line = some kind ∧ kind.Accepts line ∧
      ∃ front text rest, PointsAt line issue.column token front text rest ∧
        ((Operand text → Spares continuesWord rest) → ∀ suggestion ∈ suggestions expected,
          let line' := front ++ (mended text suggestion ++ rest)
          StatementKind.ofLine? line' = some kind ∧ kind.Accepts line' ∧
            ∀ issue' ∈ (ofLine context line').issues, issue'.column = issue.column →
              ¬ issue'.cause.IsUnknownToken) := by
  have hsingle {other : Issue} (hmem : issue ∈ [other])
      (hother : ∀ field token expected, other.cause ≠ .unknownToken field token expected) : False :=
    hother field token expected (List.mem_singleton.mp hmem ▸ hcause)
  cases hkind : StatementKind.ofLine? line with
  | none =>
      simp only [ofLine, hkind] at hissue
      exact (hsingle hissue fun _ _ _ h => by cases h).elim
  | some kind =>
      cases kind with
      | empty | comment => simp [ofLine, hkind] at hissue
      | assignment key =>
          cases hline : Assignment.ofLine line with
          | error column =>
              simp only [ofLine, hkind, hline] at hissue
              exact (hsingle hissue fun _ _ _ h => by cases h).elim
          | ok assignment =>
              have hwritten := Assignment.isWritten_of_ofLine hline
              rw [ofLine_of_assignment context hkind hline] at hissue
              obtain ⟨u, v, w, rfl, hcolumn, htext, hmend⟩ :=
                exists_mended_assignment hwritten hissue hcause
              refine ⟨_, rfl, ⟨assignment, hline⟩, u, v, w, ⟨rfl, hcolumn, htext⟩,
                fun _ suggestion hsuggestion => ?_⟩
              obtain ⟨assignment', hwritten', hkey, hnot⟩ := hmend suggestion hsuggestion
              have hline' := hwritten'.ofLine
              obtain ⟨key', hsame, hkey'⟩ :=
                (StatementKind.ofLine?_eq_some_iff_of_assignment hwritten).mp hkind
              have hkind' := (StatementKind.ofLine?_eq_some_iff_of_assignment hwritten').mpr
                ⟨key', hsame, hkey ▸ hkey'⟩
              refine ⟨hkind', ⟨assignment', hline'⟩, ?_⟩
              rw [ofLine_of_assignment context hkind' hline']
              exact hnot _
      | dialogue =>
          cases hline : DialogueForm.ofLine line with
          | error column =>
              simp only [ofLine, hkind, hline] at hissue
              exact (hsingle hissue fun _ _ _ h => by cases h).elim
          | ok form =>
              rw [ofLine_of_form context hline] at hissue
              obtain ⟨u, v, w, rfl, hcolumn, htext, hmend⟩ :=
                (DialogueForm.ofLine_iff_isSpelt.mp hline).exists_mended hissue hcause
              refine ⟨_, rfl, ⟨form, hline⟩, u, v, w, ⟨rfl, hcolumn, htext⟩,
                fun hspares suggestion hsuggestion => ?_⟩
              obtain ⟨form', hspelt', hnot⟩ := hmend hspares suggestion hsuggestion
              have hline' := DialogueForm.ofLine_iff_isSpelt.mpr hspelt'
              refine ⟨DialogueForm.ofLine?_of_ofLine hline', ⟨form', hline'⟩, ?_⟩
              rw [ofLine_of_form context hline']
              exact hnot

theorem Scanner.mem_diagnostics_feed_iff {context : Context} {line : SourceLine}
    {diagnostic : Diagnostic} :
    diagnostic ∈ (feed context {} line).document.diagnostics ↔
      ∃ issue ∈ (LineReading.ofLine context line.text.toList).issues,
        issue.diagnostic context line.number = diagnostic := by
  have hfeed := feed_scanning context {} line
  rw [hfeed, ← Array.mem_toList_iff, Document.toList_diagnostics_addReading]
  simp

/-- What a message suggests is understood. If a diagnostic of a line says that a token is unknown,
the line is a statement that its grammar accepts, and from the column of the diagnostic on it is
written as this token, as it is or as a string literal. Where no letter, digit or underscore follows
a token that is an operand, any of the words that the message lists may be written in its place,
inside the quotes if there are any: the line is a statement of the same kind that its grammar
accepts, and no token is unknown in this place. -/
theorem Scanner.feed_mended (context : Context) {line : SourceLine} {diagnostic : Diagnostic}
    (hdiagnostic : diagnostic ∈ (feed context {} line).document.diagnostics)
    {field token expected : String}
    (hcause : diagnostic.cause = .unknownToken field token expected) :
    ∃ kind, StatementKind.ofLine? line.text.toList = some kind ∧ kind.Accepts line.text.toList ∧
      (∃ front text rest,
        PointsAt line.text.toList diagnostic.column token front text rest) ∧
      ∀ front text rest, PointsAt line.text.toList diagnostic.column token front text rest →
        (Operand text → Spares continuesWord rest) →
        ∀ suggestion ∈ suggestions expected, ∀ line' : SourceLine,
          line'.text.toList = front ++ (mended text suggestion ++ rest) →
          StatementKind.ofLine? line'.text.toList = some kind ∧ kind.Accepts line'.text.toList ∧
          ∀ diagnostic' ∈ (feed context {} line').document.diagnostics,
            diagnostic'.column = diagnostic.column → ¬ diagnostic'.cause.IsUnknownToken := by
  obtain ⟨issue, hissue, rfl⟩ := mem_diagnostics_feed_iff.mp hdiagnostic
  obtain ⟨kind, hkind, haccepts, front, text, rest, hpoints, hmend⟩ :=
    LineReading.exists_mended hissue hcause
  refine ⟨kind, hkind, haccepts, ⟨front, text, rest, hpoints⟩, ?_⟩
  intro front' text' rest' hpoints' hspares suggestion hsuggestion line' hline'
  obtain ⟨rfl, rfl, rfl⟩ := hpoints.unique hpoints'
  obtain ⟨hkind', haccepts', hnot⟩ := hmend hspares suggestion hsuggestion
  rw [hline']
  refine ⟨hkind', haccepts', fun diagnostic' hdiagnostic' hcolumn => ?_⟩
  obtain ⟨issue', hissue', rfl⟩ := mem_diagnostics_feed_iff.mp hdiagnostic'
  exact hnot issue' (hline' ▸ hissue') hcolumn

/-- An attribute in quotes that does not exist, and one that does in its place. -/
theorem Scanner.feed_mended_strength :
    let context : Context := { items := {}, skills := {}, describe := fun _ => "" }
    let line : SourceLine := ⟨1, "\"hi\", attrib(\"power\") > 3 -> introduce"⟩
    let line' : SourceLine := ⟨1, "\"hi\", attrib(\"strength\") > 3 -> introduce"⟩
    let expected := Vocabulary.listing CharacterAttribute
    let diagnostic : Diagnostic := ⟨1, some 14, .unknownToken "attribute" "power" expected, ""⟩
    diagnostic ∈ (feed context {} line).document.diagnostics ∧
      StatementKind.ofLine? line'.text.toList = some .dialogue ∧
      ∀ diagnostic' ∈ (feed context {} line').document.diagnostics,
        diagnostic'.column = some 14 → ¬ diagnostic'.cause.IsUnknownToken := by
  intro context line line' expected diagnostic
  have hdiagnostic : diagnostic ∈ (feed context {} line).document.diagnostics := by
    decide +kernel
  have hkind : StatementKind.ofLine? line.text.toList = some .dialogue := by decide +kernel
  have hpoints : PointsAt line.text.toList diagnostic.column "power" "\"hi\", attrib(".toList
      "\"power\"".toList ") > 3 -> introduce".toList := by
    refine ⟨by decide +kernel, rfl, "power".toList, ?_, .inl rfl⟩
    have hpower : Grammar.IsWord "power".toList := Grammar.isWord_of_wordLexer (by decide)
    exact hpower.unquote_eq ▸ .literal hpower.isLiteral
  obtain ⟨kind, hkind', -, -, hmend⟩ := feed_mended context hdiagnostic rfl
  obtain rfl := Option.some.inj (hkind.symm.trans hkind')
  obtain ⟨hkind, -, hnot⟩ := hmend _ _ _ hpoints (fun _ => Grammar.spares_cons_iff.mpr (by decide))
    "strength".toList (by decide +kernel) line' (by decide +kernel)
  exact ⟨hdiagnostic, hkind, hnot⟩

end NpcScript
