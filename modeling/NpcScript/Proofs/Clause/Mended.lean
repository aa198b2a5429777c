import NpcScript.Proofs.Clause.Choice
import NpcScript.Proofs.Likeness.Exchanged

/-!
Clauses in which a suggestion is taken up. Where a clause holds a text in one of its spots, another
text that belongs there may be written instead, and the clause is a clause again that holds this
text in the same spot. If the text is one of those that a message lists, nothing is wrong with the
spot any more.
-/

namespace NpcScript

open Grammar (Argument Comparison KeywordClause Clause IsOperator IsWord Operand Spares Stops
  continuesWord)

theorem exists_append_of_getElem? {α : Type} {as : List α} {index : Nat} {a : α}
    (h : as[index]? = some a) :
    ∃ before after, as = before ++ a :: after ∧ before.length = index := by
  obtain ⟨hlt, rfl⟩ := List.getElem?_eq_some_iff.mp h
  refine ⟨as.take index, as.drop (index + 1), ?_, by rw [List.length_take]; omega⟩
  rw [List.getElem_cons_drop, List.take_append_drop]

namespace Grammar

section Columns

variable {s : List Char} {offset : Nat} {found : Comparison}

theorem Argument.isColumn : IsColumn Argument.IsWritten Argument.column := by
  intro t offset argument h
  refine ⟨?_, h.startsPiece.ne_nil⟩
  cases h <;> rfl

theorem Comparison.IsWritten.operator_column_eq (h : found.IsWritten s offset) :
    found.operator.column = offset + 1 ∧ s ≠ [] := by
  obtain ⟨hoperator, hgap, hoperand⟩ := h
  exact ⟨rfl, by simp [hoperand.ne_nil]⟩

/-- An argument with a comparison is written as its subject, blanks, and the comparison. -/
theorem Argument.IsWritten.exists_of_comparison {subject : Lexeme}
    (h : Argument.IsWritten s offset (.comparison subject found)) :
    ∃ text gap t, s = text ++ (gap ++ t) ∧ subject = ⟨offset + 1, text⟩ ∧ IsWord text ∧
      IsGap gap ∧ found.IsWritten t (offset + text.length + gap.length) := by
  cases h with
  | comparison hsubject hgap hfound => exact ⟨_, _, _, rfl, rfl, hsubject, hgap, hfound⟩

end Columns

end Grammar

namespace Grammar.KeywordClause

variable {clause clause' : KeywordClause} {s : List Char} {offset : Nat}

/-! ### One comparison for another -/

theorem compares_congr (hcomparison : clause.comparison = clause'.comparison)
    (hinner : clause.innerComparison? = clause'.innerComparison?) :
    clause.compares = clause'.compares := by
  simp only [compares, hcomparison, hinner]

/-- The operation of a clause stands behind its parentheses, or with the first argument inside them
that has one. -/
theorem cases_of_operation {found : Comparison} (h : clause.operation = .ok found) :
    (clause.comparison = some found ∧ clause.innerComparison? = none) ∨
      clause.comparison = none ∧ clause.innerComparison? = some found ∧
        ∃ first subject others, clause.argumentList = first ++ .comparison subject found :: others ∧
          ∀ argument ∈ first, argument.comparison? = none := by
  unfold operation at h
  split at h
  · rename_i hcomparison hinner
    cases h
    exact .inl ⟨hcomparison, hinner⟩
  · rename_i hcomparison hinner
    cases h
    obtain ⟨first, argument, others, hlist, hfound, hfirst⟩ :=
      List.findSome?_eq_some_iff.mp hinner
    cases argument with
    | quoted _ | operand _ => cases hfound
    | comparison subject found =>
        cases hfound
        exact .inr ⟨hcomparison, hinner, first, subject, others, hlist, hfirst⟩
  · cases h
  · cases h

theorem compares_of_operation {found : Comparison} (h : clause.operation = .ok found) :
    clause.compares = isCompareOnly found.operator.text := by
  rcases cases_of_operation h with ⟨hcomparison, hinner⟩ | ⟨hcomparison, hinner, -⟩ <;>
    simp [compares, hcomparison, hinner]

/-- A clause with an argument has its list of arguments written out. -/
theorem arguments_eq_of_argumentList {first others : List Argument} {a : Argument}
    (h : clause.argumentList = first ++ a :: others) :
    clause.arguments = some (first ++ a :: others) := by
  unfold argumentList at h
  cases harguments : clause.arguments with
  | none => simp [harguments] at h
  | some arguments => simpa [harguments] using h

/-- The comparison of a clause is written as `v`, and others may be written in its place. -/
structure IsOperationCut (clause : KeywordClause) (offset : Nat) (found : Comparison)
    (u v w : List Char) : Prop where
  written : found.IsWritten v (offset + u.length)
  nonempty : u ≠ []
  stops : ∀ v' rest, (w = [] → Stops (u ++ v') rest) → Stops (u ++ (v ++ w)) rest →
    Stops (u ++ (v' ++ w)) rest
  exchange : ∀ v' found', Comparison.IsWritten v' (offset + u.length) found' →
    ∃ clause' : KeywordClause, clause'.IsWritten (u ++ (v' ++ w)) offset ∧
      clause'.keyword = clause.keyword ∧ clause'.operation = .ok found'

theorem IsWritten.exists_isOperationCut {found : Comparison} (h : clause.IsWritten s offset)
    (hoperation : clause.operation = .ok found) :
    ∃ u v w, s = u ++ (v ++ w) ∧ clause.IsOperationCut offset found u v w := by
  rcases cases_of_operation hoperation with ⟨hcomparison, hinner⟩ |
    ⟨hcomparison, -, first, subject, others, hlist, hfirst⟩
  · obtain ⟨u, v, rfl, hne, hfound, hput⟩ := h.exists_comparison_cut hcomparison
    refine ⟨u, v, [], by simp, hfound, hne, fun v' rest hstops _ => by simpa using hstops, ?_⟩
    intro v' found' hfound'
    refine ⟨{ clause with comparison := some found' }, by simpa using hput v' found' hfound', rfl,
      ?_⟩
    have hinner' : innerComparison? { clause with comparison := some found' } = none := hinner
    simp only [operation, hinner']
  · obtain ⟨u, v, w, rfl, hcut⟩ := h.exists_isArgumentCut (arguments_eq_of_argumentList hlist)
    obtain ⟨subject, gap, v, rfl, rfl, hsubject, hgap, hwritten⟩ :=
      hcut.argument.exists_of_comparison
    have hlength : offset + (u ++ (subject ++ gap)).length =
        offset + u.length + subject.length + gap.length := by
      simp only [List.length_append]
      omega
    refine ⟨u ++ (subject ++ gap), v, w, by simp, hlength ▸ hwritten, by simp [hcut.nonempty],
      ?_, ?_⟩
    · intro v' rest _ hstops
      simpa using hcut.stops (subject ++ (gap ++ v')) rest (by simpa using hstops)
    · intro v' found' hfound'
      rw [hlength] at hfound'
      obtain ⟨others', outer, -, houter, hput⟩ := hcut.exchange (subject ++ (gap ++ v'))
      rw [hcomparison] at houter
      cases houter
      let argument : Argument := .comparison ⟨offset + u.length + 1, subject⟩ found'
      have hwhole := hput argument (.comparison hsubject hgap hfound')
      refine ⟨⟨clause.keyword, some (first ++ argument :: others'), none⟩, by simpa using hwhole,
        rfl, ?_⟩
      have hnone : first.findSome? Argument.comparison? = none :=
        List.findSome?_eq_none_iff.mpr hfirst
      simp [operation, innerComparison?, argumentList, hnone, argument, List.findSome?_cons,
        Argument.comparison?]

/-! ### One text of a spot for another -/

/-- The second clause holds the word in the spot, and in all that its role depends on it is like the
first one. -/
structure IsMended (clause : KeywordClause) (spot : Spot) (column : Nat) (word : List Char)
    (clause' : KeywordClause) : Prop where
  keyword : clause'.keyword = clause.keyword
  compares : spot ≠ .operator → clause'.compares = clause.compares
  holds : clause'.Holds spot column word

/-- In a spot of the clause stands `v`, and a suggestion may be taken up there. -/
structure IsSpotCut (clause : KeywordClause) (offset : Nat) (spot : Spot) (u v w : List Char) :
    Prop where
  nonempty : u ≠ []
  mend : ∀ word, spot.Fits word → ∃ clause' : KeywordClause,
    clause'.IsWritten (u ++ (mended v word ++ w)) offset ∧
      clause.IsMended spot (offset + u.length + 1) word clause'
  stops : ∀ word rest, spot.Fits word → (Operand v → Spares continuesWord (w ++ rest)) →
    Stops (u ++ (v ++ w)) rest → Stops (u ++ (mended v word ++ w)) rest

section Operations

variable {found : Comparison} {u v w : List Char}

theorem IsOperationCut.operator (hcut : clause.IsOperationCut offset found u v w) :
    ∃ t, v = found.operator.text ++ t ∧ found.operator.column = offset + u.length + 1 ∧
      IsOperator found.operator.text ∧
      clause.IsSpotCut offset .operator u found.operator.text (t ++ w) := by
  obtain ⟨hfound, hnonempty, hstops, hexchange⟩ := hcut
  generalize hoffset : offset + u.length = offset' at hfound
  obtain ⟨hoperator, hgap, hoperand⟩ := hfound
  rename_i operator gap operand
  subst hoffset
  refine ⟨gap ++ operand, rfl, rfl, hoperator, hnonempty, fun word hword => ?_,
    fun word rest hword _ hbefore => ?_⟩
  · obtain ⟨clause', hwritten, hkeyword, hoperation⟩ :=
      hexchange _ _ (.intro hword hgap hoperand)
    rw [mended_of_isBare hoperator.isBare]
    exact ⟨clause', by simpa using hwritten, hkeyword, fun hne => absurd rfl hne,
      .operator hoperation⟩
  · rw [mended_of_isBare hoperator.isBare]
    have hbefore : Stops (u ++ (operator ++ (gap ++ operand) ++ w)) rest := by simpa using hbefore
    have hmended := hstops (word ++ (gap ++ operand)) rest (fun hw => ?_) hbefore
    · simpa using hmended
    · -- The last word or number is the one of the operand, which stands behind either operator.
      subst hw
      have hoperand : Stops operand rest :=
        Stops.of_append (t := u ++ (operator ++ gap)) (by simpa using hbefore)
      obtain ⟨c, t, rfl, -⟩ := IsOperator.exists_cons hword
      have hmarks : ∀ d ∈ c :: t ++ gap, continuesWord d = false :=
        List.forall_mem_append.mpr ⟨IsOperator.not_continuesWord hword,
          fun d hd => not_continuesWord_of_isGap (hgap d hd)⟩
      simpa using hoperand.append (by simp) hmarks u

theorem IsOperationCut.operand (hcut : clause.IsOperationCut offset found u v w)
    (hoperation : clause.operation = .ok found) :
    ∃ t, v = t ++ found.operand.text ∧
      found.operand.column = offset + (u ++ t).length + 1 ∧ Operand found.operand.text ∧
      clause.IsSpotCut offset .operand (u ++ t) found.operand.text w := by
  obtain ⟨hfound, hnonempty, hstops, hexchange⟩ := hcut
  generalize hoffset : offset + u.length = offset' at hfound
  obtain ⟨hoperator, hgap, hoperand⟩ := hfound
  rename_i operator gap operand
  subst hoffset
  refine ⟨operator ++ gap, by simp, by simp [Nat.add_assoc], hoperand, by simp [hnonempty],
    fun word hword => ?_, fun word rest hword hspares hbefore => ?_⟩
  · obtain ⟨clause', hwritten, hkeyword, hoperation'⟩ :=
      hexchange _ _ (.intro hoperator hgap (IsWord.operand hword))
    rw [mended_of_isBare hoperand.isBare]
    refine ⟨clause', by simpa using hwritten, hkeyword, fun _ => ?_, ?_⟩
    · rw [compares_of_operation hoperation, compares_of_operation hoperation']
    · simpa [Nat.add_assoc] using KeywordClause.Holds.operand hoperation'
  · rw [mended_of_isBare hoperand.isBare]
    have hmended := hstops (operator ++ (gap ++ word)) rest (fun hw => ?_) (by simpa using hbefore)
    · simpa using hmended
    · subst hw
      exact (hspares hoperand).stops _

end Operations

section Arguments

variable {before after : List Argument} {a : Argument} {u v w : List Char}

/-- Another argument may be written. If it brings no comparison that was not there before, the role
of the clause stays the same. -/
theorem IsArgumentCut.exists_isMended (hcut : clause.IsArgumentCut offset before a after u v w)
    (harguments : clause.arguments = some (before ++ a :: after)) {v' : List Char} {a' b : Argument}
    (ha' : a'.IsWritten v' (offset + u.length))
    (ha : a.Alike (.exchanged v.length v'.length) b) (hsame : b.comparison? = a'.comparison?) :
    ∃ clause' : KeywordClause, clause'.IsWritten (u ++ (v' ++ w)) offset ∧
      clause.IsMended (.argument before.length) a'.column a'.token clause' := by
  obtain ⟨after', found', hafter, hfound, hput⟩ := hcut.exchange v'
  refine ⟨_, hput a' ha', rfl, fun _ => ?_, .argument (by simp [argumentList])⟩
  -- In between stands a clause that is alike the first one, with the comparisons of the second one.
  let between : KeywordClause := ⟨clause.keyword, some (before ++ b :: after'), found'⟩
  have halike : clause.Alike (.exchanged v.length v'.length) between :=
    clause.alike_exchange harguments ha hafter hfound
  rw [compares_eq halike]
  refine compares_congr rfl ?_
  simp [innerComparison?, argumentList, between, List.findSome?_cons, hsame]

/-- Where an argument is only a name, the whole of it is exchanged. -/
theorem IsArgumentCut.isSpotCut (hcut : clause.IsArgumentCut offset before a after u v w)
    (harguments : clause.arguments = some (before ++ a :: after)) (hplain : a.comparison? = none)
    (hmended : ∀ word, IsWord word → ∃ a' : Argument,
      a'.IsWritten (mended v word) (offset + u.length) ∧ a'.token = word ∧
        a'.comparison? = none) :
    clause.IsSpotCut offset (.argument before.length) u v w := by
  refine ⟨hcut.nonempty, fun word hword => ?_, fun word rest _ _ hstops => hcut.stops _ _ hstops⟩
  obtain ⟨a', ha', htoken, hplain'⟩ := hmended word hword
  have hclause := hcut.exists_isMended harguments ha' a.alike_exchanged (hplain.trans hplain'.symm)
  rwa [(Argument.isColumn ha').1, htoken] at hclause

theorem IsWritten.exists_argument_isSpotCut (h : clause.IsWritten s offset) {index : Nat}
    (ha : clause.argumentList[index]? = some a) :
    ∃ u v w, s = u ++ (v ++ w) ∧ a.column = offset + u.length + 1 ∧ IsWrittenFor a.token v ∧
      clause.IsSpotCut offset (.argument index) u v w := by
  obtain ⟨before, after, hlist, rfl⟩ := exists_append_of_getElem? ha
  have harguments := arguments_eq_of_argumentList hlist
  obtain ⟨u, v, w, rfl, hcut⟩ := h.exists_isArgumentCut harguments
  have hwritten := hcut.argument
  generalize hoffset : offset + u.length = offset' at hwritten
  cases hwritten with
  | quoted hs =>
      subst hoffset
      refine ⟨u, v, w, rfl, rfl, .literal hs, hcut.isSpotCut harguments rfl fun word hword => ?_⟩
      rw [mended_of_isLiteral hs]
      exact ⟨_, .quoted hword.isLiteral, hword.unquote_eq, rfl⟩
  | operand hs =>
      subst hoffset
      refine ⟨u, v, w, rfl, rfl, .operand hs, hcut.isSpotCut harguments rfl fun word hword => ?_⟩
      rw [mended_of_isBare hs.isBare]
      exact ⟨_, .operand hword.operand, rfl, rfl⟩
  | @comparison _ subject gap t found hsubject hgap hfound =>
      -- Only the subject is exchanged, so the comparison behind it moves.
      subst hoffset
      refine ⟨u, subject, gap ++ (t ++ w), by simp, rfl, .operand hsubject.operand, hcut.nonempty,
        fun word hword => ?_, fun word rest _ _ hstops => ?_⟩
      · have hbehind : offset + u.length + subject.length + gap.length +
            (word ++ (gap ++ t)).length = offset + u.length + word.length + gap.length +
              (subject ++ (gap ++ t)).length := by
          simp only [List.length_append]
          omega
        obtain ⟨found', hfound', halike⟩ := found.exists_moved hbehind hfound
        rw [mended_of_isBare hsubject.isBare]
        have hclause := hcut.exists_isMended harguments (.comparison hword hgap hfound')
          (.comparison (Lexeme.alike_exchanged _).toAlike halike.ofMoved) rfl
        simpa [Argument.column, Argument.token] using hclause
      · rw [mended_of_isBare hsubject.isBare]
        simpa using hcut.stops (word ++ (gap ++ t)) rest (by simpa using hstops)

end Arguments

/-- Where a clause holds a text in a spot, a suggestion may be taken up. -/
theorem IsWritten.exists_isSpotCut (h : clause.IsWritten s offset) {spot : Spot} {column : Nat}
    {text : List Char} (hholds : clause.Holds spot column text) :
    ∃ u v w, s = u ++ (v ++ w) ∧ column = offset + u.length + 1 ∧ IsWrittenFor text v ∧
      clause.IsSpotCut offset spot u v w := by
  cases hholds with
  | argument ha => exact h.exists_argument_isSpotCut ha
  | operator hoperation =>
      obtain ⟨u, v, w, rfl, hcut⟩ := h.exists_isOperationCut hoperation
      obtain ⟨t, rfl, hcolumn, hoperator, hspot⟩ := hcut.operator
      exact ⟨u, _, t ++ w, by simp, hcolumn, .operator hoperator, hspot⟩
  | operand hoperation =>
      obtain ⟨u, v, w, rfl, hcut⟩ := h.exists_isOperationCut hoperation
      obtain ⟨t, rfl, hcolumn, hoperand, hspot⟩ := hcut.operand hoperation
      exact ⟨u ++ t, _, w, by simp, hcolumn, .operand hoperand, hspot⟩

/-! ### Where spots stand -/

section Places

variable {a : Argument} {found : Comparison}

/-- No operator stands where an argument begins. -/
theorem IsWritten.column_ne_operator_column (h : clause.IsWritten s offset)
    (ha : a ∈ clause.argumentList) (hoperation : clause.operation = .ok found) :
    a.column ≠ found.operator.column := by
  have hcases := cases_of_operation hoperation
  obtain ⟨hkeyword, harguments, hcomparison⟩ := h
  rename_i keyword list t arguments comparison
  obtain _ | ⟨hgap, hlist⟩ := harguments
  · cases ha
  rename_i gap list arguments
  rcases hcases with ⟨hsome, -⟩ | ⟨-, -, first, subject, others, hargs, -⟩
  · -- The comparison stands behind the parentheses.
    obtain rfl : comparison = some found := hsome
    obtain _ | ⟨hgap', hwritten⟩ := hcomparison
    obtain ⟨v, offset', hv, -, hend⟩ := hlist.exists_of_mem ha
    have hle := EndsBy.column_le ⟨v, offset', hv, Nat.le_of_lt hend⟩ Argument.isColumn
    rw [hwritten.operator_column_eq.1, List.length_append]
    omega
  · -- The comparison belongs to one of the arguments, and the others stand on either side of it.
    obtain rfl : arguments = first ++ .comparison subject found :: others := hargs
    obtain ⟨u, v, w, rfl, hcut⟩ := hlist.exists_isCut
    obtain ⟨subject, gap', v, rfl, rfl, hsubject, -, hwritten⟩ := hcut.member.exists_of_comparison
    obtain ⟨hoperator, hne⟩ := hwritten.operator_column_eq
    have hpos := List.length_pos_iff.mpr hsubject.ne_nil
    have hpos' := List.length_pos_iff.mpr hne
    rcases List.mem_append.mp ha with ha | ha
    · have hle := (hcut.earlier a ha).column_le Argument.isColumn
      omega
    · rcases List.mem_cons.mp ha with rfl | ha
      · simp only [Argument.column]
        omega
      · obtain ⟨row, gap'', -, -, hrow⟩ := hcut.later
        have hlt := (hrow.beginsFrom ha).lt_column Argument.isColumn
        simp only [List.length_append] at hlt
        omega

/-- The argument and the operator that a clause holds have different columns. -/
theorem Holds.column_ne {index column column' : Nat} {text text' : List Char}
    (h : clause.Holds (.argument index) column text) (h' : clause.Holds .operator column' text')
    (hwritten : clause.IsWritten s offset) : column ≠ column' := by
  cases h with
  | argument ha =>
      cases h' with
      | operator hoperation =>
          exact hwritten.column_ne_operator_column (List.mem_of_getElem? ha) hoperation

end Places

end Grammar.KeywordClause

/-! ### Roles -/

section Roles

variable {clause clause' : KeywordClause} {side : Side}

/-- A role asks for one thing in a spot, and for more than one thing only if they are an argument
and the operator. -/
theorem Role.cases_of_mem_choices {role : Role} {entry entry' : Spot × Choice}
    (h : entry ∈ role.choices) (h' : entry' ∈ role.choices) :
    entry = entry' ∨ (∃ index, entry.1 = .argument index ∧ entry'.1 = .operator) ∨
      ∃ index, entry.1 = .operator ∧ entry'.1 = .argument index := by
  have hnone (hchoices : role.choices = []) : entry = entry' := by
    simp [hchoices] at h
  have hone {entry'' : Spot × Choice} (hchoices : role.choices = [entry'']) : entry = entry' := by
    rw [hchoices, List.mem_singleton] at h h'
    rw [h, h']
  have htwo {index : Nat} {choice choice' : Choice}
      (hchoices : role.choices = [(.argument index, choice), (.operator, choice')]) :
      entry = entry' ∨ (∃ index, entry.1 = .argument index ∧ entry'.1 = .operator) ∨
        ∃ index, entry.1 = .operator ∧ entry'.1 = .argument index := by
    simp only [hchoices, List.mem_cons, List.not_mem_nil, or_false] at h h'
    rcases h with rfl | rfl <;> rcases h' with rfl | rfl <;> simp
  cases role with
  | condition keyword =>
      cases keyword with
      | attrib | item => exact htwo rfl
      | isAdmin | english | german | chance => exact .inl (hnone rfl)
      | _ => exact .inl (hone rfl)
  | consequence keyword =>
      cases keyword with
      | arena | attrib | town | talkState => exact .inl (hone rfl)
      | _ => exact .inl (hnone rfl)

/-- An operator is only asked for by a condition. -/
theorem Role.eq_condition_of_operator {role : Role} {choice : Choice}
    (h : (.operator, choice) ∈ role.choices) :
    choice = .of CompareOperator ∧ ∃ keyword, role = .condition keyword := by
  cases role with
  | condition keyword =>
      cases keyword <;> simp [choices] at h <;> exact ⟨h, _, rfl⟩
  | consequence keyword => cases keyword <;> simp [choices] at h

/-- Where the operator did not make a condition of the clause, no operator does. -/
theorem Grammar.KeywordClause.role?_of_not_compares {keyword : ConditionKeyword}
    (h : clause.role? side = some (.condition keyword)) (hcompares : clause.compares = false)
    (hkeyword : clause'.keyword = clause.keyword) :
    clause'.role? side = some (.condition keyword) := by
  cases side with
  | before => simpa only [role?, hkeyword] using h
  | after =>
      simp only [role?, hcompares] at h
      simp only [role?, hkeyword]
      split at h
      · cases h
      · exact h
      · cases h
      · cases h

/-- Taking up a suggestion does not change the role of a clause. -/
theorem Grammar.KeywordClause.IsMended.role?_eq {spot : Spot} {column column' : Nat}
    {text word : List Char} {choice : Choice} {role : Role}
    (h : clause.IsMended spot column' word clause') (hrole : clause.role? side = some role)
    (hchoice : (spot, choice) ∈ role.choices) (hholds : clause.Holds spot column text)
    (htakes : choice.takes text = false) : clause'.role? side = some role := by
  by_cases hspot : spot = .operator
  · subst hspot
    obtain ⟨rfl, keyword, rfl⟩ := Role.eq_condition_of_operator hchoice
    refine role?_of_not_compares hrole ?_ h.keyword
    cases hholds with
    | operator hoperation =>
        rw [compares_of_operation hoperation, Bool.eq_false_iff]
        intro hcompares
        rw [Choice.takes_of_isCompareOnly hcompares] at htakes
        cases htakes
  · rw [← hrole]
    exact role?_congr (congrArg Grammar.Lexeme.text h.keyword) (h.compares hspot) side

end Roles

/-- In a clause that reports an unknown token, any of the suggestions may be written in its place.
Then the clause does not report an unknown token there. -/
theorem Meaning.exists_mended {side : Side} {context : Context} {clause : Clause} {issue : Issue}
    {s : List Char} {offset : Nat} (hwritten : clause.IsWritten s offset)
    (h : on side context clause = .error issue) {field token expected : String}
    (hcause : issue.cause = .unknownToken field token expected) :
    ∃ u v w, s = u ++ (v ++ w) ∧ u ≠ [] ∧ issue.column = some (offset + u.length + 1) ∧
      IsTextOf token v ∧ ∀ suggestion ∈ suggestions expected,
        mended v suggestion ≠ [] ∧
        (∀ rest, (Operand v → Spares continuesWord (w ++ rest)) → Stops s rest →
          Stops (u ++ (mended v suggestion ++ w)) rest) ∧
        ∃ clause' : Clause, clause'.IsWritten (u ++ (mended v suggestion ++ w)) offset ∧
          ∀ issue', on side context clause' = .error issue' → issue'.column = issue.column →
            ¬ issue'.cause.IsUnknownToken := by
  obtain ⟨clause, role, rfl, hrole, hanswers⟩ := exists_role_of_unknownToken h hcause
  obtain ⟨column, text, choice, hcolumn, ⟨spot, hchoice, hholds⟩, hrefuses⟩ :=
    hanswers field token expected hcause
  obtain _ | hwritten := hwritten
  obtain ⟨u, v, w, rfl, rfl, hfor, hcut⟩ := hwritten.exists_isSpotCut hholds
  refine ⟨u, v, w, rfl, hcut.nonempty, hcolumn, ⟨text, hfor, hrefuses.token⟩, ?_⟩
  intro suggestion hsuggestion
  obtain ⟨hfits, htakes⟩ :=
    role.choices_offer _ hchoice suggestion (hrefuses.expected ▸ hsuggestion)
  obtain ⟨clause', hwritten', hmended⟩ := hcut.mend suggestion hfits
  refine ⟨mended_ne_nil hfits.ne_nil, fun rest => hcut.stops suggestion rest hfits,
    .keyword clause', .keyword hwritten', ?_⟩
  rintro issue' h' hcolumn' ⟨field', token', expected', hcause'⟩
  have hrole' := hmended.role?_eq hrole hchoice hholds hrefuses.takes
  rw [on_eq_read hrole'] at h'
  obtain ⟨column', text', choice', hissue', ⟨spot', hchoice', hholds'⟩, hrefuses'⟩ :=
    (role.read_answers context clause').error h' field' token' expected' hcause'
  have hsame : column' = offset + u.length + 1 := by
    rw [hcolumn', hcolumn] at hissue'
    exact (Option.some.inj hissue').symm
  -- The suggestion is taken, so another spot would have to stand at the same place.
  rcases Role.cases_of_mem_choices hchoice hchoice' with hentry | ⟨_, hspot, hspot'⟩ |
    ⟨_, hspot, hspot'⟩
  · cases hentry
    obtain ⟨-, rfl⟩ := hmended.holds.unique hholds'
    have hrefused := hrefuses'.takes
    rw [htakes] at hrefused
    cases hrefused
  · obtain rfl := hspot
    obtain rfl := hspot'
    exact hmended.holds.column_ne hholds' hwritten' hsame.symm
  · obtain rfl := hspot
    obtain rfl := hspot'
    exact hholds'.column_ne hmended.holds hwritten' hsame

end NpcScript
