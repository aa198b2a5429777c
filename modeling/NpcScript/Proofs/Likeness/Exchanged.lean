import NpcScript.Proofs.Likeness.Moved
import NpcScript.Proofs.Likeness.Within

/-!
Texts in which one piece is exchanged for another. A text that spells a list is cut in three: what
stands in front of one member, the text of the member, and what stands behind it. Another member may
be put in the place of this one, with another text; then what stands in front stays what it is, and
what stands behind moves, since its columns change with the length of the exchanged text. In this
way an argument or a comparison is exchanged in a clause.
-/

namespace NpcScript

/-- Columns stay what they are, or move where `k` characters in front of them become `k'`. -/
def Likeness.exchanged (k k' : Nat) : Likeness where
  column := fun c c' => c' = c ∨ c + k' = c' + k
  fold := id
  isRecasing := .id
  literal := fun source source' => source.text = source'.text

/-- It matters by how much the columns move, not how long the texts are. -/
theorem Likeness.exchanged_eq {k k' l l' : Nat} (h : k + l' = l + k') :
    exchanged k k' = exchanged l l' := by
  have hcolumn : (fun c c' => c' = c ∨ c + k' = c' + k) = fun c c' => c' = c ∨ c + l' = c' + l := by
    funext c c'
    exact propext (or_congr_right (by omega))
  simp only [exchanged, hcolumn]

theorem Likeness.exchanged_keepsLiterals (k k' : Nat) : (Likeness.exchanged k k').KeepsLiterals :=
  fun _ _ h => h

namespace Grammar

open Reader (isGap)
open Text (IsLiteral)

/-! ### What stays and what moves -/

section Alike

variable {k k' : Nat}

theorem Lexeme.alike_exchanged (source : Lexeme) :
    source.AlikeLiteral (.exchanged k k') source :=
  ⟨⟨.inl rfl, .refl _⟩, rfl⟩

theorem Comparison.alike_exchanged (found : Comparison) :
    found.Alike (.exchanged k k') found :=
  ⟨found.operator.alike_exchanged.toAlike, found.operand.alike_exchanged.toAlike⟩

theorem Argument.alike_exchanged (argument : Argument) :
    argument.Alike (.exchanged k k') argument := by
  cases argument with
  | quoted source => exact .quoted source.alike_exchanged
  | operand source => exact .operand source.alike_exchanged.toAlike
  | comparison subject found =>
      exact .comparison subject.alike_exchanged.toAlike found.alike_exchanged

theorem Clause.alike_exchanged (clause : Clause) : clause.Alike (.exchanged k k') clause := by
  cases clause with
  | answer source => exact .answer source.alike_exchanged
  | keyword clause =>
      refine .keyword ⟨clause.keyword.alike_exchanged.toAlike, ?_, ?_⟩
      · cases clause.arguments with
        | none => exact .none
        | some arguments =>
            exact .some (List.forall₂_same.mpr fun argument _ => argument.alike_exchanged)
      · cases clause.comparison with
        | none => exact .none
        | some found => exact .some found.alike_exchanged

theorem Lexeme.Alike.ofMoved {source source' : Lexeme} (h : source.Alike (.moved k k') source') :
    source.Alike (.exchanged k k') source' :=
  ⟨.inr h.column, h.text⟩

theorem Lexeme.AlikeLiteral.ofMoved {source source' : Lexeme}
    (h : source.AlikeLiteral (.moved k k') source') :
    source.AlikeLiteral (.exchanged k k') source' :=
  ⟨h.toAlike.ofMoved, h.literal⟩

theorem Comparison.Alike.ofMoved {found found' : Comparison}
    (h : found.Alike (.moved k k') found') : found.Alike (.exchanged k k') found' :=
  ⟨h.operator.ofMoved, h.operand.ofMoved⟩

theorem Argument.Alike.ofMoved {argument argument' : Argument}
    (h : argument.Alike (.moved k k') argument') :
    argument.Alike (.exchanged k k') argument' := by
  cases h with
  | quoted hsource => exact .quoted hsource.ofMoved
  | operand hsource => exact .operand hsource.ofMoved
  | comparison hsubject hfound => exact .comparison hsubject.ofMoved hfound.ofMoved

theorem optionRel_imp {α : Type} {related weaker : α → α → Prop} {found found' : Option α}
    (h : Option.Rel related found found') (himp : ∀ a a', related a a' → weaker a a') :
    Option.Rel weaker found found' := by
  cases h with
  | none => exact .none
  | some h => exact .some (himp _ _ h)

theorem Clause.Alike.ofMoved {clause clause' : Clause} (h : clause.Alike (.moved k k') clause') :
    clause.Alike (.exchanged k k') clause' := by
  cases h with
  | answer hsource => exact .answer hsource.ofMoved
  | keyword hclause =>
      obtain ⟨hkeyword, harguments, hfound⟩ := hclause
      refine .keyword ⟨hkeyword.ofMoved, ?_, ?_⟩
      · exact optionRel_imp harguments fun _ _ h => h.imp fun _ _ => Argument.Alike.ofMoved
      · exact optionRel_imp hfound fun _ _ => Comparison.Alike.ofMoved

end Alike

/-! ### Lists -/

section Lists

variable {α : Type} {separator : List Char → Prop} {item : List Char → Nat → α → Prop}
  {s : List Char} {offset : Nat} {before after : List α} {a : α}

def EndsBy (item : List Char → Nat → α → Prop) (hi : Nat) (a : α) : Prop :=
  ∃ t offset, item t offset a ∧ offset + t.length ≤ hi

def BeginsFrom (item : List Char → Nat → α → Prop) (lo : Nat) (a : α) : Prop :=
  ∃ t offset, item t offset a ∧ lo ≤ offset

theorem EndsBy.mono {hi hi' : Nat} (h : EndsBy item hi a) (hle : hi ≤ hi') :
    EndsBy item hi' a := by
  obtain ⟨t, offset, ht, hend⟩ := h
  exact ⟨t, offset, ht, hend.trans hle⟩

theorem BeginsFrom.mono {lo lo' : Nat} (h : BeginsFrom item lo a) (hle : lo' ≤ lo) :
    BeginsFrom item lo' a := by
  obtain ⟨t, offset, ht, hbegin⟩ := h
  exact ⟨t, offset, ht, hle.trans hbegin⟩

theorem IsChain.endsBy (h : IsChain separator item s offset before) (ha : a ∈ before) :
    EndsBy item (offset + s.length) a := by
  obtain ⟨t, offset', ht, -, hend⟩ := h.exists_of_mem ha
  exact ⟨t, offset', ht, hend⟩

theorem IsChain.beginsFrom (h : IsChain separator item s offset before) (ha : a ∈ before) :
    BeginsFrom item offset a := by
  obtain ⟨t, offset', ht, hle, -⟩ := h.exists_of_mem ha
  exact ⟨t, offset', ht, hle⟩

theorem IsTail.beginsFrom {clauses : List Clause} {clause : Clause}
    (h : IsTail separator s offset clauses) (hclause : clause ∈ clauses) :
    BeginsFrom Clause.IsWritten offset clause := by
  induction h with
  | nil => cases hclause
  | cons hsep hfound hstops hothers ih =>
      rcases List.mem_cons.mp hclause with rfl | hclause
      · exact ⟨_, _, hfound, by omega⟩
      · exact (ih hclause).mono (by omega)

/-- A member whose text is not empty has the column where this text begins. -/
def IsColumn (item : List Char → Nat → α → Prop) (column : α → Nat) : Prop :=
  ∀ {t : List Char} {offset : Nat} {a : α}, item t offset a → column a = offset + 1 ∧ t ≠ []

theorem EndsBy.column_le {column : α → Nat} {hi : Nat} (h : EndsBy item hi a)
    (hcolumn : IsColumn item column) : column a ≤ hi := by
  obtain ⟨t, offset, ht, hend⟩ := h
  obtain ⟨hfirst, hne⟩ := hcolumn ht
  have hpos := List.length_pos_iff.mpr hne
  omega

theorem BeginsFrom.lt_column {column : α → Nat} {lo : Nat} (h : BeginsFrom item lo a)
    (hcolumn : IsColumn item column) : lo < column a := by
  obtain ⟨t, offset, ht, hbegin⟩ := h
  obtain ⟨hfirst, -⟩ := hcolumn ht
  omega

/-- A list is written as `u`, the text `v` of its member `a`, and `w`. Where the text of another
member fits in front of what others are written as, all of this may stand behind `u` instead. -/
structure IsCut (item : List Char → Nat → α → Prop) (fits : List Char → List Char → Prop)
    (others whole : List Char → Nat → List α → Prop) (offset : Nat) (before : List α) (a : α)
    (after : List α) (u v w : List Char) : Prop where
  member : item v (offset + u.length) a
  ends : fits v w
  earlier : ∀ b ∈ before, EndsBy item (offset + u.length) b
  later : others w (offset + u.length + v.length) after
  put : ∀ {v' w' : List Char} {a' : α} {after' : List α}, item v' (offset + u.length) a' →
    fits v' w' → others w' (offset + u.length + v'.length) after' →
    whole (u ++ (v' ++ w')) offset (before ++ a' :: after')

/-- One more member in front of a list that is cut. -/
theorem IsCut.prepend {fits : List Char → List Char → Prop}
    {others whole whole' : List Char → Nat → List α → Prop} {t u v w : List Char} {b : α}
    (h : IsCut item fits others whole (offset + t.length) before a after u v w)
    (hb : EndsBy item (offset + t.length) b)
    (hwhole : ∀ {v' w' as}, fits v' w' → whole (u ++ (v' ++ w')) (offset + t.length) as →
      whole' (t ++ (u ++ (v' ++ w'))) offset (b :: as)) :
    IsCut item fits others whole' offset (b :: before) a after (t ++ u) v w := by
  have hlength : offset + (t ++ u).length = offset + t.length + u.length := by
    rw [List.length_append, Nat.add_assoc]
  refine ⟨hlength ▸ h.member, h.ends, ?_, hlength ▸ h.later, ?_⟩
  · intro b' hb'
    rcases List.mem_cons.mp hb' with rfl | hb'
    · exact hb.mono (by omega)
    · exact (h.earlier b' hb').mono (by omega)
  · intro v' w' a' after' ha' hfits hafter
    rw [hlength] at ha' hafter
    rw [List.append_assoc]
    exact hwhole hfits (h.put ha' hfits hafter)

theorem IsChain.exists_isCut (h : IsChain separator item s offset (before ++ a :: after)) :
    ∃ u v w, s = u ++ (v ++ w) ∧ IsCut item (fun _ _ => True) (IsChain separator item)
      (IsChain separator item) offset before a after u v w := by
  induction before generalizing s offset with
  | nil =>
      obtain ⟨⟩ | ⟨hsep, ha, hafter⟩ := h
      rename_i sep v w
      exact ⟨sep, v, w, rfl, ha, True.intro, by simp, hafter,
        fun ha' _ hafter' => .cons hsep ha' hafter'⟩
  | cons b before ih =>
      obtain ⟨⟩ | ⟨hsep, hb, hothers⟩ := h
      rename_i sep t others
      rw [Nat.add_assoc, ← List.length_append] at hothers
      obtain ⟨u, v, w, rfl, hcut⟩ := ih hothers
      refine ⟨sep ++ t ++ u, v, w, by simp, hcut.prepend ⟨t, _, hb, ?_⟩ ?_⟩
      · rw [List.length_append]
        omega
      · intro v' w' as _ has
        rw [List.length_append, ← Nat.add_assoc] at has
        simpa using IsChain.cons hsep hb has

theorem IsRow.exists_isCut (h : IsRow separator item s offset (before ++ a :: after)) :
    ∃ u v w, s = u ++ (v ++ w) ∧ IsCut item (fun _ _ => True) (IsChain separator item)
      (IsRow separator item) offset before a after u v w := by
  cases before with
  | nil =>
      obtain ⟨⟩ | ⟨ha, hafter⟩ := h
      rename_i v w
      refine ⟨[], v, w, rfl, ha, True.intro, by simp, hafter, ?_⟩
      intro v' w' a' after' ha' _ hafter'
      exact IsRow.cons (s := v') ha' hafter'
  | cons b before =>
      obtain ⟨⟩ | ⟨hb, hothers⟩ := h
      rename_i t others
      obtain ⟨u, v, w, rfl, hcut⟩ := hothers.exists_isCut
      exact ⟨t ++ u, v, w, by simp, hcut.prepend ⟨t, _, hb, Nat.le_refl _⟩
        fun _ has => .cons hb has⟩

theorem IsParenthesised.exists_isCut (h : IsParenthesised item s offset (before ++ a :: after)) :
    ∃ u v w, s = u ++ (v ++ w) ∧
      IsCut item (fun _ _ => True)
        (fun w offset as => ∃ row gap, w = row ++ (gap ++ [')']) ∧ IsGap gap ∧
          IsChain (IsMark ',') item row offset as)
        (IsParenthesised item) offset before a after u v w := by
  generalize has : before ++ a :: after = as at h
  obtain ⟨hbefore, hinside, hafter⟩ := h
  rename_i gap inside gap'
  subst has
  obtain ⟨u, v, w, rfl, hcut⟩ := hinside.exists_isCut
  have hlength : offset + ('(' :: (gap ++ u)).length = offset + 1 + gap.length + u.length := by
    rw [List.length_cons, List.length_append]
    omega
  refine ⟨'(' :: (gap ++ u), v, w ++ (gap' ++ [')']), by simp, hlength ▸ hcut.member, True.intro,
    ?_, ⟨w, gap', rfl, hafter, hlength ▸ hcut.later⟩, ?_⟩
  · exact fun b hb => (hcut.earlier b hb).mono (by omega)
  · rintro v' _ a' after' ha' - ⟨row, gap'', rfl, hgap, hrow⟩
    rw [hlength] at ha' hrow
    simpa using IsParenthesised.intro hbefore (hcut.put ha' True.intro hrow) hgap

/-- Behind a clause of a tail stands another tail. The clause in front is not continued as long as
the exchanged one begins with the same character. -/
theorem IsTail.exists_isCut {before after : List Clause} {a : Clause}
    (h : IsTail separator s offset (before ++ a :: after)) :
    ∃ u v w, s = u ++ (v ++ w) ∧
      IsCut Clause.IsWritten (fun v' w' => Stops v' w' ∧ v'.head? = v.head?)
        (IsTail IsLooseBreak) (IsTail separator) offset before a after u v w := by
  induction before generalizing separator s offset with
  | nil =>
      obtain _ | ⟨hsep, ha, hstops, hafter⟩ := h
      rename_i sep v w
      exact ⟨sep, v, w, rfl, ha, ⟨hstops, rfl⟩, by simp, hafter,
        fun ha' hfits hafter' => .cons hsep ha' hfits.1 hafter'⟩
  | cons b before ih =>
      obtain _ | ⟨hsep, hb, hstops, hothers⟩ := h
      rename_i sep t others
      rw [Nat.add_assoc, ← List.length_append] at hothers
      obtain ⟨u, v, w, rfl, hcut⟩ := ih hothers
      refine ⟨sep ++ t ++ u, v, w, by simp, hcut.prepend ⟨t, _, hb, ?_⟩ ?_⟩
      · rw [List.length_append]
        omega
      · rintro v' w' as ⟨-, hhead⟩ has
        rw [List.length_append, ← Nat.add_assoc] at has
        have hstarts : StartsAs (u ++ (v ++ w)) (u ++ (v' ++ w')) := by
          refine StartsAs.append (fun c hc _ => ?_) u
          obtain ⟨d, v, rfl⟩ := List.exists_cons_of_ne_nil hcut.member.startsPiece.ne_nil
          rwa [List.head?_append, hhead] at hc
        simpa using IsTail.cons hsep hb (hstops.of_head? hstarts) has

end Lists

/-! ### Clauses -/

section Clauses

variable {s : List Char} {offset : Nat} {clause : KeywordClause} {before after : List Argument}
  {a : Argument}

/-- A clause with a list of arguments is written as `u`, the text `v` of the argument `a`, and `w`.
-/
structure KeywordClause.IsArgumentCut (clause : KeywordClause) (offset : Nat)
    (before : List Argument) (a : Argument) (after : List Argument) (u v w : List Char) : Prop where
  argument : a.IsWritten v (offset + u.length)
  nonempty : u ≠ []
  stops : ∀ v' rest, Stops (u ++ (v ++ w)) rest → Stops (u ++ (v' ++ w)) rest
  exchange : ∀ v' : List Char, ∃ after' found',
    List.Forall₂ (Argument.Alike (.moved v.length v'.length)) after after' ∧
    Option.Rel (Comparison.Alike (.moved v.length v'.length)) clause.comparison found' ∧
    ∀ a', Argument.IsWritten v' (offset + u.length) a' →
      KeywordClause.IsWritten (u ++ (v' ++ w)) offset
        ⟨clause.keyword, some (before ++ a' :: after'), found'⟩

theorem KeywordClause.IsWritten.exists_isArgumentCut (h : clause.IsWritten s offset)
    (harguments : clause.arguments = some (before ++ a :: after)) :
    ∃ u v w, s = u ++ (v ++ w) ∧ clause.IsArgumentCut offset before a after u v w := by
  obtain ⟨hkeyword, hoptional, hfound⟩ := h
  rename_i keyword _ t arguments found
  obtain rfl : arguments = some (before ++ a :: after) := harguments
  obtain _ | ⟨hgap, hlist⟩ := hoptional
  rename_i gap list
  obtain ⟨u, v, w, rfl, hcut⟩ := hlist.exists_isCut
  obtain ⟨row, gap', rfl, hgap', hrow⟩ := hcut.later
  have hlength : offset + (keyword ++ (gap ++ u)).length =
      offset + keyword.length + gap.length + u.length := by
    simp only [List.length_append]
    omega
  refine ⟨keyword ++ (gap ++ u), v, row ++ (gap' ++ ')' :: t), by simp, hlength ▸ hcut.member,
    ?_, ?_, ?_⟩
  · exact fun hnil => hkeyword.startsPiece.ne_nil (List.append_eq_nil_iff.mp hnil).1
  · intro v' rest hstops
    -- Neither text goes on over the closing parenthesis.
    have ht : Stops t rest :=
      Stops.of_append (t := keyword ++ (gap ++ u) ++ (v ++ (row ++ (gap' ++ [')']))))
        (by simpa using hstops)
    have hclosing : ∀ c ∈ [')'], continuesWord c = false :=
      List.forall_mem_singleton.mpr (by decide)
    simpa using ht.append (by simp) hclosing
      (keyword ++ (gap ++ u) ++ (v' ++ (row ++ gap')))
  · intro v'
    have hbehind : offset + keyword.length + gap.length + u.length + v.length + v'.length =
        offset + keyword.length + gap.length + u.length + v'.length + v.length := by omega
    obtain ⟨after', hafter', halike⟩ :=
      hrow.exists_moved (fun argument _ => argument.exists_moved) hbehind
    have hlast : offset + keyword.length + (gap ++ (u ++ (v ++ (row ++ (gap' ++ [')']))))).length +
        v'.length =
        offset + keyword.length + (gap ++ (u ++ (v' ++ (row ++ (gap' ++ [')']))))).length +
          v.length := by
      simp only [List.length_append]
      omega
    obtain ⟨found', hfound', halike'⟩ :=
      hfound.exists_moved (fun comparison _ => comparison.exists_moved) hlast
    refine ⟨after', found', halike, halike', fun a' ha' => ?_⟩
    rw [hlength] at ha'
    have hlist' := hcut.put ha' True.intro ⟨row, gap', rfl, hgap', hafter'⟩
    simpa using KeywordClause.IsWritten.intro hkeyword (.some hgap hlist') hfound'

/-- With one argument exchanged and the rest moved, a clause is like it was if the arguments are
alike. -/
theorem KeywordClause.alike_exchange (clause : KeywordClause) {k k' : Nat} {a' : Argument}
    {after' : List Argument} {found' : Option Comparison}
    (harguments : clause.arguments = some (before ++ a :: after))
    (ha : a.Alike (.exchanged k k') a')
    (hafter : List.Forall₂ (Argument.Alike (.moved k k')) after after')
    (hfound : Option.Rel (Comparison.Alike (.moved k k')) clause.comparison found') :
    clause.Alike (.exchanged k k') ⟨clause.keyword, some (before ++ a' :: after'), found'⟩ := by
  refine ⟨clause.keyword.alike_exchanged.toAlike, ?_, ?_⟩
  · rw [harguments]
    have hbefore : List.Forall₂ (Argument.Alike (.exchanged k k')) before before :=
      List.forall₂_same.mpr fun argument _ => argument.alike_exchanged
    exact .some (List.rel_append hbefore (.cons ha (hafter.imp fun _ _ => Argument.Alike.ofMoved)))
  · exact optionRel_imp hfound fun _ _ => Comparison.Alike.ofMoved

/-- The comparison behind a clause ends the clause, so that nothing moves when it is exchanged. -/
theorem KeywordClause.IsWritten.exists_comparison_cut {found : Comparison}
    (h : clause.IsWritten s offset) (hcomparison : clause.comparison = some found) :
    ∃ u v, s = u ++ v ∧ u ≠ [] ∧ found.IsWritten v (offset + u.length) ∧
      ∀ v' found', Comparison.IsWritten v' (offset + u.length) found' →
        KeywordClause.IsWritten (u ++ v') offset { clause with comparison := some found' } := by
  obtain ⟨hkeyword, harguments, hfound⟩ := h
  rename_i keyword list t arguments comparison
  obtain rfl : comparison = some found := hcomparison
  obtain _ | ⟨hgap, hwritten⟩ := hfound
  rename_i gap v
  have hlength : offset + (keyword ++ (list ++ gap)).length =
      offset + keyword.length + list.length + gap.length := by
    simp only [List.length_append]
    omega
  refine ⟨keyword ++ (list ++ gap), v, by simp, ?_, hlength ▸ hwritten, fun v' found' hfound' => ?_⟩
  · exact fun hnil => hkeyword.startsPiece.ne_nil (List.append_eq_nil_iff.mp hnil).1
  · rw [hlength] at hfound'
    simpa using KeywordClause.IsWritten.intro hkeyword harguments (.some hgap hfound')

end Clauses

end Grammar

end NpcScript
