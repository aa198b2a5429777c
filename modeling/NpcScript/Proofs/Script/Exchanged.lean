import NpcScript.Proofs.Clause.Role
import NpcScript.Proofs.Likeness.Exchanged

/-!
Lines in which one value or one clause is exchanged for another. The line is cut in three around the
text of the value or clause, and all other values and clauses stand in front of this text or behind
it. With another text in its place the line still spells an assignment or a dialogue line, and what
is not exchanged stays as it is, but for its columns.
-/

namespace NpcScript

open Grammar

/-! ### Assignments -/

namespace Grammar.Assignment

variable {assignment : Assignment} {line : List Char} {before after : List Value} {value : Value}

/-- An assignment is written as `u`, the text `v` of one of its values, and `w`. With another value
in its place all others stand in front of the text of the value or behind it. -/
structure IsValueCut (assignment : Assignment) (before : List Value) (value : Value)
    (after : List Value) (u v w : List Char) : Prop where
  written : value.IsWritten v u.length
  exchange : ∀ v', (Spares continuesWord v → Spares continuesWord v') → ∃ after',
    ∀ value', Value.IsWritten v' u.length value' →
      Assignment.IsWritten (u ++ (v' ++ w)) ⟨assignment.key, before ++ value' :: after'⟩ ∧
      ∀ other ∈ before ++ after',
        EndsBy (fun s offset value => Value.IsWritten s offset value) u.length other ∨
        BeginsFrom (fun s offset value => Value.IsWritten s offset value) (u.length + v'.length)
          other

theorem IsWritten.exists_isValueCut (h : assignment.IsWritten line)
    (hvalues : assignment.values = before ++ value :: after) :
    ∃ u v w, line = u ++ (v ++ w) ∧ assignment.IsValueCut before value after u v w := by
  obtain ⟨hstart, hkey, hlink, hrow, hne, hending⟩ := h
  rename_i start key link text ending values
  obtain rfl : values = before ++ value :: after := hvalues
  obtain ⟨u, v, w, rfl, hcut⟩ := hrow.exists_isCut
  have hlength : start.length + key.length + link.length + u.length =
      (start ++ (key ++ (link ++ u))).length := by
    simp only [List.length_append]
    omega
  refine ⟨start ++ (key ++ (link ++ u)), v, w ++ ending, by simp, hlength ▸ hcut.member, ?_⟩
  intro v' hspares
  have hbehind : start.length + key.length + link.length + u.length + v.length + v'.length =
      start.length + key.length + link.length + u.length + v'.length + v.length := by omega
  obtain ⟨after', hafter', -⟩ :=
    hcut.later.exists_moved (fun value _ => value.exists_moved) hbehind
  refine ⟨after', fun value' hvalue' => ⟨?_, fun other hother => ?_⟩⟩
  · have hne' := hvalue'.startsPiece.ne_nil
    -- The link may be empty if the first value begins with a quote.
    have hlink' : IsLink link (u ++ (v' ++ w)) := by
      cases hlink with
      | equals hlink => exact .equals hlink
      | blank hgap hvalues =>
          refine .blank hgap (hvalues.imp_right fun hvalues => ?_)
          cases u with
          | nil => exact (hspares (Spares.of_append (t := w) hvalues)).append hne' w
          | cons c u => exact hvalues
    rw [← hlength] at hvalue'
    simpa using Assignment.IsWritten.intro hstart hkey hlink'
      (hcut.put hvalue' True.intro hafter') (by simp) hending
  · rw [← hlength]
    rcases List.mem_append.mp hother with hother | hother
    · exact .inl (hcut.earlier other hother)
    · exact .inr (hafter'.beginsFrom hother)

end Grammar.Assignment

/-! ### Dialogue lines -/

def Side.other : Side → Side
  | before => after
  | after => before

namespace Grammar.DialogueForm

variable {form : DialogueForm} {line u v w : List Char} {side : Side} {before after : List Clause}
  {clause : Clause}

def place (form : DialogueForm) (side : Side) (before after others : List Clause)
    (clause : Clause) : DialogueForm :=
  (form.put others side.other).put (before ++ clause :: after) side

/-- A dialogue line is written as `u`, the text `v` of a clause on a side of the arrow, and `w`.
With another clause in its place all others stand in front of the text of the clause or behind it.
-/
structure IsClauseCut (form : DialogueForm) (side : Side) (before : List Clause) (clause : Clause)
    (after : List Clause) (u v w : List Char) : Prop where
  written : clause.IsWritten v u.length
  stops : side = .after → Stops v w
  exchange : ∀ v', v'.head? = v.head? → (side = .after → Stops v' w) → ∃ after' others',
    List.Forall₂ (Clause.Alike (.exchanged v.length v'.length)) after after' ∧
    List.Forall₂ (Clause.Alike (.exchanged v.length v'.length)) (form.on side.other) others' ∧
    (∀ other ∈ before ++ (after' ++ others'), EndsBy Clause.IsWritten u.length other ∨
      BeginsFrom Clause.IsWritten (u.length + v'.length) other) ∧
    ∀ clause', Clause.IsWritten v' u.length clause' →
      (form.place side before after' others' clause').IsSpelt (u ++ (v' ++ w))

@[simp] theorem on_place (form : DialogueForm) (side : Side) (before after others : List Clause)
    (clause : Clause) : (form.place side before after others clause).on side =
      before ++ clause :: after := by
  cases side <;> rfl

/-- Of the clause that is placed only what it comes to counts. -/
theorem map_on_place_congr {context : Context} {clause' : Clause} {after' others' : List Clause}
    (h : Meaning.on side context clause = Meaning.on side context clause') (side' : Side) :
    ((form.place side before after' others' clause).on side').map (Meaning.on side' context) =
      ((form.place side before after' others' clause').on side').map
        (Meaning.on side' context) := by
  cases side <;> cases side' <;> simp [place, put, Side.other, on, h]

@[simp] theorem trigger_place (form : DialogueForm) (side : Side)
    (before after others : List Clause) (clause : Clause) :
    (form.place side before after others clause).trigger = form.trigger := by
  simp [place]

/-- A form with an exchanged clause is like the form as it was, if the clauses are alike. -/
theorem alike_place {k k' : Nat} {after' others' : List Clause} {clause' : Clause}
    (hon : form.on side = before ++ clause :: after)
    (hclause : clause.Alike (.exchanged k k') clause')
    (hafter : List.Forall₂ (Clause.Alike (.exchanged k k')) after after')
    (hothers : List.Forall₂ (Clause.Alike (.exchanged k k')) (form.on side.other) others') :
    form.Alike (.exchanged k k') (form.place side before after' others' clause') := by
  have hbefore : List.Forall₂ (Clause.Alike (.exchanged k k')) before before :=
    List.forall₂_same.mpr fun clause _ => clause.alike_exchanged
  have hside : List.Forall₂ (Clause.Alike (.exchanged k k')) (form.on side)
      (before ++ clause' :: after') :=
    hon ▸ List.rel_append hbefore (.cons hclause hafter)
  cases side with
  | before => exact ⟨form.trigger.alike_exchanged, hside, hothers⟩
  | after => exact ⟨form.trigger.alike_exchanged, hothers, hside⟩

theorem IsSpelt.exists_isClauseCut (h : form.IsSpelt line)
    (hon : form.on side = before ++ clause :: after) :
    ∃ u v w, line = u ++ (v ++ w) ∧ form.IsClauseCut side before clause after u v w := by
  obtain ⟨hstart, htrigger, hbefore, hgap, htail⟩ := h
  rename_i start trigger text gap tail conditions others
  cases side with
  | before =>
      obtain rfl : conditions = before ++ clause :: after := hon
      obtain ⟨u, v, w, rfl, hcut⟩ := hbefore.exists_isCut
      have hlength : start.length + trigger.length + u.length =
          (start ++ (trigger ++ u)).length := by simp [Nat.add_assoc]
      refine ⟨start ++ (trigger ++ u), v, w ++ (gap ++ '-' :: '>' :: tail), by simp,
        hlength ▸ hcut.member, nofun, fun v' _ _ => ?_⟩
      have hbehind : start.length + trigger.length + u.length + v.length + v'.length =
          start.length + trigger.length + u.length + v'.length + v.length := by omega
      obtain ⟨after', hafter', halike⟩ :=
        hcut.later.exists_moved (fun clause _ => clause.exists_moved) hbehind
      have hlast : start.length + trigger.length + (u ++ (v ++ w)).length + gap.length + 2 +
          v'.length =
          start.length + trigger.length + (u ++ (v' ++ w)).length + gap.length + 2 +
            v.length := by
        simp only [List.length_append]
        omega
      obtain ⟨others', hothers', halike'⟩ := htail.exists_moved hlast
      refine ⟨after', others', halike.imp fun _ _ => Clause.Alike.ofMoved,
        halike'.imp fun _ _ => Clause.Alike.ofMoved, fun other hother => ?_,
        fun clause' hclause' => ?_⟩
      · rw [← hlength]
        simp only [List.mem_append] at hother
        rcases hother with hother | hother | hother
        · exact .inl (hcut.earlier other hother)
        · exact .inr (hafter'.beginsFrom hother)
        · refine .inr ((hothers'.beginsFrom hother).mono ?_)
          simp only [List.length_append]
          omega
      · rw [← hlength] at hclause'
        simpa [place, put, Side.other] using
          IsSpelt.intro hstart htrigger (hcut.put hclause' True.intro hafter') hgap hothers'
  | after =>
      obtain rfl : others = before ++ clause :: after := hon
      obtain ⟨u, v, w, rfl, hcut⟩ := htail.exists_isCut
      have hlength : start.length + trigger.length + text.length + gap.length + 2 + u.length =
          (start ++ (trigger ++ (text ++ (gap ++ '-' :: '>' :: u)))).length := by
        simp only [List.length_append, List.length_cons]
        omega
      refine ⟨start ++ (trigger ++ (text ++ (gap ++ '-' :: '>' :: u))), v, w, by simp,
        hlength ▸ hcut.member, fun _ => hcut.ends.1, fun v' hhead hstops => ?_⟩
      have hbehind : start.length + trigger.length + text.length + gap.length + 2 + u.length +
          v.length + v'.length = start.length + trigger.length + text.length + gap.length + 2 +
            u.length + v'.length + v.length := by omega
      obtain ⟨after', hafter', halike⟩ := hcut.later.exists_moved hbehind
      refine ⟨after', conditions, halike.imp fun _ _ => Clause.Alike.ofMoved,
        List.forall₂_same.mpr fun clause _ => clause.alike_exchanged, fun other hother => ?_,
        fun clause' hclause' => ?_⟩
      · rw [← hlength]
        simp only [List.mem_append] at hother
        rcases hother with hother | hother | hother
        · exact .inl (hcut.earlier other hother)
        · exact .inr (hafter'.beginsFrom hother)
        · exact .inl ((hbefore.endsBy hother).mono (by omega))
      · rw [← hlength] at hclause'
        simpa [place, put, Side.other] using
          IsSpelt.intro hstart htrigger hbefore hgap
            (hcut.put hclause' ⟨hstops rfl, hhead⟩ hafter')

end Grammar.DialogueForm

end NpcScript
