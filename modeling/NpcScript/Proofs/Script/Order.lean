import NpcScript.Proofs.Checked
import NpcScript.Proofs.Likeness.Within
import NpcScript.Proofs.Script.Clauses
import NpcScript.Proofs.Script.Locality

/-!
Where diagnostics stand and in which order. Every part of a line reports what is wrong with it
inside the stretch where it is written, and the parts are read from left to right, so the columns of
a line only grow. Lines are read one after another.
-/

namespace NpcScript

open Grammar (Assignment Value Clause DialogueForm IsChain IsRow IsLooseBreak)

/-! ### Issues in order -/

/-- The issues are found one behind another, all of them behind `lo` and none behind `hi`. -/
inductive Ascends : Nat → Nat → List Issue → Prop
  | nil {lo hi : Nat} (h : lo ≤ hi) : Ascends lo hi []
  | cons {lo c hi : Nat} {issue : Issue} {issues : List Issue} (hcolumn : issue.column = some c)
      (hlo : lo < c) (hothers : Ascends c hi issues) : Ascends lo hi (issue :: issues)

namespace Ascends

variable {lo mid hi : Nat} {issues more : List Issue}

theorem le (h : Ascends lo hi issues) : lo ≤ hi := by
  induction h with
  | nil h => exact h
  | cons hcolumn hlo hothers ih => omega

theorem widen (h : Ascends lo hi issues) {lo' hi' : Nat} (hlo : lo' ≤ lo) (hhi : hi ≤ hi') :
    Ascends lo' hi' issues := by
  induction h generalizing lo' with
  | nil h => exact .nil (by omega)
  | cons hcolumn hlt hothers ih => exact .cons hcolumn (by omega) (ih (Nat.le_refl _) hhi)

theorem append (h : Ascends lo mid issues) (hmore : Ascends mid hi more) :
    Ascends lo hi (issues ++ more) := by
  induction h with
  | nil h => exact hmore.widen h (Nat.le_refl _)
  | cons hcolumn hlo hothers ih => exact .cons hcolumn hlo (ih hmore)

theorem exists_column (h : Ascends lo hi issues) {issue : Issue} (hissue : issue ∈ issues) :
    ∃ c, issue.column = some c ∧ lo < c ∧ c ≤ hi := by
  induction h with
  | nil h => cases hissue
  | cons hcolumn hlo hothers ih =>
      rcases List.mem_cons.mp hissue with rfl | hissue
      · exact ⟨_, hcolumn, hlo, hothers.le⟩
      · obtain ⟨c, hc, hlt, hle⟩ := ih hissue
        exact ⟨c, hc, by omega, hle⟩

/-- What is wrong with a piece is wrong where the piece stands. -/
theorem of_alike (h : List.Forall₂ (Issue.Alike (.within lo hi)) issues issues)
    (hsingle : issues.length ≤ 1) (hle : lo ≤ hi) : Ascends lo hi issues := by
  cases issues with
  | nil => exact .nil hle
  | cons issue others =>
      obtain rfl : others = [] := List.length_eq_zero_iff.mp (by simpa using hsingle)
      obtain ⟨⟨⟨c, c', hc, -, hlo, hhi⟩, -⟩, -⟩ := List.forall₂_cons.mp h
      exact .cons hc hlo (.nil hhi)

theorem of_agree {α : Type} {good : α → α → Prop} {result : Checked α}
    (h : Agree good (List.Forall₂ (Issue.Alike (.within lo hi))) result result)
    (hsingle : result.issues.length ≤ 1) (hle : lo ≤ hi) : Ascends lo hi result.issues := by
  cases h with
  | ok h => exact .nil hle
  | error h => exact of_alike h hsingle hle

/-- A single part of a statement has its issue where it stands, if it has one. -/
theorem ofPart {α : Type} {good : α → α → Prop} {result : Except Issue α}
    (h : Agree good (Issue.Alike (.within lo hi)) result result) (hle : lo ≤ hi) :
    Ascends lo hi (Checked.ofPart result).issues :=
  of_agree h.ofPart (Checked.length_issues_ofPart_le result) hle

/-- What is read in a second step is read of the same stretch, if the first step did not fail. -/
theorem bind {α β : Type} {first : Checked α} {next : α → Checked β}
    (h : Ascends lo hi first.issues)
    (hnext : ∀ a, first = .ok a → Ascends lo hi (next a).issues) :
    Ascends lo hi (first >>= next : Checked β).issues := by
  cases first with
  | ok a => exact hnext a rfl
  | error issues => exact h

end Ascends

/-! ### Parts from left to right -/

section Parts

variable {α : Type} {separator : List Char → Prop} {item : List Char → Nat → α → Prop}
  {s : List Char} {offset : Nat} {as : List α} {parts : List (List Issue)}

theorem Grammar.IsChain.ascends (h : IsChain separator item s offset as)
    (hparts : List.Forall₂ (fun a issues => ∀ s offset, item s offset a →
      Ascends offset (offset + s.length) issues) as parts) :
    Ascends offset (offset + s.length) parts.flatten := by
  induction h generalizing parts with
  | nil =>
      cases hparts
      exact .nil (Nat.le_refl _)
  | cons hsep ha hothers ih =>
      cases hparts with
      | cons hpart hparts =>
          have hfirst := (hpart _ _ ha).widen (Nat.le_add_right _ _) (Nat.le_refl _)
          refine (hfirst.append (ih hparts)).widen (Nat.le_refl _) ?_
          simp only [List.length_append]
          omega

theorem Grammar.IsRow.ascends (h : IsRow separator item s offset as)
    (hparts : List.Forall₂ (fun a issues => ∀ s offset, item s offset a →
      Ascends offset (offset + s.length) issues) as parts) :
    Ascends offset (offset + s.length) parts.flatten := by
  cases h with
  | nil =>
      cases hparts
      exact .nil (Nat.le_refl _)
  | cons ha hothers =>
      cases hparts with
      | cons hpart hparts =>
          refine ((hpart _ _ ha).append (hothers.ascends hparts)).widen (Nat.le_refl _) ?_
          simp only [List.length_append]
          omega

end Parts

/-! ### Assignments -/

section Statements

variable {assignment : Assignment} {line : List Char}

theorem Grammar.Assignment.IsWritten.alike_within (h : assignment.IsWritten line) :
    assignment.Alike (.within 0 line.length) assignment := by
  obtain ⟨hstart, hkey, hlink, hvalues, hne, hending⟩ := h
  refine ⟨rfl, List.forall₂_same.mpr fun value hvalue => ?_, hne⟩
  obtain ⟨t, offset, ht, hle, hend⟩ := hvalues.exists_of_mem hvalue
  refine ht.alike_within (Nat.zero_le _) ?_
  simp only [List.length_append]
  omega

/-- The values of an assignment stand one behind another. -/
theorem Grammar.Assignment.IsWritten.ascends (h : assignment.IsWritten line)
    {parts : List (List Issue)}
    (hparts : List.Forall₂ (fun value issues => ∀ lo hi, lo ≤ hi →
      value.Alike (.within lo hi) value → Ascends lo hi issues) assignment.values parts) :
    Ascends 0 line.length parts.flatten := by
  obtain ⟨hstart, hkey, hlink, hvalues, hne, hending⟩ := h
  refine (hvalues.ascends (hparts.imp fun value issues hissues s offset hs => ?_)).widen
    (Nat.zero_le _) ?_
  · refine hissues _ _ (Nat.le_add_right _ _) ?_
    exact hs.alike_within (Nat.le_refl _) (Nat.le_refl _)
  · simp only [List.length_append]
    omega

theorem Grammar.Assignment.values_of_triple {expected : String} {first second third : Value}
    (h : assignment.triple expected = .ok (first, second, third)) :
    assignment.values = [first, second, third] := by
  unfold triple at h
  split at h
  · cases h
    assumption
  · cases h

theorem Grammar.Assignment.values_of_quadruple {expected : String}
    {first second third fourth : Value}
    (h : assignment.quadruple expected = .ok (first, second, third, fourth)) :
    assignment.values = [first, second, third, fourth] := by
  unfold quadruple at h
  split at h
  · cases h
    assumption
  · cases h

variable (h : assignment.IsWritten line)

include h

/-- Numbers that are read one by one, each in a place of its own. -/
theorem ascends_naturals (places : List NumericPlace)
    (hlength : assignment.values.length = places.length) :
    Ascends 0 line.length (assignment.values.zipWith (fun value place =>
      (Checked.ofPart (value.natural place)).issues) places).flatten := by
  refine h.ascends ?_
  generalize assignment.values = values at hlength
  induction values generalizing places with
  | nil => exact .nil
  | cons value values ih =>
      cases places with
      | nil => simp at hlength
      | cons place places =>
          refine .cons (fun lo hi hle halike => ?_) (ih _ (by simpa using hlength))
          exact .ofPart (Value.natural_alike halike place) hle

theorem Appearance.ofAssignment_ascends (key : AppearanceKey) :
    Ascends 0 line.length (ofAssignment key assignment).issues := by
  have halike := h.alike_within
  cases key with
  | hairId | beardId =>
      exact .of_agree (ofAssignment_alike halike _) (Checked.length_issues_ofPart_le _)
        (Nat.zero_le _)
  | colorHair | colorSkin =>
      refine .bind (.ofPart (Assignment.triple_alike halike _) (Nat.zero_le _)) ?_
      rintro ⟨red, green, blue⟩ hvalues
      have hvalues := Assignment.values_of_triple (Checked.ofPart_eq_ok_iff.mp hvalues)
      have hcolor (redPlace greenPlace bluePlace : NumericPlace) :
          (Color.ofValues redPlace greenPlace bluePlace red green blue).issues =
            (assignment.values.zipWith (fun value place =>
              (Checked.ofPart (value.natural place)).issues)
              [redPlace, greenPlace, bluePlace]).flatten := by
        refine (Checked.issues_map _ _).trans ?_
        simp [Checked.issues_both, hvalues]
      refine .bind ?_ fun _ _ => .nil (Nat.zero_le _)
      rw [hcolor]
      exact ascends_naturals h _ (by rw [hvalues]; rfl)

theorem Guard.ofAssignment_ascends (key : GuardKey) :
    Ascends 0 line.length (ofAssignment key assignment).issues := by
  have halike := h.alike_within
  have hagree := ofAssignment_alike halike (Likeness.within_keepsLiterals _ _) key
  cases key with
  | guardRange =>
      refine .bind (.ofPart (Assignment.quadruple_alike halike _) (Nat.zero_le _)) ?_
      rintro ⟨north, south, west, east⟩ hvalues
      have hvalues := Assignment.values_of_quadruple (Checked.ofPart_eq_ok_iff.mp hvalues)
      refine .bind ?_ fun _ _ => .nil (Nat.zero_le _)
      have hsides := ascends_naturals h [.guardNorth, .guardSouth, .guardWest, .guardEast]
        (by rw [hvalues]; rfl)
      simpa [Checked.issues_both, hvalues] using hsides
  | guardWarpTarget =>
      exact .of_agree hagree (Checked.length_issues_ofPart_le _) (Nat.zero_le _)
  | warpedMonsterMsg | warpedPlayerMsg | hitPlayerMsg =>
      refine .of_agree hagree ?_ (Nat.zero_le _)
      exact (congrArg List.length (Checked.issues_map _ _)).trans_le
        (Checked.length_issues_ofPart_le _)

theorem Trade.ofAssignment_ascends (context : Context) (form : TradeForm) :
    Ascends 0 line.length (ofAssignment context line form assignment).issues := by
  have halike := h.alike_within
  have hitem {lo hi : Nat} (hle : lo ≤ hi) {value : Value}
      (hvalue : value.Alike (.within lo hi) value) :
      Ascends lo hi (Checked.ofPart (tradedItemOfValue context line assignment.key form.expected
        value)).issues :=
    .ofPart (tradedItemOfValue_alike (.refl _) form.expected hvalue context (.refl _)) hle
  cases form with
  | list mode =>
      have hissues : (ofAssignment context line (.list mode) assignment).issues = _ :=
        Checked.issues_map _ _
      rw [hissues, Checked.issues_each]
      refine h.ascends (List.forall₂_map_right_iff.mpr ?_)
      exact List.forall₂_same.mpr fun value _ lo hi hle hvalue => hitem hle hvalue
  | single mode =>
      have hascends := @h.ascends
      have hne := halike.ne_nil
      simp only [ofAssignment]
      generalize assignment.values = values at hne hascends
      cases values with
      | nil => exact absurd rfl hne
      | cons first others =>
          refine (Checked.issues_map _ _).symm ▸ ?_
          rw [Checked.issues_both, Checked.issues_each, ← List.flatten_cons]
          refine hascends (.cons (fun lo hi hle hvalue => hitem hle hvalue) ?_)
          refine List.forall₂_map_right_iff.mpr (List.forall₂_same.mpr ?_)
          intro value _ lo hi hle hvalue
          exact .ofPart (TradeTerm.ofValue_alike (Likeness.within_keepsLiterals _ _) (.refl _)
            (TradeForm.single mode).expected hvalue) hle
  | message kind =>
      refine .of_agree (ofAssignment_alike halike (Likeness.within_keepsLiterals _ _) context
        (.refl _) (.message kind)) ?_ (Nat.zero_le _)
      exact (congrArg List.length (Checked.issues_map _ _)).trans_le
        (Checked.length_issues_ofPart_le _)

namespace AssignmentKey

theorem warnings_ascend (key : AssignmentKey) :
    Ascends 0 line.length (key.warnings assignment) := by
  unfold warnings
  split
  · rw [List.filterMap_eq_flatMap_toList]
    refine h.ascends (List.forall₂_map_right_iff.mpr (List.forall₂_same.mpr ?_))
    intro value _ lo hi hle hvalue
    have hwarning := Value.quoteWarning?_alike hvalue
    generalize value.quoteWarning? = warning at hwarning
    cases hwarning with
    | none => exact .nil hle
    | some hissue => exact .of_alike (.cons hissue .nil) (Nat.le_refl _) hle
  · exact .nil (Nat.zero_le _)

theorem statement_ascends (context : Context) (key : AssignmentKey) :
    Ascends 0 line.length (key.statement context line assignment).issues := by
  have hsingle {α : Type} (make : α → Statement) (result : Except Issue α)
      (hkey : key.statement context line assignment = make <$> Checked.ofPart result) :
      Ascends 0 line.length (key.statement context line assignment).issues := by
    refine .of_agree (key.statement_alike h.alike_within (Likeness.within_keepsLiterals _ _) context
      (.refl _)) ?_ (Nat.zero_le _)
    rw [hkey, Checked.issues_map]
    exact Checked.length_issues_ofPart_le result
  have hseveral {α : Type} (make : α → Statement) (result : Checked α)
      (hresult : Ascends 0 line.length result.issues) :
      Ascends 0 line.length (make <$> result : Checked Statement).issues := by
    rwa [Checked.issues_map]
  cases key with
  | identity key => exact hsingle .identity _ rfl
  | appearance key => exact hseveral .appearance _ (Appearance.ofAssignment_ascends h key)
  | equipment slot => exact hsingle (.equipment slot) _ rfl
  | trade key => exact hseveral .trade _ (Trade.ofAssignment_ascends h context key.form)
  | guard key => exact hseveral .guard _ (Guard.ofAssignment_ascends h key)
  | cycleText => exact hsingle .cycleText _ rfl

end AssignmentKey

end Statements

/-! ### Dialogue lines -/

theorem Grammar.DialogueForm.issues_ascend {form : DialogueForm} {line : List Char}
    (h : form.IsWritten IsLooseBreak line) (context : Context) :
    Ascends 0 line.length (form.issues context) := by
  let issueOf (mean : Clause → Except Issue Meaning) (clause : Clause) : List Issue :=
    (Meaning.issue? (mean clause)).toList
  have hissues : form.issues context =
      (form.before.map (issueOf (Meaning.before context))).flatten ++
        (form.after.map (issueOf (Meaning.after context))).flatten := by
    rw [issues, meanings, List.filterMap_append, List.filterMap_map, List.filterMap_map,
      List.filterMap_eq_flatMap_toList, List.filterMap_eq_flatMap_toList]
    rfl
  have hsingle {result : Except Issue Meaning} {lo hi : Nat} (hle : lo ≤ hi)
      (hresult : Agree (fun found found' => found.mapText id = found'.mapText id)
        (Issue.Alike (.within lo hi)) result result) :
      Ascends lo hi (Meaning.issue? result).toList := by
    cases hresult with
    | ok hfound => exact .nil hle
    | error hissue => exact .of_alike (.cons hissue .nil) (Nat.le_refl _) hle
  obtain ⟨hstart, htrigger, hbefore, hgap, hgap', hafter, hending⟩ := h
  rw [hissues]
  refine Ascends.append ((hbefore.ascends ?_).widen (Nat.zero_le _) (Nat.le_refl _))
    ((hafter.ascends ?_).widen ?_ ?_)
  · refine List.forall₂_map_right_iff.mpr (List.forall₂_same.mpr fun clause _ s offset hs => ?_)
    exact hsingle (Nat.le_add_right _ _) (Meaning.before_alike context
      (Likeness.within_keepsLiterals _ _) (hs.alike_within (Nat.le_refl _) (Nat.le_refl _)))
  · refine List.forall₂_map_right_iff.mpr (List.forall₂_same.mpr fun clause _ s offset hs => ?_)
    exact hsingle (Nat.le_add_right _ _) (Meaning.after_alike context
      (Likeness.within_keepsLiterals _ _) (hs.alike_within (Nat.le_refl _) (Nat.le_refl _)))
  · omega
  · simp only [List.length_append, List.length_cons]
    omega

/-! ### Lines -/

/-- A malformed line is wrong at one of its characters, or just behind the last one. -/
theorem ascends_malformed (keyword : List Char) (expected : String) (line : List Char)
    (offset : Nat) :
    Ascends 0 (line.length + 1)
      [malformed keyword expected (Text.columnInLastLine line offset)] := by
  refine .cons rfl (Nat.succ_pos _) (.nil (Nat.succ_le_succ ?_))
  calc ((line.take offset).reverse.takeWhile (· ≠ '\n')).length
      ≤ (line.take offset).reverse.length := (List.takeWhile_sublist _).length_le
    _ = min offset line.length := by rw [List.length_reverse, List.length_take]
    _ ≤ line.length := Nat.min_le_right _ _

theorem Grammar.Reader.run_eq_error {α : Type} {reader : Reader α} {text : List Char} {column : Nat}
    (h : reader.run text = .error column) :
    ∃ offset, column = Text.columnInLastLine text offset := by
  unfold run at h
  split at h
  · cases h
  · cases h
    exact ⟨_, rfl⟩

namespace LineReading

/-- A line that is no statement has a single issue, without a column. The issues of any other line
ascend, and lie inside the line or just behind it. -/
theorem issues_ofLine (context : Context) (line : List Char) :
    (∃ text, (ofLine context line).issues = [⟨none, .unparseableLine text⟩]) ∨
      Ascends 0 (line.length + 1) (ofLine context line).issues := by
  cases hkind : StatementKind.ofLine? line with
  | none => exact .inl ⟨_, by simp only [ofLine, hkind]; rfl⟩
  | some kind =>
      refine .inr ?_
      simp only [ofLine, hkind]
      cases kind with
      | empty | comment => exact .nil (Nat.zero_le _)
      | assignment key =>
          cases hline : Assignment.ofLine line with
          | error column =>
              obtain ⟨offset, rfl⟩ := Grammar.Reader.run_eq_error hline
              exact ascends_malformed _ _ line offset
          | ok assignment =>
              have hwritten := Assignment.isWritten_of_ofLine hline
              have hstatement := key.statement_ascends hwritten context
              have hwarnings := key.warnings_ascend hwritten
              dsimp only
              cases hresult : key.statement context line assignment with
              | error issues =>
                  rw [hresult] at hstatement
                  exact hstatement.widen (Nat.le_refl _) (Nat.le_succ _)
              | ok statement => exact hwarnings.widen (Nat.le_refl _) (Nat.le_succ _)
      | dialogue =>
          cases hline : DialogueForm.ofLine line with
          | error column =>
              obtain ⟨offset, rfl⟩ := Grammar.Reader.run_eq_error hline
              exact ascends_malformed _ _ line offset
          | ok form =>
              have hissues := form.issues_ascend (DialogueForm.isWritten_of_ofLine hline) context
              exact hissues.widen (Nat.le_refl _) (Nat.le_succ _)

end LineReading

/-! ### Scripts -/

def Diagnostic.Precedes (first second : Diagnostic) : Prop :=
  first.line < second.line ∨
    first.line = second.line ∧
      ∃ c c', first.column = some c ∧ second.column = some c' ∧ c < c'

/-- Nothing on the same line comes before or after a diagnostic without a column. -/
theorem Diagnostic.filter_line_eq {diagnostics : List Diagnostic} {diagnostic : Diagnostic}
    (hpairwise : diagnostics.Pairwise Precedes) (h : diagnostic ∈ diagnostics)
    (hnone : diagnostic.column = none) :
    diagnostics.filter (·.line = diagnostic.line) = [diagnostic] := by
  obtain ⟨before, after, rfl⟩ := List.append_of_mem h
  obtain ⟨-, hafter, hbefore⟩ := List.pairwise_append.mp hpairwise
  have hfirst : before.filter (·.line = diagnostic.line) = [] := by
    refine List.filter_eq_nil_iff.mpr fun other hother => ?_
    rcases hbefore other hother diagnostic (by simp) with hlt | ⟨-, c, c', -, hc, -⟩
    · simpa using hlt.ne
    · rw [hnone] at hc
      cases hc
  have hlast : after.filter (·.line = diagnostic.line) = [] := by
    refine List.filter_eq_nil_iff.mpr fun other hother => ?_
    rcases List.rel_of_pairwise_cons hafter hother with hlt | ⟨-, c, c', hc, -⟩
    · simpa using hlt.ne'
    · rw [hnone] at hc
      cases hc
  simp [hfirst, hlast]

namespace SourceLine

theorem getElem?_ofText_number {script : String} {line : SourceLine} (h : line ∈ ofText script) :
    0 < line.number ∧ (ofText script)[line.number - 1]? = some line := by
  unfold ofText at h ⊢
  obtain ⟨⟨text, index⟩, hindex, rfl⟩ := List.mem_map.mp h
  refine ⟨Nat.succ_pos _, ?_⟩
  have hindex := List.mem_zipIdx_iff_getElem?.mp hindex
  simp [hindex]

theorem pairwise_ofText (script : String) :
    (ofText script).Pairwise fun line line' => line.number < line'.number := by
  refine List.pairwise_iff_getElem.mpr fun i j hi hj hij => ?_
  simpa [ofText] using hij

variable (context : Context) (line : SourceLine)

theorem line_of_mem_diagnostics {diagnostic : Diagnostic}
    (h : diagnostic ∈ line.diagnostics context) : diagnostic.line = line.number := by
  obtain ⟨issue, hissue, rfl⟩ := List.mem_map.mp h
  rfl

/-- One issue that has no column is alone; otherwise columns only grow. -/
theorem pairwise_diagnostics : (line.diagnostics context).Pairwise Diagnostic.Precedes := by
  have hpairwise {lo hi : Nat} {issues : List Issue} (h : Ascends lo hi issues) :
      (issues.map (Issue.diagnostic context line.number)).Pairwise Diagnostic.Precedes := by
    rw [List.pairwise_map]
    induction h with
    | nil h => exact .nil
    | cons hcolumn hlo hothers ih =>
        refine .cons (fun issue hissue => .inr ⟨rfl, ?_⟩) ih
        obtain ⟨c, hc, hlt, -⟩ := hothers.exists_column hissue
        exact ⟨_, c, hcolumn, hc, hlt⟩
  unfold diagnostics
  rcases LineReading.issues_ofLine context line.text.toList with ⟨text, hissues⟩ | hascends
  · rw [hissues]
    exact List.pairwise_singleton _ _
  · exact hpairwise hascends

/-- Without a column is only what concerns a line as a whole. -/
theorem exists_column {diagnostic : Diagnostic} (h : diagnostic ∈ line.diagnostics context) :
    (diagnostic.column = none ∧ ∃ text, diagnostic.cause = .unparseableLine text) ∨
      ∃ c, diagnostic.column = some c ∧ 1 ≤ c ∧ c ≤ line.text.length + 1 := by
  obtain ⟨issue, hissue, rfl⟩ := List.mem_map.mp h
  rcases LineReading.issues_ofLine context line.text.toList with ⟨text, hissues⟩ | hascends
  · rw [hissues, List.mem_singleton] at hissue
    subst hissue
    exact .inl ⟨rfl, text, rfl⟩
  · obtain ⟨c, hc, hlo, hhi⟩ := hascends.exists_column hissue
    rw [String.length_toList] at hhi
    exact .inr ⟨c, hc, hlo, hhi⟩

end SourceLine

namespace Document

/-- Diagnostics come in the order of the script. Each is on an earlier line than the next one, or at
an earlier column of the same line, so that no two are at the same place; one without a column says
that its line is no statement, and is the only one of its line; and all of them lie inside the
script, at a character of a line or just behind the last one. -/
theorem diagnostics_ofScript (context : Context) (script : String) :
    let lines := SourceLine.ofText script
    let diagnostics := (ofScript context script).diagnostics.toList
    diagnostics.Pairwise Diagnostic.Precedes ∧
      (diagnostics.map fun diagnostic => (diagnostic.line, diagnostic.column)).Nodup ∧
      (∀ diagnostic ∈ diagnostics, diagnostic.column = none →
        (∃ text, diagnostic.cause = .unparseableLine text) ∧
          diagnostics.filter (·.line = diagnostic.line) = [diagnostic]) ∧
      ∀ diagnostic ∈ diagnostics, 1 ≤ diagnostic.line ∧ diagnostic.line ≤ lines.length ∧
        ∀ column, diagnostic.column = some column → 1 ≤ column ∧
          ∃ line, lines[diagnostic.line - 1]? = some line ∧ column ≤ line.text.length + 1 := by
  intro lines diagnostics
  have hdiagnostics : diagnostics = lines.flatMap (SourceLine.diagnostics context) :=
    toList_diagnostics_ofLines context lines
  have hmem {diagnostic : Diagnostic} (h : diagnostic ∈ diagnostics) :
      ∃ line ∈ lines, diagnostic ∈ line.diagnostics context := by
    rw [hdiagnostics] at h
    exact List.mem_flatMap.mp h
  have hpairwise : diagnostics.Pairwise Diagnostic.Precedes := by
    rw [hdiagnostics]
    refine List.pairwise_flatMap.mpr ⟨fun line _ => line.pairwise_diagnostics context, ?_⟩
    refine (SourceLine.pairwise_ofText script).imp fun hlt first hfirst second hsecond => .inl ?_
    rwa [SourceLine.line_of_mem_diagnostics context _ hfirst,
      SourceLine.line_of_mem_diagnostics context _ hsecond]
  refine ⟨hpairwise, ?_, ?_, ?_⟩
  · refine List.pairwise_map.mpr (hpairwise.imp ?_)
    rintro first second (hlt | ⟨-, c, c', hc, hc', hlt⟩) heq
    · obtain ⟨hline, -⟩ := Prod.mk.inj heq
      omega
    · obtain ⟨-, hcolumn⟩ := Prod.mk.inj heq
      rw [hc, hc', Option.some.injEq] at hcolumn
      omega
  · intro diagnostic h hnone
    obtain ⟨line, hline, hdiagnostic⟩ := hmem h
    rcases SourceLine.exists_column context line hdiagnostic with ⟨-, hcause⟩ | ⟨c, hc, -⟩
    · exact ⟨hcause, Diagnostic.filter_line_eq hpairwise h hnone⟩
    · rw [hc] at hnone
      cases hnone
  · intro diagnostic h
    obtain ⟨line, hline, hdiagnostic⟩ := hmem h
    have hnumber := SourceLine.line_of_mem_diagnostics context line hdiagnostic
    obtain ⟨hpos, hget⟩ := SourceLine.getElem?_ofText_number hline
    have hlt : line.number - 1 < lines.length := (List.getElem?_eq_some_iff.mp hget).1
    refine ⟨by omega, by omega, fun column hcolumn => ?_⟩
    rcases SourceLine.exists_column context line hdiagnostic with ⟨hnone, -⟩ | ⟨c, hc, hlo, hhi⟩
    · rw [hnone] at hcolumn
      cases hcolumn
    · obtain rfl := Option.some.inj (hc.symm.trans hcolumn)
      exact ⟨hlo, line, by rwa [hnumber], hhi⟩

end Document

end NpcScript
