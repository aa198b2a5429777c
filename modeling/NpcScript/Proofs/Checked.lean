import NpcScript.Checked
import Mathlib.Data.List.Forall2

/-!
The issues of a checked result, part by part. Whatever the parts come to, the issues of the whole
are those of its parts in their order.
-/

namespace NpcScript.Checked

variable {α β : Type}

def issues : Checked α → List Issue
  | .ok _ => []
  | .error issues => issues

theorem issues_map (f : α → β) (result : Checked α) : issues (f <$> result) = result.issues := by
  cases result <;> rfl

theorem map_ofPart (f : α → β) (result : Except Issue α) :
    (ofPart result).map f = ofPart (f <$> result) := by
  cases result <;> rfl

theorem both_ofPart_ok (result : Except Issue α) (b : β) :
    both (ofPart result) (.ok b) = ofPart ((fun a => (a, b)) <$> result) := by
  cases result <;> rfl

theorem both_ok_ofPart (a : α) (result : Except Issue β) :
    both (.ok a) (ofPart result) = ofPart ((fun b => (a, b)) <$> result) := by
  cases result <;> rfl

theorem issues_both (first : Checked α) (second : Checked β) :
    (both first second).issues = first.issues ++ second.issues := by
  cases first <;> cases second <;> simp [both, issues]

theorem issues_each (read : α → Except Issue β) (parts : List α) :
    (each read parts).issues = (parts.map fun a => (ofPart (read a)).issues).flatten := by
  induction parts with
  | nil => rfl
  | cons a others ih =>
      have hmap : (each read (a :: others)).issues =
          (both (ofPart (read a)) (each read others)).issues := issues_map _ _
      rw [hmap, issues_both, ih, List.map_cons, List.flatten_cons]

theorem toOption_eq_some_iff {ε : Type} {result : Except ε α} {a : α} :
    result.toOption = some a ↔ result = .ok a := by
  cases result <;> simp [Except.toOption]

/-- Where all parts but one can be read, the whole stands or falls with this one. -/
theorem each_append_cons {read : α → Except Issue β} {first others : List α} {bs cs : List β}
    (hfirst : each read first = .ok bs) (hothers : each read others = .ok cs) (a : α) :
    each read (first ++ a :: others) = ofPart ((fun b => bs ++ b :: cs) <$> read a) := by
  induction first generalizing bs with
  | nil =>
      cases hfirst
      rw [List.nil_append]
      cases hread : read a with
      | error issue =>
          rw [each_cons_of_error hread, hothers]
          rfl
      | ok b =>
          rw [each_cons_of_ok hread, hothers]
          rfl
  | cons a' first ih =>
      cases hread' : read a' with
      | error issue =>
          rw [each_cons_of_error hread'] at hfirst
          cases hfirst
      | ok b' =>
          rw [each_cons_of_ok hread'] at hfirst
          cases heach : each read first with
          | error issues =>
              rw [heach] at hfirst
              cases hfirst
          | ok bs' =>
              rw [heach] at hfirst
              cases hfirst
              rw [List.cons_append, each_cons_of_ok hread', ih heach]
              cases read a <;> rfl

section Found

variable {read : α → Except Issue β} {found? : α → Option β} {parts : List α}
  (h : ∀ a ∈ parts, (read a).toOption = found? a)

include h

/-- The whole is read exactly if something is found in every part. -/
theorem each_eq_ok_iff {bs : List β} :
    each read parts = .ok bs ↔ parts.map found? = bs.map some := by
  induction parts generalizing bs with
  | nil => cases bs <;> simp
  | cons a others ih =>
      obtain ⟨ha, hothers⟩ := List.forall_mem_cons.mp h
      have ih {bs : List β} : each read others = .ok bs ↔ others.map found? = bs.map some :=
        ih hothers
      rw [List.map_cons, ← ha]
      cases hread : read a with
      | error issue =>
          rw [each_cons_of_error hread]
          cases bs <;> simp [Except.toOption]
      | ok b =>
          rw [each_cons_of_ok hread]
          cases bs with
          | nil => cases each read others <;> simp [Except.map]
          | cons b' bs =>
              rw [List.map_cons, List.cons.injEq, ← ih]
              cases each read others <;> simp [Except.map, Except.toOption]

/-- The parts in which nothing is found have one issue each, in their order. -/
theorem forall₂_issues_each :
    List.Forall₂ (fun a issue => read a = .error issue)
      (parts.filter fun a => (found? a).isNone) (each read parts).issues := by
  induction parts with
  | nil => exact .nil
  | cons a others ih =>
      obtain ⟨ha, hothers⟩ := List.forall_mem_cons.mp h
      have ih := ih hothers
      rw [issues_each] at ih ⊢
      rw [List.map_cons, List.flatten_cons, List.filter_cons, ← ha]
      cases hread : read a with
      | ok b => simpa [Except.toOption, ofPart, issues] using ih
      | error issue => simpa [Except.toOption, ofPart, issues, hread] using ih

theorem exists_each_eq_error (hnone : ∃ a ∈ parts, found? a = none) :
    ∃ issues, each read parts = .error issues := by
  cases hread : each read parts with
  | error issues => exact ⟨issues, rfl⟩
  | ok bs =>
      obtain ⟨a, ha, hnone⟩ := hnone
      have hmem := List.mem_map_of_mem (f := found?) ha
      rw [(each_eq_ok_iff h).mp hread, hnone] at hmem
      simp at hmem

end Found

theorem forall₂_issues_ofPart {read : α → Except Issue β} {found? : α → Option β} {a : α}
    (h : (read a).toOption = found? a) :
    List.Forall₂ (fun a issue => read a = .error issue) ([a].filter fun a => (found? a).isNone)
      (ofPart (read a)).issues := by
  have hsingle := forall₂_issues_each (List.forall_mem_singleton.mpr h)
  rwa [issues_each, List.map_singleton, List.flatten_singleton] at hsingle

/-- A single part has a single issue at most. -/
theorem length_issues_ofPart_le (result : Except Issue α) : (ofPart result).issues.length ≤ 1 := by
  cases result <;> simp [ofPart, issues]

theorem ofPart_eq_ok_iff {result : Except Issue α} {a : α} :
    ofPart result = .ok a ↔ result = .ok a := by
  cases result <;> simp [ofPart]

end NpcScript.Checked
