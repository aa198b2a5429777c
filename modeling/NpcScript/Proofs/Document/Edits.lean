import NpcScript.Proofs.Document.LastWrite
import NpcScript.Proofs.Document.Slots

/-!
Documents that are built up by any calls in any order. One call keeps the slots true to the entries,
puts at most one entry in and appends at most one diagnostic; so the whole run merges the added
entries and lists the reported issues. Which name an NPC has is then the last one that was added.
-/

namespace NpcScript

inductive Edit where
  | add (line : Nat) (statement : Statement)
  | report (describe : Cause → String) (line : Nat) (issue : Issue)

namespace Edit

def entry? : Edit → Option Entry
  | add line statement => some ⟨line, statement⟩
  | report _ _ _ => none

def diagnostic? : Edit → Option Diagnostic
  | add _ _ => none
  | report describe line issue => some ⟨line, issue.column, issue.cause, describe issue.cause⟩

def apply (edit : Edit) (document : Document) : Document :=
  match edit with
  | add line statement => document.add line statement
  | report describe line issue => document.report describe line issue

variable {document : Document}

theorem isIndexed_apply (h : document.IsIndexed) (edit : Edit) :
    (edit.apply document).IsIndexed := by
  cases edit with
  | add line statement => exact h.add line statement
  | report describe line issue => exact h.report describe line issue

theorem toList_entries_apply (h : document.IsIndexed) (edit : Edit) :
    (edit.apply document).entries.toList = merge document.entries.toList edit.entry?.toList := by
  cases edit with
  | add line statement => exact h.toList_entries_add line statement
  | report describe line issue => rfl

theorem toList_diagnostics_apply (document : Document) (edit : Edit) :
    (edit.apply document).diagnostics.toList =
      document.diagnostics.toList ++ edit.diagnostic?.toList := by
  cases edit with
  | add line statement =>
      rw [apply, Document.diagnostics_add]
      simp [diagnostic?]
  | report describe line issue =>
      rw [apply, Document.report, Array.toList_push]
      rfl

end Edit

namespace Document

def ofEdits (edits : List Edit) : Document :=
  edits.foldl (fun document edit => edit.apply document) {}

theorem ofEdits_concat (edits : List Edit) (edit : Edit) :
    ofEdits (edits ++ [edit]) = edit.apply (ofEdits edits) :=
  List.foldl_concat ..

theorem isIndexed_ofEdits (edits : List Edit) : (ofEdits edits).IsIndexed := by
  induction edits using List.reverseRecOn with
  | nil => exact IsIndexed.empty
  | append_singleton edits edit ih =>
      rw [ofEdits_concat]
      exact Edit.isIndexed_apply ih edit

theorem toList_entries_ofEdits (edits : List Edit) :
    (ofEdits edits).entries.toList = merge [] (edits.filterMap Edit.entry?) := by
  induction edits using List.reverseRecOn with
  | nil => rfl
  | append_singleton edits edit ih =>
      rw [ofEdits_concat, Edit.toList_entries_apply (isIndexed_ofEdits edits), ih,
        List.filterMap_append, merge_append]
      cases hentry : edit.entry? <;> simp [hentry]

theorem toList_diagnostics_ofEdits (edits : List Edit) :
    (ofEdits edits).diagnostics.toList = edits.filterMap Edit.diagnostic? := by
  induction edits using List.reverseRecOn with
  | nil => rfl
  | append_singleton edits edit ih =>
      rw [ofEdits_concat, Edit.toList_diagnostics_apply, ih, List.filterMap_append]
      cases hdiagnostic : edit.diagnostic? <;> simp [hdiagnostic]

end Document

/-! ### The name -/

def Entry.name? (entry : Entry) : Option String :=
  match entry.statement with
  | .identity (.name text) => some text
  | _ => none

theorem Entry.isSome_name?_iff (entry : Entry) :
    entry.name?.isSome ↔ entry.slot = some ⟨.name, none⟩ := by
  obtain ⟨line, statement⟩ := entry
  cases statement with
  | identity fact => cases fact <;> simp [name?, slot, Statement.slot, Identity.slot, Identity.kind]
  | _ => simp [name?, slot, Statement.slot]

theorem Entry.name?_eq_none_of_slot_eq {first second : Entry} (h : first.slot = second.slot)
    (hnone : second.name? = none) : first.name? = none := by
  rw [← Option.not_isSome_iff_eq_none, isSome_name?_iff] at hnone ⊢
  rwa [h]

theorem Document.name?_eq (document : Document) :
    document.name? = document.entries.toList.findSome? Entry.name? := by
  rw [name?, statements, List.findSome?_map]
  rfl

theorem Entry.name?_replacedBy {first : Entry} (hnone : first.name? = none) (entry : Entry) :
    (replacedBy first entry).name? = entry.name? := by
  unfold replacedBy
  split
  · rename_i hsame
    rw [hnone, name?_eq_none_of_slot_eq hsame.2 hnone]
  · rfl

/-- Once a name is put in, no other one is left. -/
theorem eq_of_mem_put {entries : List Entry} {entry other : Entry} (hname : entry.name?.isSome)
    (hother : other ∈ put entries entry) (hname' : other.name?.isSome) : other = entry := by
  have hslot := entry.isSome_name?_iff.mp hname
  have hslot' := other.isSome_name?_iff.mp hname'
  by_cases htaken : IsTaken entries entry
  · rw [put_of_isTaken htaken] at hother
    obtain ⟨old, -, rfl⟩ := List.mem_map.mp hother
    rw [Entry.slot_replacedBy] at hslot'
    exact if_pos ⟨htaken.1, hslot'.trans hslot.symm⟩
  · rw [put_of_not_isTaken htaken] at hother
    rcases List.mem_append.mp hother with hmem | hmem
    · refine absurd ⟨by simp [hslot], ?_⟩ htaken
      rw [hslot, ← hslot']
      exact List.mem_map_of_mem hmem
    · exact List.mem_singleton.mp hmem

theorem mem_put (entries : List Entry) (entry : Entry) : entry ∈ put entries entry := by
  by_cases htaken : IsTaken entries entry
  · obtain ⟨old, hold, hsame⟩ := List.mem_map.mp htaken.2
    rw [put_of_isTaken htaken]
    exact List.mem_map.mpr ⟨old, hold, if_pos ⟨htaken.1, hsame⟩⟩
  · rw [put_of_not_isTaken htaken]
    simp

/-- A name that is put in is the one that is found from then on. -/
theorem findSome?_put (entries : List Entry) (entry : Entry) :
    (put entries entry).findSome? Entry.name? =
      entry.name?.or (entries.findSome? Entry.name?) := by
  cases hname : entry.name? with
  | none =>
      rw [Option.none_or]
      by_cases htaken : IsTaken entries entry
      · rw [put_of_isTaken htaken, List.findSome?_map]
        congr 1
        exact funext fun other => Entry.name?_replacedBy hname other
      · rw [put_of_not_isTaken htaken, List.findSome?_append]
        simp [hname]
  | some text =>
      rw [Option.some_or]
      -- The entry is in the list, and no other one with a name is left to be found before it.
      cases hfound : (put entries entry).findSome? Entry.name? with
      | none =>
          have hnone := List.findSome?_eq_none_iff.mp hfound entry (mem_put entries entry)
          rw [hname] at hnone
          cases hnone
      | some found =>
          obtain ⟨other, hother, hname'⟩ := List.exists_of_findSome?_eq_some hfound
          obtain rfl := eq_of_mem_put (by simp [hname]) hother (by simp [hname'])
          rw [← hname', hname]

/-- The name is the last one that was put in. -/
theorem findSome?_merge (added : List Entry) :
    (merge [] added).findSome? Entry.name? = (added.filterMap Entry.name?).getLast? := by
  induction added using List.reverseRecOn with
  | nil => rfl
  | append_singleton added entry ih =>
      rw [merge_concat, findSome?_put, ih, List.filterMap_append]
      cases hname : entry.name? <;> simp [hname]

/-! ### Any run of calls -/

/-- Only what is said of an NPC once has a slot. -/
theorem Statement.slot_eq_none_iff (statement : Statement) :
    statement.slot = none ↔
      ∀ fact, statement = .identity fact → fact.kind = .author ∨ fact.kind = .language := by
  cases statement with
  | identity fact => cases fact <;> simp [slot, Identity.slot, Identity.kind]
  | _ => simp [slot]

theorem mem_map_slot_merge_nil {added : List Entry} {slot : Option Slot} :
    slot ∈ (merge [] added).map Entry.slot ↔ ∃ entry ∈ added, entry.slot = slot := by
  rw [mem_map_slot_merge, List.mem_map]
  simp

/-- Last write wins in place, and nothing is lost besides: what stands in a document after any calls
is determined by what was added and what was reported. -/
theorem Document.last_write_wins (edits : List Edit) :
    let document := ofEdits edits
    let added := edits.filterMap Edit.entry?
    document.entries.toList = (firsts added).map (latest added) ∧
      document.entries.toList.filter (·.slot = none) = added.filter (·.slot = none) ∧
      (∀ statement : Statement, statement.slot = none ↔
        ∀ fact, statement = .identity fact → fact.kind = .author ∨ fact.kind = .language) ∧
      document.diagnostics.toList = edits.filterMap Edit.diagnostic? ∧
      (document.slots.map Prod.fst).Nodup ∧
      (∀ slot, (document.slots.lookup slot).isSome ↔ ∃ entry ∈ added, entry.slot = some slot) ∧
      (∀ slot index, document.slots.lookup slot = some index ↔
        ∃ h : index < document.entries.size, document.entries[index].slot = some slot) ∧
      document.name? = (added.filterMap Entry.name?).getLast? := by
  intro document added
  have hindexed : document.IsIndexed := isIndexed_ofEdits edits
  have hentries : document.entries.toList = merge [] added := toList_entries_ofEdits edits
  refine ⟨?_, ?_, Statement.slot_eq_none_iff, toList_diagnostics_ofEdits edits,
    hindexed.nodup_keys, ?_, fun slot index => hindexed.lookup_eq_some_iff, ?_⟩
  · rw [hentries]
    exact merge_eq_map_latest added
  · rw [hentries]
    exact filter_merge added
  · intro slot
    rw [hindexed.isSome_lookup_iff, hentries]
    exact mem_map_slot_merge_nil
  · rw [name?_eq, hentries]
    exact findSome?_merge added

example :
    (Document.ofEdits
      [.add 1 (.identity (.name "Bob")), .add 2 (.identity (.race .elf)),
        .add 3 (.identity (.name "Rob"))]).entries =
      #[⟨3, .identity (.name "Rob")⟩, ⟨2, .identity (.race .elf)⟩] := by
  decide

end NpcScript
