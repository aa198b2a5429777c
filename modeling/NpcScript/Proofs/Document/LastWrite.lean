import NpcScript.Proofs.Document.Entries

/-!
What merging comes to, said without a word of the order of overwriting. Of the entries that were
added, the first of each slot is kept, and every entry without a slot; in the place of each kept
entry stands the last one of its slot.
-/

namespace NpcScript

/-- The entries that are the first of their slot. Those without a slot all are. -/
def firsts : List Entry → List Entry
  | [] => []
  | entry :: others =>
    entry :: (firsts others).filter fun other => other.slot = none ∨ other.slot ≠ entry.slot

/-- The last of the entries that have the slot of the given one; without a slot, the given one. -/
def latest (added : List Entry) (entry : Entry) : Entry :=
  if entry.slot = none then entry
  else (added.filter fun other => other.slot = entry.slot).getLast?.getD entry

@[simp] theorem slot_latest (added : List Entry) (entry : Entry) :
    (latest added entry).slot = entry.slot := by
  unfold latest
  split
  · rfl
  · cases hlast : (added.filter fun other => other.slot = entry.slot).getLast? with
    | none => rfl
    | some other =>
        have hmem := List.mem_filter.mp (List.mem_of_mem_getLast? hlast)
        simpa using hmem.2

theorem latest_concat (added : List Entry) (last entry : Entry) :
    latest (added ++ [last]) entry = Entry.replacedBy last (latest added entry) := by
  by_cases hnone : entry.slot = none
  · rw [latest, if_pos hnone, latest, if_pos hnone]
    refine (if_neg ?_).symm
    rintro ⟨hsome, hsame⟩
    exact hsome (hsame.symm.trans hnone)
  · by_cases hsame : last.slot = entry.slot
    · rw [Entry.replacedBy, if_pos ⟨by rwa [hsame], by rw [slot_latest, hsame]⟩, latest,
        if_neg hnone, List.filter_append]
      simp [hsame]
    · rw [Entry.replacedBy_of_slot_ne (by simpa using Ne.symm hsame), latest, latest, if_neg hnone,
        if_neg hnone, List.filter_append]
      simp [hsame]

theorem firsts_concat (added : List Entry) (last : Entry) :
    firsts (added ++ [last]) = firsts added ++ if IsTaken added last then [] else [last] := by
  induction added with
  | nil => simp [firsts, IsTaken]
  | cons entry added ih =>
      rw [List.cons_append, firsts, ih, List.filter_append, firsts, List.cons_append]
      congr 2
      by_cases htaken : IsTaken added last
      · have htaken' : IsTaken (entry :: added) last := ⟨htaken.1, by simp [htaken.2]⟩
        rw [if_pos htaken, if_pos htaken']
        rfl
      · rw [if_neg htaken]
        by_cases hsame : last.slot ≠ none ∧ last.slot = entry.slot
        · have htaken' : IsTaken (entry :: added) last := ⟨hsame.1, by simp [hsame.2]⟩
          have hsome : entry.slot ≠ none := hsame.2 ▸ hsame.1
          rw [if_pos htaken']
          simp [hsame.2, hsome]
        · have htaken' : ¬ IsTaken (entry :: added) last := by
            rintro ⟨hsome, hmem⟩
            rcases List.mem_cons.mp hmem with heq | hmem
            · exact hsame ⟨hsome, heq⟩
            · exact htaken ⟨hsome, hmem⟩
          rw [if_neg htaken']
          have hkept : last.slot = none ∨ last.slot ≠ entry.slot := by
            by_contra hnot
            rw [not_or] at hnot
            exact hsame ⟨hnot.1, not_not.mp hnot.2⟩
          simp [hkept]

theorem mem_map_slot_merge {entries added : List Entry} {slot : Option Slot} :
    slot ∈ (merge entries added).map Entry.slot ↔
      slot ∈ entries.map Entry.slot ∨ slot ∈ added.map Entry.slot := by
  induction added generalizing entries with
  | nil => simp
  | cons entry added ih =>
      rw [merge_cons, ih, mem_map_slot_put, List.map_cons, List.mem_cons, or_assoc]

theorem isTaken_merge_nil_iff {added : List Entry} {entry : Entry} :
    IsTaken (merge [] added) entry ↔ IsTaken added entry := by
  rw [IsTaken, mem_map_slot_merge, IsTaken]
  simp

/-- Last write wins in place. -/
theorem merge_eq_map_latest (added : List Entry) :
    merge [] added = (firsts added).map (latest added) := by
  induction added using List.reverseRecOn with
  | nil => rfl
  | append_singleton added last ih =>
      have hlatest : latest (added ++ [last]) = Entry.replacedBy last ∘ latest added :=
        funext (latest_concat added last)
      rw [merge_concat, firsts_concat]
      -- A taken slot overwrites in place and adds no first entry; a new one is its own last entry.
      by_cases htaken : IsTaken added last
      · rw [put_of_isTaken (isTaken_merge_nil_iff.mpr htaken), if_pos htaken, List.append_nil, ih,
          List.map_map, hlatest]
      · have hnot : ¬ IsTaken (merge [] added) last := isTaken_merge_nil_iff.not.mpr htaken
        have hkept := map_replacedBy_of_not_isTaken hnot
        rw [put_of_not_isTaken hnot, if_neg htaken, List.map_append, List.map_singleton]
        congr 1
        · rw [ih, List.map_map] at hkept
          rw [ih, hlatest, hkept]
        · rw [latest_concat]
          by_cases hnone : last.slot = none
          · simp [latest, Entry.replacedBy, hnone]
          · rw [Entry.replacedBy, if_pos ⟨hnone, slot_latest added last⟩]

/-- Entries without a slot are kept as they were added. -/
theorem filter_put (entries : List Entry) (entry : Entry) :
    (put entries entry).filter (·.slot = none) =
      entries.filter (·.slot = none) ++ [entry].filter (·.slot = none) := by
  by_cases htaken : IsTaken entries entry
  · rw [put_of_isTaken htaken, List.filter_map]
    have hslots : (fun other : Entry => decide (other.slot = none)) ∘ Entry.replacedBy entry =
        fun other => decide (other.slot = none) := by
      funext other
      simp
    have hkept : ∀ other ∈ entries.filter (·.slot = none),
        Entry.replacedBy entry other = other := by
      intro other hother
      have hnone : other.slot = none := by simpa using (List.mem_filter.mp hother).2
      exact Entry.replacedBy_of_slot_ne fun hsame => htaken.1 (hsame.symm.trans hnone)
    rw [hslots, List.map_congr_left hkept, List.map_id']
    simp [htaken.1]
  · rw [put_of_not_isTaken htaken, List.filter_append]

theorem filter_merge (added : List Entry) :
    (merge [] added).filter (·.slot = none) = added.filter (·.slot = none) := by
  induction added using List.reverseRecOn with
  | nil => rfl
  | append_singleton added last ih => rw [merge_concat, filter_put, ih, List.filter_append]

end NpcScript
