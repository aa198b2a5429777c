import Mathlib.Data.List.Induction
import NpcScript.Document

/-!
Lists of entries in which a slot occurs once. Putting an entry in overwrites the one of its slot
where it stands, or appends it. Merging puts in one entry after another, and the list that comes of
it can be merged in place of the entries it was made of.
-/

namespace NpcScript

namespace Entry

def slot (entry : Entry) : Option Slot :=
  entry.statement.slot

/-- What stands in the place of an entry when another one has been put in. -/
def replacedBy (other entry : Entry) : Entry :=
  if other.slot ≠ none ∧ entry.slot = other.slot then other else entry

@[simp] theorem slot_replacedBy (other entry : Entry) :
    (replacedBy other entry).slot = entry.slot := by
  unfold replacedBy
  split
  · rename_i h
    exact h.2.symm
  · rfl

theorem replacedBy_of_slot_ne {other entry : Entry} (h : entry.slot ≠ other.slot) :
    replacedBy other entry = entry :=
  if_neg fun hsame => h hsame.2

theorem replacedBy_replacedBy_of_slot_eq {first second : Entry} (h : first.slot = second.slot)
    (entry : Entry) : replacedBy second (replacedBy first entry) = replacedBy second entry := by
  by_cases hsome : second.slot ≠ none
  · by_cases hentry : entry.slot = second.slot
    · rw [replacedBy, if_pos ⟨hsome, by simpa using hentry⟩, replacedBy, if_pos ⟨hsome, hentry⟩]
    · have hfirst : entry.slot ≠ first.slot := by rwa [h]
      rw [replacedBy_of_slot_ne hfirst]
  · have hnone : first.slot = none := by rw [h]; simpa using hsome
    simp [replacedBy, hnone]

theorem replacedBy_comm {first second : Entry} (h : first.slot ≠ second.slot) (entry : Entry) :
    replacedBy second (replacedBy first entry) = replacedBy first (replacedBy second entry) := by
  by_cases hfirst : entry.slot = first.slot
  · have hsecond : entry.slot ≠ second.slot := by rwa [hfirst]
    rw [replacedBy_of_slot_ne hsecond, replacedBy_of_slot_ne (by simpa using hsecond)]
  · have hfirst' : (replacedBy second entry).slot ≠ first.slot := by
      rwa [slot_replacedBy]
    rw [replacedBy_of_slot_ne hfirst, replacedBy_of_slot_ne hfirst']

end Entry

/-- Whether the slot of an entry occurs among the entries. -/
def IsTaken (entries : List Entry) (entry : Entry) : Prop :=
  entry.slot ≠ none ∧ entry.slot ∈ entries.map Entry.slot

instance (entries : List Entry) (entry : Entry) : Decidable (IsTaken entries entry) :=
  inferInstanceAs (Decidable (_ ∧ _))

/-- Puts an entry in: in place of the entry of its slot if there is one, else at the end. -/
def put (entries : List Entry) (entry : Entry) : List Entry :=
  if IsTaken entries entry then entries.map (Entry.replacedBy entry) else entries ++ [entry]

def merge (entries added : List Entry) : List Entry :=
  added.foldl put entries

theorem put_of_isTaken {entries : List Entry} {entry : Entry} (h : IsTaken entries entry) :
    put entries entry = entries.map (Entry.replacedBy entry) :=
  if_pos h

theorem put_of_not_isTaken {entries : List Entry} {entry : Entry} (h : ¬ IsTaken entries entry) :
    put entries entry = entries ++ [entry] :=
  if_neg h

theorem map_replacedBy_of_not_isTaken {entries : List Entry} {entry : Entry}
    (h : ¬ IsTaken entries entry) : entries.map (Entry.replacedBy entry) = entries := by
  refine (List.map_congr_left fun other hother => ?_).trans (List.map_id entries)
  refine if_neg fun hsame => h ⟨hsame.1, ?_⟩
  rw [← hsame.2]
  exact List.mem_map_of_mem hother

theorem map_slot_map_replacedBy (entries : List Entry) (entry : Entry) :
    (entries.map (Entry.replacedBy entry)).map Entry.slot = entries.map Entry.slot := by
  rw [List.map_map]
  exact List.map_congr_left fun other _ => Entry.slot_replacedBy entry other

theorem mem_map_slot_put {entries : List Entry} {entry : Entry} {slot : Option Slot} :
    slot ∈ (put entries entry).map Entry.slot ↔
      slot ∈ entries.map Entry.slot ∨ slot = entry.slot := by
  by_cases h : IsTaken entries entry
  · rw [put_of_isTaken h, map_slot_map_replacedBy]
    constructor
    · exact Or.inl
    · rintro (hslot | rfl)
      · exact hslot
      · exact h.2
  · rw [put_of_not_isTaken h, List.map_append]
    simp

theorem mem_put_self (entries : List Entry) (entry : Entry) : entry ∈ put entries entry := by
  by_cases h : IsTaken entries entry
  · rw [put_of_isTaken h]
    obtain ⟨hsome, hmem⟩ := h
    obtain ⟨other, hother, hslot⟩ := List.mem_map.mp hmem
    exact List.mem_map.mpr ⟨other, hother, if_pos ⟨hsome, hslot⟩⟩
  · rw [put_of_not_isTaken h]
    simp

theorem isTaken_put_iff {entries : List Entry} {first second : Entry} :
    IsTaken (put entries first) second ↔
      IsTaken entries second ∨ (second.slot ≠ none ∧ second.slot = first.slot) := by
  rw [IsTaken, mem_map_slot_put, IsTaken, and_or_left]

theorem IsTaken.put {entries : List Entry} {second : Entry} (h : IsTaken entries second)
    (first : Entry) : IsTaken (put entries first) second :=
  isTaken_put_iff.mpr (.inl h)

theorem isTaken_congr {entries : List Entry} {first second : Entry}
    (h : first.slot = second.slot) : IsTaken entries first ↔ IsTaken entries second := by
  rw [IsTaken, IsTaken, h]

/-- An entry that is overwritten at once might as well not have been put in. -/
theorem put_put_of_slot_eq {first second : Entry} (h : first.slot = second.slot)
    (hsome : second.slot ≠ none) (entries : List Entry) :
    put (put entries first) second = put entries second := by
  have htaken : IsTaken (put entries first) second := isTaken_put_iff.mpr (.inr ⟨hsome, h.symm⟩)
  rw [put_of_isTaken htaken]
  by_cases hsecond : IsTaken entries second
  · rw [put_of_isTaken ((isTaken_congr h).mpr hsecond), put_of_isTaken hsecond, List.map_map]
    exact List.map_congr_left fun entry _ => Entry.replacedBy_replacedBy_of_slot_eq h entry
  · have hfirst : ¬ IsTaken entries first := fun hfirst => hsecond ((isTaken_congr h).mp hfirst)
    rw [put_of_not_isTaken hfirst, put_of_not_isTaken hsecond, List.map_append,
      map_replacedBy_of_not_isTaken hsecond, List.map_singleton, Entry.replacedBy,
      if_pos ⟨hsome, h⟩]

/-- Overwriting an entry does not depend on what is put in of other slots. -/
theorem put_comm {entries : List Entry} {first second : Entry} (hne : first.slot ≠ second.slot)
    (htaken : IsTaken entries second) :
    put (put entries first) second = put (put entries second) first := by
  rw [put_of_isTaken (htaken.put first), put_of_isTaken htaken]
  by_cases hfirst : IsTaken entries first
  · have hfirst' : IsTaken (entries.map (Entry.replacedBy second)) first := by
      rw [IsTaken, map_slot_map_replacedBy]
      exact hfirst
    rw [put_of_isTaken hfirst, put_of_isTaken hfirst', List.map_map, List.map_map]
    exact List.map_congr_left fun entry _ => Entry.replacedBy_comm hne entry
  · have hfirst' : ¬ IsTaken (entries.map (Entry.replacedBy second)) first := by
      rw [IsTaken, map_slot_map_replacedBy]
      exact hfirst
    rw [put_of_not_isTaken hfirst, put_of_not_isTaken hfirst', List.map_append, List.map_singleton,
      Entry.replacedBy_of_slot_ne hne]

/-! ### Merging -/

@[simp] theorem merge_nil (entries : List Entry) : merge entries [] = entries := rfl

@[simp] theorem merge_cons (entries : List Entry) (entry : Entry) (added : List Entry) :
    merge entries (entry :: added) = merge (put entries entry) added := rfl

theorem merge_append (entries added more : List Entry) :
    merge entries (added ++ more) = merge (merge entries added) more :=
  List.foldl_append

theorem merge_concat (entries added : List Entry) (entry : Entry) :
    merge entries (added ++ [entry]) = put (merge entries added) entry := by
  rw [merge_append]
  rfl

def IsDistinct (entries : List Entry) : Prop :=
  entries.Pairwise fun first second => first.slot = second.slot → first.slot = none

theorem isDistinct_put {entries : List Entry} (h : IsDistinct entries) (entry : Entry) :
    IsDistinct (put entries entry) := by
  by_cases htaken : IsTaken entries entry
  · rw [put_of_isTaken htaken, IsDistinct, List.pairwise_map]
    simp only [Entry.slot_replacedBy]
    exact h
  · rw [put_of_not_isTaken htaken, IsDistinct, List.pairwise_append]
    refine ⟨h, by simp, ?_⟩
    intro first hfirst second hsecond hsame
    obtain rfl : second = entry := by simpa using hsecond
    by_contra hsome
    refine htaken ⟨by rwa [← hsame], ?_⟩
    rw [← hsame]
    exact List.mem_map_of_mem hfirst

theorem isDistinct_merge {entries : List Entry} (h : IsDistinct entries) (added : List Entry) :
    IsDistinct (merge entries added) := by
  induction added generalizing entries with
  | nil => exact h
  | cons entry added ih => exact ih (isDistinct_put h entry)

/-- An entry whose slot is taken may be put in ahead of entries of other slots. -/
theorem put_merge {entries : List Entry} {entry : Entry} (htaken : IsTaken entries entry)
    {added : List Entry} (h : ∀ other ∈ added, other.slot ≠ entry.slot) :
    put (merge entries added) entry = merge (put entries entry) added := by
  induction added generalizing entries with
  | nil => rfl
  | cons other added ih =>
      rw [merge_cons, ih (htaken.put other) fun next hnext => h next (by simp [hnext]),
        put_comm (h other (by simp)) htaken]
      rfl

/-- Around the one entry of a slot, putting in another of this slot changes nothing. -/
theorem exists_put_eq {entries : List Entry} {entry : Entry} (hdistinct : IsDistinct entries)
    (htaken : IsTaken entries entry) :
    ∃ before old after, entries = before ++ old :: after ∧
      put entries entry = before ++ entry :: after ∧ old.slot = entry.slot ∧
      ∀ other ∈ after, other.slot ≠ entry.slot := by
  obtain ⟨hsome, hmem⟩ := htaken
  obtain ⟨old, hold, hslot⟩ := List.mem_map.mp hmem
  obtain ⟨before, after, rfl⟩ := List.append_of_mem hold
  obtain ⟨-, hbehind, hbetween⟩ := List.pairwise_append.mp hdistinct
  have hbefore : ∀ other ∈ before, other.slot ≠ entry.slot := by
    intro other hother hsame
    have hnone := hbetween other hother old (by simp) (hsame.trans hslot.symm)
    exact hsome (hsame.symm.trans hnone)
  have hafter : ∀ other ∈ after, other.slot ≠ entry.slot := by
    intro other hother hsame
    have hnone := (List.pairwise_cons.mp hbehind).1 other hother (hslot.trans hsame.symm)
    exact hsome (hslot.symm.trans hnone)
  have hkept {others : List Entry} (h : ∀ other ∈ others, other.slot ≠ entry.slot) :
      others.map (Entry.replacedBy entry) = others := by
    refine map_replacedBy_of_not_isTaken fun htaken => ?_
    obtain ⟨other, hother, hsame⟩ := List.mem_map.mp htaken.2
    exact h other hother hsame
  refine ⟨before, old, after, rfl, ?_, hslot, hafter⟩
  rw [put_of_isTaken ⟨hsome, hmem⟩, List.map_append, List.map_cons, hkept hbefore, hkept hafter,
    Entry.replacedBy, if_pos ⟨hsome, hslot⟩]

/-- Merging a list into which an entry has been put is the same as putting the entry in last. -/
theorem merge_put {added : List Entry} (hdistinct : IsDistinct added) (entries : List Entry)
    (entry : Entry) : merge entries (put added entry) = put (merge entries added) entry := by
  by_cases htaken : IsTaken added entry
  -- `entry` stands where `old` stood, and the entries behind it have other slots, so it can be
  -- moved past them to the end; there it overwrites `old` just as well.
  · obtain ⟨before, old, after, rfl, hput, hslot, hafter⟩ := exists_put_eq hdistinct htaken
    have hthere : IsTaken (put (merge entries before) old) entry :=
      isTaken_put_iff.mpr (.inr ⟨htaken.1, hslot.symm⟩)
    rw [hput, merge_append, merge_append, merge_cons, merge_cons, put_merge hthere hafter,
      put_put_of_slot_eq hslot htaken.1]
  · rw [put_of_not_isTaken htaken, merge_concat]

/-- What was merged can be merged again in place of what it was made of. -/
theorem merge_merge (entries added : List Entry) :
    merge entries (merge [] added) = merge entries added := by
  -- From the back: the last entry is put into what the others were merged to.
  induction added using List.reverseRecOn with
  | nil => rfl
  | append_singleton added entry ih =>
      have hdistinct : IsDistinct (merge [] added) := isDistinct_merge List.Pairwise.nil added
      rw [merge_concat, merge_put hdistinct, ih, merge_concat]

end NpcScript
