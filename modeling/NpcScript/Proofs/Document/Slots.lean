import Mathlib.Data.List.Nodup
import NpcScript.Proofs.Document.Entries

/-!
The slots of a document. They list, for each slot that occurs among the entries, the place of its
one entry. The invariant says this by a function of the entries, so documents with the same entries
have the same slots; looking up a slot then answers exactly where it stands, and adding a statement
puts its entry in.
-/

namespace NpcScript

/-- The slots of a list of entries with their places, the last one first. -/
def slotIndex (entries : List Entry) : List (Slot × Nat) :=
  (entries.zipIdx.filterMap fun (entry, index) => entry.slot.map (·, index)).reverse

@[simp] theorem slotIndex_nil : slotIndex [] = [] := rfl

theorem slotIndex_concat_of_slot_eq_none {entry : Entry} (h : entry.slot = none)
    (entries : List Entry) : slotIndex (entries ++ [entry]) = slotIndex entries := by
  simp [slotIndex, List.zipIdx_append, h]

theorem slotIndex_concat {entry : Entry} {slot : Slot} (h : entry.slot = some slot)
    (entries : List Entry) :
    slotIndex (entries ++ [entry]) = (slot, entries.length) :: slotIndex entries := by
  simp [slotIndex, List.zipIdx_append, h]

theorem slotIndex_congr {entries others : List Entry}
    (h : entries.map Entry.slot = others.map Entry.slot) :
    slotIndex entries = slotIndex others := by
  -- The index can be made of the list of slots alone.
  have hmap (list : List Entry) : slotIndex list =
      ((list.map Entry.slot).zipIdx.filterMap
        fun (slot, index) => slot.map (·, index)).reverse := by
    rw [slotIndex, List.zipIdx_map, List.filterMap_map]
    rfl
  rw [hmap, hmap, h]

theorem mem_slotIndex_iff {entries : List Entry} {slot : Slot} {index : Nat} :
    (slot, index) ∈ slotIndex entries ↔
      ∃ h : index < entries.length, entries[index].slot = some slot := by
  rw [slotIndex, List.mem_reverse, List.mem_filterMap]
  constructor
  · rintro ⟨⟨entry, place⟩, hmem, hfound⟩
    obtain ⟨found, hslot, heq⟩ := Option.map_eq_some_iff.mp hfound
    obtain ⟨rfl, rfl⟩ : found = slot ∧ place = index := by simpa using heq
    obtain ⟨h, hget⟩ := List.getElem?_eq_some_iff.mp (List.mem_zipIdx_iff_getElem?.mp hmem)
    refine ⟨h, ?_⟩
    rw [hget]
    exact hslot
  · rintro ⟨h, hslot⟩
    refine ⟨(entries[index], index), ?_, by simp [hslot]⟩
    rw [List.mem_zipIdx_iff_getElem?]
    exact List.getElem?_eq_getElem h

theorem map_fst_slotIndex (entries : List Entry) :
    (slotIndex entries).map Prod.fst = (entries.filterMap Entry.slot).reverse := by
  induction entries using List.reverseRecOn with
  | nil => rfl
  | append_singleton entries entry ih =>
      cases hslot : entry.slot with
      | none => simp [slotIndex_concat_of_slot_eq_none hslot, ih, hslot]
      | some slot => simp [slotIndex_concat hslot, ih, hslot]

theorem nodup_map_fst_slotIndex {entries : List Entry} (h : IsDistinct entries) :
    ((slotIndex entries).map Prod.fst).Nodup := by
  rw [map_fst_slotIndex, List.nodup_reverse]
  refine List.Pairwise.filterMap Entry.slot ?_ h
  intro first second hsame slot hfirst slot' hsecond heq
  have hfirst : first.slot = some slot := hfirst
  have hsecond : second.slot = some slot' := hsecond
  rw [hsame (by rw [hfirst, hsecond, heq])] at hfirst
  cases hfirst

/-- Among pairs with different keys, looking up a key finds the pair that is there. -/
theorem lookup_eq_some_iff_mem {pairs : List (Slot × Nat)} (h : (pairs.map Prod.fst).Nodup)
    {slot : Slot} {index : Nat} : pairs.lookup slot = some index ↔ (slot, index) ∈ pairs := by
  rw [List.lookup_eq_some_iff]
  constructor
  · rintro ⟨before, after, rfl, -⟩
    simp
  · intro hmem
    obtain ⟨before, after, rfl⟩ := List.append_of_mem hmem
    refine ⟨before, after, rfl, ?_⟩
    intro pair hpair
    rw [List.map_append, List.map_cons, List.nodup_append] at h
    simpa using (h.2.2 pair.1 (List.mem_map_of_mem hpair) slot (by simp)).symm

/-- What a document knows of its entries' slots is true of them. -/
structure Document.IsIndexed (document : Document) : Prop where
  slots_eq : document.slots = slotIndex document.entries.toList
  isDistinct : IsDistinct document.entries.toList

namespace Document.IsIndexed

variable {document : Document}

theorem empty : IsIndexed {} :=
  ⟨rfl, List.Pairwise.nil⟩

theorem nodup_keys (h : document.IsIndexed) : (document.slots.map Prod.fst).Nodup := by
  rw [h.slots_eq]
  exact nodup_map_fst_slotIndex h.isDistinct

theorem lookup_eq_some_iff (h : document.IsIndexed) {slot : Slot} {index : Nat} :
    document.slots.lookup slot = some index ↔
      ∃ h : index < document.entries.size, document.entries[index].slot = some slot := by
  rw [lookup_eq_some_iff_mem h.nodup_keys, h.slots_eq, mem_slotIndex_iff]
  simp

theorem isSome_lookup_iff (h : document.IsIndexed) {slot : Slot} :
    (document.slots.lookup slot).isSome ↔ some slot ∈ document.entries.toList.map Entry.slot := by
  rw [Option.isSome_iff_exists]
  constructor
  · rintro ⟨index, hindex⟩
    obtain ⟨hlt, hslot⟩ := h.lookup_eq_some_iff.mp hindex
    rw [← hslot]
    exact List.mem_map_of_mem (by simp)
  · intro hmem
    obtain ⟨entry, hentry, hslot⟩ := List.mem_map.mp hmem
    obtain ⟨index, hlt, rfl⟩ := List.getElem_of_mem hentry
    exact ⟨index, h.lookup_eq_some_iff.mpr ⟨by simpa using hlt, by simpa using hslot⟩⟩

end Document.IsIndexed

/-- Where no slot occurs twice, overwriting at the place of a slot is overwriting the slot. -/
theorem set_eq_map_replacedBy {entries : List Entry} (h : IsDistinct entries) {entry : Entry}
    {index : Nat} (hlt : index < entries.length) (hsome : entry.slot ≠ none)
    (hslot : entries[index].slot = entry.slot) :
    entries.set index entry = entries.map (Entry.replacedBy entry) := by
  have hpairs := List.pairwise_iff_getElem.mp h
  refine List.ext_getElem (by simp) fun place hplace hplace' => ?_
  have hplace : place < entries.length := by simpa using hplace
  rw [List.getElem_set, List.getElem_map]
  -- At any other place the slot is another one, since `entry` has its slot at `index` already.
  rcases Nat.lt_trichotomy index place with hbefore | rfl | hbehind
  · rw [if_neg (Nat.ne_of_lt hbefore), Entry.replacedBy_of_slot_ne]
    intro hsame
    exact hsome (hslot.symm.trans (hpairs _ _ hlt hplace hbefore (hslot.trans hsame.symm)))
  · rw [if_pos rfl, Entry.replacedBy, if_pos ⟨hsome, hslot⟩]
  · rw [if_neg (Nat.ne_of_gt hbehind), Entry.replacedBy_of_slot_ne]
    intro hsame
    exact hsome (hsame.symm.trans (hpairs _ _ hplace hlt hbehind (hsame.trans hslot.symm)))

namespace Document.IsIndexed

variable {document : Document}

theorem isTaken_iff (h : document.IsIndexed) {entry : Entry} {slot : Slot}
    (hslot : entry.slot = some slot) :
    IsTaken document.entries.toList entry ↔ (document.slots.lookup slot).isSome := by
  rw [h.isSome_lookup_iff, IsTaken, hslot]
  simp

theorem add_eq (h : document.IsIndexed) (line : Nat) (statement : Statement) :
    document.add line statement =
      { document with
        entries := (put document.entries.toList ⟨line, statement⟩).toArray
        slots := slotIndex (put document.entries.toList ⟨line, statement⟩) } := by
  let entry : Entry := ⟨line, statement⟩
  unfold Document.add
  split
  · rename_i hnone
    have hnone : entry.slot = none := hnone
    have hnot : ¬ IsTaken document.entries.toList entry := fun htaken => htaken.1 hnone
    rw [put_of_not_isTaken hnot, slotIndex_concat_of_slot_eq_none hnone, ← h.slots_eq,
      ← Array.toList_push]
  · rename_i slot hslot
    have hslot : entry.slot = some slot := hslot
    split
    · rename_i index hindex
      obtain ⟨hlt, hplace⟩ := h.lookup_eq_some_iff.mp hindex
      have htaken : IsTaken document.entries.toList entry :=
        (h.isTaken_iff hslot).mpr (by simp [hindex])
      have hset : document.entries.toList.set index entry =
          document.entries.toList.map (Entry.replacedBy entry) :=
        set_eq_map_replacedBy h.isDistinct (by simpa using hlt) htaken.1
          (by rw [hslot]; simpa using hplace)
      rw [put_of_isTaken htaken, slotIndex_congr (map_slot_map_replacedBy _ entry), ← h.slots_eq,
        ← hset, ← Array.toList_setIfInBounds]
    · rename_i hindex
      have hnot : ¬ IsTaken document.entries.toList entry :=
        (h.isTaken_iff hslot).not.mpr (by simp [hindex])
      rw [put_of_not_isTaken hnot, slotIndex_concat hslot, ← h.slots_eq, ← Array.toList_push]
      rfl

theorem toList_entries_add (h : document.IsIndexed) (line : Nat) (statement : Statement) :
    (document.add line statement).entries.toList =
      put document.entries.toList ⟨line, statement⟩ := by
  rw [h.add_eq]

theorem add (h : document.IsIndexed) (line : Nat) (statement : Statement) :
    (document.add line statement).IsIndexed := by
  rw [h.add_eq]
  exact ⟨rfl, isDistinct_put h.isDistinct _⟩

theorem report (h : document.IsIndexed) (describe : Cause → String) (line : Nat) (issue : Issue) :
    (document.report describe line issue).IsIndexed :=
  ⟨h.slots_eq, h.isDistinct⟩

end Document.IsIndexed

end NpcScript
