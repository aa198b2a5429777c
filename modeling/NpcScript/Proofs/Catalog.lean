import Mathlib.Data.List.Nodup
import NpcScript.Catalog.File
import NpcScript.Proofs.Text.Recasing
import NpcScript.Proofs.Text.Trim

/-!
# What a catalog keeps of a list

A catalog is filled from a list, one entry after the other, and an entry takes the place of an
earlier one under the same key. So what stands under a key in the end is the last entry of the list
with this key, and all there is to prove is one step: how an entry at the end of the list changes
which entry is the last one (`isLast_concat`).

For items the key is the number, and since the catalog is ordered by it, the catalog lists its
items by strictly rising numbers. A list that comes from a file must not repeat a number; the check
reports the first entry whose number stands further ahead already.

For skills the key is the name in lower case. Filling the catalog takes the name as it is, but
looking it up also removes the blanks around it, so that a name with blanks around it is never found
under itself.
-/

namespace NpcScript

section IsLast

variable {α : Type} {p : α → Prop} {a b : α} {l : List α}

/-- The last member of a list with a property. -/
def IsLast (p : α → Prop) (a : α) (l : List α) : Prop :=
  p a ∧ ∃ before after, l = before ++ a :: after ∧ ∀ b ∈ after, ¬p b

theorem IsLast.mem (h : IsLast p a l) : a ∈ l := by
  obtain ⟨-, before, after, rfl, -⟩ := h
  simp

theorem not_isLast_nil : ¬IsLast p a [] := by
  rintro ⟨-, before, after, h, -⟩
  simp at h

/-- One member more at the end is the last one itself, or changes nothing. -/
theorem isLast_concat : IsLast p a (l ++ [b]) ↔ p b ∧ a = b ∨ ¬p b ∧ IsLast p a l := by
  constructor
  · rintro ⟨ha, before, after, hl, hafter⟩
    rcases List.eq_nil_or_concat after with rfl | ⟨others, c, rfl⟩
    · obtain ⟨-, hlast⟩ := List.append_inj' hl rfl
      obtain rfl := List.singleton_inj.mp hlast
      exact .inl ⟨ha, rfl⟩
    · rw [List.concat_eq_append] at hafter hl
      rw [← List.cons_append, ← List.append_assoc] at hl
      obtain ⟨rfl, hlast⟩ := List.append_inj' hl rfl
      obtain rfl := List.singleton_inj.mp hlast
      exact .inr ⟨hafter b (by simp), ha, before, others, rfl, fun d hd => hafter d (by simp [hd])⟩
  · rintro (⟨hb, rfl⟩ | ⟨hb, ha, before, after, rfl, hafter⟩)
    · exact ⟨hb, l, [], rfl, by simp⟩
    · refine ⟨ha, before, after ++ [b], by simp, ?_⟩
      simpa [or_imp, forall_and] using ⟨hafter, hb⟩

/-- A property that some member has has a last one. -/
theorem exists_isLast (ha : a ∈ l) (hp : p a) : ∃ last, IsLast p last l := by
  induction l using List.reverseRecOn with
  | nil => simp at ha
  | append_singleton l b ih =>
    simp only [isLast_concat]
    by_cases hb : p b
    · exact ⟨b, .inl ⟨hb, rfl⟩⟩
    · have hmem : a ∈ l := by
        rcases List.mem_append.mp ha with h | h
        · exact h
        · exact absurd (List.mem_singleton.mp h ▸ hp) hb
      obtain ⟨last, hlast⟩ := ih hmem
      exact ⟨last, .inr ⟨hb, hlast⟩⟩

end IsLast

namespace ItemCatalog

variable {catalog : ItemCatalog} {items : List Item} {item : Item} {id : Nat}

theorem ofList_concat (items : List Item) (item : Item) :
    ofList (items ++ [item]) = (ofList items).insert item :=
  List.foldl_concat ..

/-- Under each number the catalog of a list keeps the last item with it. -/
theorem find?_ofList_eq_some_iff :
    (ofList items).find? id = some item ↔ IsLast (·.id = id) item items := by
  induction items using List.reverseRecOn with
  | nil => simp [ofList, not_isLast_nil]
  | append_singleton items new ih =>
    rw [ofList_concat, find?_insert, isLast_concat, ← ih]
    by_cases h : new.id = id <;> simp [h, eq_comm]

/-- The listed items are the values of the pairs that the catalog holds, in their order. -/
theorem toList_eq_map_snd (catalog : ItemCatalog) :
    catalog.toList = catalog.byId.toList.map Prod.snd := by
  rw [toList, Std.TreeMap.values, Std.DTreeMap.values,
    Std.DTreeMap.Internal.Impl.values_eq_map_snd, Std.TreeMap.toList, Std.DTreeMap.Const.toList,
    Std.DTreeMap.Internal.Impl.Const.toList_eq_toListModel_map, List.map_map]
  rfl

theorem mem_toList_iff : item ∈ catalog.toList ↔ catalog.find? item.id = some item := by
  have hmem : item ∈ catalog.toList ↔ ∃ id, (id, item) ∈ catalog.byId.toList := by
    simp [toList_eq_map_snd]
  rw [hmem]
  constructor
  · rintro ⟨id, h⟩
    have hget := Std.TreeMap.mem_toList_iff_getElem?_eq_some.mp h
    rwa [find?, catalog.id_eq hget]
  · exact fun h => ⟨item.id, Std.TreeMap.mem_toList_iff_getElem?_eq_some.mpr h⟩

/-- The numbers of the listed items are the keys of the catalog. -/
theorem map_id_toList (catalog : ItemCatalog) :
    catalog.toList.map Item.id = catalog.byId.keys := by
  rw [toList_eq_map_snd, ← Std.TreeMap.map_fst_toList_eq_keys, List.map_map]
  refine List.map_congr_left fun ⟨id, item⟩ h => ?_
  exact catalog.id_eq (Std.TreeMap.mem_toList_iff_getElem?_eq_some.mp h)

/-- A catalog lists its items by strictly rising numbers. -/
theorem pairwise_toList (catalog : ItemCatalog) :
    catalog.toList.Pairwise (·.id < ·.id) := by
  rw [← List.pairwise_map (R := (· < ·)), map_id_toList]
  simpa [Nat.compare_eq_lt] using Std.TreeMap.ordered_keys (t := catalog.byId)

theorem nodup_toList (catalog : ItemCatalog) : catalog.toList.Nodup :=
  catalog.pairwise_toList.imp fun h heq => Nat.ne_of_lt h (congrArg Item.id heq)

theorem length_toList (catalog : ItemCatalog) : catalog.toList.length = catalog.size := by
  rw [toList_eq_map_snd, List.length_map, Std.TreeMap.length_toList, size]

/-- Where no number repeats, each item is the last one of its number. -/
theorem isLast_iff_of_nodup (h : (items.map Item.id).Nodup) :
    IsLast (·.id = id) item items ↔ item ∈ items ∧ item.id = id := by
  constructor
  · exact fun hlast => ⟨hlast.mem, hlast.1⟩
  · rintro ⟨hmem, hid⟩
    obtain ⟨before, after, rfl⟩ := List.append_of_mem hmem
    refine ⟨hid, before, after, rfl, fun other hother hsame => ?_⟩
    rw [List.map_append, List.map_cons, List.nodup_append] at h
    have hnot : item.id ∉ after.map Item.id := (List.nodup_cons.mp h.2.1).1
    exact hnot (hid.trans hsame.symm ▸ List.mem_map_of_mem hother)

/-- The check goes through exactly if no number repeats, be it in the list or from what was seen. -/
theorem firstRepeated?_eq_none_iff {seen : List Nat} (hseen : seen.Nodup) :
    firstRepeated? seen items = none ↔ (seen ++ items.map Item.id).Nodup := by
  induction items generalizing seen with
  | nil => simpa [firstRepeated?] using hseen
  | cons item others ih =>
    rw [firstRepeated?, List.map_cons, List.nodup_middle]
    by_cases hmem : item.id ∈ seen
    · simp [hmem]
    · rw [if_neg hmem, ih (List.nodup_cons.mpr ⟨hmem, hseen⟩), List.cons_append]

/-- The check stops at the first item whose number was seen or stands further ahead. -/
theorem firstRepeated?_eq_some_iff {seen : List Nat} (hseen : seen.Nodup) :
    firstRepeated? seen items = some id ↔
      ∃ before item after, items = before ++ item :: after ∧ item.id = id ∧
        (seen ++ before.map Item.id).Nodup ∧ id ∈ seen ++ before.map Item.id := by
  induction items generalizing seen with
  | nil => simp [firstRepeated?]
  | cons first others ih =>
    rw [firstRepeated?]
    by_cases hmem : first.id ∈ seen
    · rw [if_pos hmem]
      constructor
      · rintro ⟨⟩
        exact ⟨[], first, others, rfl, rfl, by simpa using hseen, by simpa using hmem⟩
      · rintro ⟨before, item, after, hitems, rfl, hnodup, -⟩
        cases before with
        | nil =>
          obtain ⟨rfl, -⟩ := List.cons.inj hitems
          rfl
        | cons head before =>
          obtain ⟨rfl, -⟩ := List.cons.inj hitems
          rw [List.map_cons, List.nodup_middle, List.nodup_cons] at hnodup
          exact absurd (List.mem_append_left _ hmem) hnodup.1
    · rw [if_neg hmem, ih (List.nodup_cons.mpr ⟨hmem, hseen⟩)]
      constructor
      · rintro ⟨before, item, after, rfl, hid, hnodup, hold⟩
        refine ⟨first :: before, item, after, rfl, hid, ?_, ?_⟩
        · rwa [List.map_cons, List.nodup_middle]
        · rwa [List.map_cons, List.perm_middle.mem_iff]
      · rintro ⟨before, item, after, hitems, hid, hnodup, hold⟩
        cases before with
        | nil =>
          obtain ⟨rfl, -⟩ := List.cons.inj hitems
          rw [List.map_nil, List.append_nil, ← hid] at hold
          exact absurd hold hmem
        | cons head before =>
          obtain ⟨rfl, rfl⟩ := List.cons.inj hitems
          rw [List.map_cons, List.nodup_middle] at hnodup
          rw [List.map_cons, List.perm_middle.mem_iff] at hold
          exact ⟨before, item, after, rfl, hid, hnodup, hold⟩

/-- The catalog of a list without repeated numbers holds the list, each item under its number. -/
theorem find?_ofList_of_nodup (h : (items.map Item.id).Nodup) :
    (ofList items).find? id = some item ↔ item ∈ items ∧ item.id = id :=
  find?_ofList_eq_some_iff.trans (isLast_iff_of_nodup h)

theorem perm_toList_ofList (h : (items.map Item.id).Nodup) :
    (ofList items).toList.Perm items := by
  refine (List.perm_ext_iff_of_nodup (nodup_toList _) (List.Nodup.of_map _ h)).mpr fun item => ?_
  rw [mem_toList_iff, find?_ofList_of_nodup h]
  exact and_iff_left rfl

/-- What filling a catalog from a list without repetitions comes to: the error names the number of
the first item whose number stands further ahead, and a catalog holds the items of the list and no
others. -/
structure Fills {ε : Type} (repeated : Nat → ε) (items : List Item)
    (outcome : Except ε ItemCatalog) : Prop where
  fails_iff : (∃ e, outcome = .error e) ↔ ¬(items.map Item.id).Nodup
  error_iff : ∀ e, outcome = .error e ↔
    ∃ before item after, items = before ++ item :: after ∧ (before.map Item.id).Nodup ∧
      item.id ∈ before.map Item.id ∧ e = repeated item.id
  size_eq : ∀ catalog, outcome = .ok catalog → catalog.size = items.length
  find?_iff : ∀ catalog, outcome = .ok catalog →
    ∀ id item, catalog.find? id = some item ↔ item ∈ items ∧ item.id = id
  perm : ∀ catalog, outcome = .ok catalog → catalog.toList.Perm items
  ascending : ∀ catalog, outcome = .ok catalog → catalog.toList.Pairwise (·.id < ·.id)

theorem fills_of_eq {ε : Type} {repeated : Nat → ε} {outcome : Except ε ItemCatalog}
    (h : outcome = match firstRepeated? [] items with
      | some id => .error (repeated id)
      | none => .ok (ofList items)) : Fills repeated items outcome := by
  have hnone : firstRepeated? [] items = none ↔ (items.map Item.id).Nodup :=
    firstRepeated?_eq_none_iff List.nodup_nil
  have hsome (id : Nat) : firstRepeated? [] items = some id ↔ _ :=
    firstRepeated?_eq_some_iff List.nodup_nil
  cases hfirst : firstRepeated? [] items with
  | some id =>
    rw [hfirst] at h hnone
    subst h
    have hnodup : ¬(items.map Item.id).Nodup := fun hn => nomatch hnone.mpr hn
    refine ⟨by simpa using hnodup, fun e => ?_, nofun, nofun, nofun, nofun⟩
    constructor
    · rintro ⟨⟩
      obtain ⟨before, item, after, hitems, rfl, hbefore, hmem⟩ := (hsome id).mp hfirst
      exact ⟨before, item, after, hitems, hbefore, hmem, rfl⟩
    · rintro ⟨before, item, after, hitems, hbefore, hmem, rfl⟩
      have hsame := (hsome item.id).mpr ⟨before, item, after, hitems, rfl, hbefore, hmem⟩
      rw [Option.some.inj (hfirst.symm.trans hsame)]
  | none =>
    rw [hfirst] at h
    subst h
    have hnodup := hnone.mp hfirst
    refine ⟨by simpa using hnodup, fun e => ?_, ?_, ?_, ?_, ?_⟩
    · constructor
      · nofun
      · rintro ⟨before, item, after, hitems, hbefore, hmem, -⟩
        have hsame := (hsome item.id).mpr ⟨before, item, after, hitems, rfl, hbefore, hmem⟩
        exact nomatch hfirst.symm.trans hsame
    · rintro _ ⟨⟩
      rw [← length_toList, (perm_toList_ofList hnodup).length_eq]
    · rintro _ ⟨⟩ id item
      exact find?_ofList_of_nodup hnodup
    · rintro _ ⟨⟩
      exact perm_toList_ofList hnodup
    · rintro _ ⟨⟩
      exact pairwise_toList _

theorem fills_ofDistinct (items : List Item) :
    Fills (fun repeated => repeated) items (ofDistinct items) :=
  fills_of_eq rfl

theorem fills_parse {text : String} {file : CatalogFile} (h : CatalogFile.parse text = .ok file) :
    Fills CatalogError.duplicateItem file.items (parse text) := by
  refine fills_of_eq ?_
  simp only [parse, h, ofDistinct, bind, Except.bind]
  cases firstRepeated? [] file.items <;> rfl

/-- What a catalog of any list keeps: for each number the last item, and the kept items in the
order of their numbers. -/
structure KeepsLast (items : List Item) (catalog : ItemCatalog) : Prop where
  find?_iff : ∀ id item, catalog.find? id = some item ↔ IsLast (·.id = id) item items
  mem_iff : ∀ item, item ∈ catalog.toList ↔ IsLast (·.id = item.id) item items
  ascending : catalog.toList.Pairwise (·.id < ·.id)

theorem keepsLast_ofList (items : List Item) : KeepsLast items (ofList items) where
  find?_iff _ _ := find?_ofList_eq_some_iff
  mem_iff _ := mem_toList_iff.trans find?_ofList_eq_some_iff
  ascending := pairwise_toList _

/-- Catalogs of items. A list in which no number may repeat, be it by itself or out of a file, fails
exactly if a number does repeat, and then with the number of the first item that repeats one; a
catalog of it holds the list and is ordered by number. A catalog of any list keeps the last item of
each number. -/
theorem fills_and_keepsLast :
    (∀ items, Fills (fun repeated => repeated) items (ofDistinct items)) ∧
      (∀ text file, CatalogFile.parse text = .ok file →
        Fills CatalogError.duplicateItem file.items (parse text)) ∧
      ∀ items, KeepsLast items (ofList items) :=
  ⟨fills_ofDistinct, fun _ _ => fills_parse, keepsLast_ofList⟩

/-- A file with three items, the third under the number of the first. -/
theorem fills_and_keepsLast_adze :
    (∃ file, CatalogFile.parse "items = [[7, 'axe'], [2, 'saw'], [7, 'adze']]" = .ok file ∧
      parse "items = [[7, 'axe'], [2, 'saw'], [7, 'adze']]" = .error (.duplicateItem 7)) ∧
      (ofList [⟨7, "axe"⟩, ⟨2, "saw"⟩, ⟨7, "adze"⟩]).find? 7 = some ⟨7, "adze"⟩ := by
  have hfile : CatalogFile.parse "items = [[7, 'axe'], [2, 'saw'], [7, 'adze']]" =
      .ok ⟨[⟨7, "axe"⟩, ⟨2, "saw"⟩, ⟨7, "adze"⟩], []⟩ := by
    decide +kernel
  obtain ⟨-, hparse, hlist⟩ := fills_and_keepsLast
  refine ⟨⟨_, hfile, ?_⟩, ?_⟩
  · refine ((hparse _ _ hfile).error_iff _).mpr ?_
    exact ⟨[⟨7, "axe"⟩, ⟨2, "saw"⟩], ⟨7, "adze"⟩, [], rfl, by decide, by decide, rfl⟩
  · refine ((hlist _).find?_iff _ _).mpr ?_
    exact ⟨rfl, [⟨7, "axe"⟩, ⟨2, "saw"⟩], [], rfl, by simp⟩

end ItemCatalog

namespace SkillCatalog

variable {skills : List Skill} {skill found : Skill} {name name' : List Char}

theorem key_eq_iff {s t : List Char} : Skill.key s = Skill.key t ↔ Text.sameLetters s t :=
  String.ofList_inj.trans Text.sameLetters_iff.symm

theorem ofList_concat (skills : List Skill) (skill : Skill) :
    ofList (skills ++ [skill]) = (ofList skills).insert skill :=
  List.foldl_concat ..

/-- A text finds the last skill that has the name in the text, up to letter case. -/
theorem find?_ofList_eq_some_iff :
    (ofList skills).find? name = some found ↔
      IsLast (fun skill => Text.sameLetters skill.name.toList (Text.trim name)) found skills := by
  induction skills using List.reverseRecOn with
  | nil => simp [ofList, not_isLast_nil]
  | append_singleton skills new ih =>
    simp only [ofList_concat, find?_insert, isLast_concat, ← ih, key_eq_iff]
    by_cases h : Text.sameLetters new.name.toList (Text.trim name) <;> simp [h, eq_comm]

/-- Blanks around a text and its letter case do not matter to what it finds. -/
theorem find?_congr (catalog : SkillCatalog)
    (h : Text.sameLetters (Text.trim name) (Text.trim name')) :
    catalog.find? name = catalog.find? name' := by
  rw [find?, find?, key_eq_iff.mpr h]

/-- A text without its blanks is as the text itself, up to letter case, only if it had none. -/
theorem trim_eq_self_of_sameLetters (h : Text.sameLetters name (Text.trim name)) :
    Text.trim name = name := by
  have hlower : Text.trim (Text.lower name) = Text.lower name :=
    (Text.trim_lower name).trans (Text.sameLetters_iff.mp h).symm
  have htrimmed := Text.isTrimmed_trim (Text.lower name)
  rw [hlower] at htrimmed
  exact Text.trim_eq_self (Text.isTrimmed_lower_iff.mp htrimmed)

/-- Catalogs of skills. A text finds the last skill that the text without the blanks around it names
up to letter case. For a skill of the list the last one of its name is found under this name exactly
if no blanks stand around it; a name with blanks finds what it names without them. -/
theorem find?_name_iff (skills : List Skill) :
    (∀ skill ∈ skills, ∃ last,
      IsLast (fun other => Text.sameLetters other.name.toList skill.name.toList) last skills ∧
        ((ofList skills).find? skill.name.toList = some last ↔
          Text.trim skill.name.toList = skill.name.toList)) ∧
      (∀ name found, (ofList skills).find? name = some found ↔
        IsLast (fun other => Text.sameLetters other.name.toList (Text.trim name)) found skills) ∧
      ∀ name name', Text.sameLetters (Text.trim name) (Text.trim name') →
        (ofList skills).find? name = (ofList skills).find? name' := by
  refine ⟨fun skill hskill => ?_, fun _ _ => find?_ofList_eq_some_iff,
    fun _ _ => find?_congr (ofList skills)⟩
  obtain ⟨last, hlast⟩ := exists_isLast
    (p := fun other => Text.sameLetters other.name.toList skill.name.toList) hskill
    (Text.sameLetters_iff.mpr rfl)
  refine ⟨last, hlast, ?_⟩
  rw [find?_ofList_eq_some_iff]
  constructor
  · intro hfound
    apply trim_eq_self_of_sameLetters
    exact Text.sameLetters_iff.mpr
      ((Text.sameLetters_iff.mp hlast.1).symm.trans (Text.sameLetters_iff.mp hfound.1))
  · intro htrim
    rwa [htrim]

/-- A skill under a name in capitals, found in small letters with blanks around them. -/
theorem find?_name_iff_mining :
    let skills : List Skill := [⟨"Fishing", none⟩, ⟨"MINING", none⟩]
    (ofList skills).find? "Fishing".toList = some ⟨"Fishing", none⟩ ∧
      (ofList skills).find? " mining ".toList = (ofList skills).find? "MINING".toList := by
  intro skills
  obtain ⟨hnamed, hfind, hsame⟩ := find?_name_iff skills
  refine ⟨?_, hsame _ _ (by decide)⟩
  obtain ⟨last, hlast, hiff⟩ := hnamed ⟨"Fishing", none⟩ (by simp [skills])
  have hfound := hiff.mpr (by decide)
  rw [hfound]
  obtain ⟨hname, hmem⟩ := And.intro hlast.1 hlast.mem
  simp only [skills, List.mem_cons, List.not_mem_nil, or_false] at hmem
  rcases hmem with rfl | rfl
  · rfl
  · exact absurd hname (by decide)

/-- A catalog of one skill whose name has blanks around it does not find it under this name. -/
theorem find?_ofList_blanks :
    (ofList [⟨" mining ", none⟩]).find? " mining ".toList = none := by
  rw [Option.eq_none_iff_forall_ne_some]
  intro found hfound
  obtain ⟨hname, hmem⟩ := And.intro (find?_ofList_eq_some_iff.mp hfound).1
    (find?_ofList_eq_some_iff.mp hfound).mem
  obtain rfl := List.mem_singleton.mp hmem
  exact absurd hname (by decide)

end SkillCatalog

end NpcScript
