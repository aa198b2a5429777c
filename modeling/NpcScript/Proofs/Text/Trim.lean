import NpcScript.Text.Character
import Mathlib.Data.List.DropRight

/-!
Trimmed texts: those which neither begin nor end with a blank. Trimming leaves such a text, and
leaves alone a text that is one already.
-/

namespace NpcScript.Text

structure IsTrimmed (s : List Char) : Prop where
  head : ∀ c, s.head? = some c → isBlank c = false
  last : ∀ c, s.getLast? = some c → isBlank c = false

theorem trimEnd_eq_rdropWhile (s : List Char) : trimEnd s = s.rdropWhile isBlank :=
  rfl

/-- Trimming takes blanks away on either side and nothing else. -/
theorem exists_eq_append_trim (s : List Char) :
    ∃ before after, s = before ++ trim s ++ after ∧
      (∀ c ∈ before, isBlank c = true) ∧ ∀ c ∈ after, isBlank c = true := by
  refine ⟨s.takeWhile isBlank, (trimStart s).rtakeWhile isBlank, ?_, ?_, ?_⟩
  · rw [trim, trimEnd_eq_rdropWhile, List.append_assoc, List.rdropWhile_append_rtakeWhile,
      trimStart, List.takeWhile_append_dropWhile]
  · intro c hc
    exact List.mem_takeWhile_imp hc
  · intro c hc
    exact List.mem_rtakeWhile_imp hc

theorem isBlank_head_trimStart {s : List Char} {c : Char} (h : (trimStart s).head? = some c) :
    isBlank c = false := by
  have hnot := List.head?_dropWhile_not isBlank s
  rw [trimStart] at h
  rw [h] at hnot
  exact hnot

theorem isTrimmed_trim (s : List Char) : IsTrimmed (trim s) := by
  refine ⟨?_, ?_⟩
  · intro c hc
    -- Trimming the end leaves the first character in place.
    obtain ⟨rest, hrest⟩ : trim s <+: trimStart s := List.rdropWhile_prefix isBlank _
    apply isBlank_head_trimStart (s := s)
    rw [← hrest, List.head?_append, hc]
    rfl
  · intro c hc
    have hne : trim s ≠ [] := by
      intro hnil
      simp [hnil] at hc
    rw [List.getLast?_eq_getLast_of_ne_nil hne, Option.some.injEq] at hc
    have hnot := List.rdropWhile_last_not isBlank (trimStart s) hne
    rw [← hc]
    exact Bool.eq_false_iff.mpr hnot

theorem trim_eq_self {s : List Char} (h : IsTrimmed s) : trim s = s := by
  have hstart : trimStart s = s := by
    cases s with
    | nil => rfl
    | cons c s => exact List.dropWhile_cons_of_neg (by simp [h.head c rfl])
  rw [trim, hstart, trimEnd_eq_rdropWhile, List.rdropWhile_eq_self_iff]
  intro hne
  simp [h.last _ (List.getLast?_eq_getLast_of_ne_nil hne)]

/-- A trimmed text with blanks in front still stands at the front when the whole is trimmed. -/
theorem exists_trim_append {start s : List Char} (hstart : ∀ c ∈ start, isBlank c = true)
    (hs : IsTrimmed s) (hne : s ≠ []) (t : List Char) :
    trimStart (start ++ (s ++ t)) = s ++ t ∧ ∃ u, trim (start ++ (s ++ t)) = s ++ u ∧ u <+: t := by
  have htrimStart : trimStart (start ++ (s ++ t)) = s ++ t := by
    rw [trimStart, List.dropWhile_append_of_pos hstart]
    obtain ⟨c, s, rfl⟩ := List.exists_cons_of_ne_nil hne
    exact List.dropWhile_cons_of_neg (by simp [hs.head c rfl])
  refine ⟨htrimStart, ?_⟩
  rw [trim, htrimStart, trimEnd, List.reverse_append, List.dropWhile_append]
  split
  · have hself : trimEnd s = s := by
      have htrim := trim_eq_self hs
      rw [trim, trimStart] at htrim
      obtain ⟨c, s, rfl⟩ := List.exists_cons_of_ne_nil hne
      rwa [List.dropWhile_cons_of_neg (by simp [hs.head c rfl])] at htrim
    exact ⟨[], by simpa [trimEnd] using hself, List.nil_prefix⟩
  · exact ⟨t.rdropWhile isBlank, by simp [List.rdropWhile], List.rdropWhile_prefix isBlank t⟩

@[simp] theorem trim_trim (s : List Char) : trim (trim s) = trim s :=
  trim_eq_self (isTrimmed_trim s)

theorem isTrimmed_of_forall {s : List Char} (h : ∀ c ∈ s, isBlank c = false) : IsTrimmed s :=
  ⟨fun c hc => h c (List.mem_of_mem_head? hc), fun c hc => h c (List.mem_of_mem_getLast? hc)⟩

theorem isTrimmed_singleton {c : Char} (h : isBlank c = false) : IsTrimmed [c] :=
  isTrimmed_of_forall (by simpa using h)

/-- What stands between two trimmed texts does not matter. -/
theorem IsTrimmed.enclose {s t : List Char} (hs : IsTrimmed s) (hsne : s ≠ []) (ht : IsTrimmed t)
    (htne : t ≠ []) (between : List Char) : IsTrimmed (s ++ (between ++ t)) := by
  refine ⟨fun c hc => hs.head c ?_, fun c hc => ht.last c ?_⟩
  · rw [List.head?_append_of_ne_nil s hsne] at hc
    exact hc
  · rw [← List.append_assoc, List.getLast?_append_of_ne_nil _ htne] at hc
    exact hc

/-! ### Letter case -/

/-- What holds alike of the capital and the small form of every letter below 128 holds alike of
those of every character, since no other character has two forms. -/
theorem apply_toLower {p : Char → Bool}
    (h : ∀ n < 128, p (Char.ofNat n).toLower = p (Char.ofNat n)) (c : Char) :
    p c.toLower = p c := by
  by_cases hsmall : c.toNat < 128
  · have hc := h c.toNat hsmall
    rw [Char.ofNat_toNat] at hc
    exact hc
  · have hlarge : ¬ (c.val ≥ 'A'.val ∧ c.val ≤ 'Z'.val) := by
      rintro ⟨-, hle⟩
      have hle : c.toNat ≤ 90 := UInt32.le_iff_toNat_le.mp hle
      omega
    have hsame : c.toLower = c := dif_neg hlarge
    rw [hsame]

@[simp] theorem isBlank_toLower (c : Char) : isBlank c.toLower = isBlank c :=
  apply_toLower (by decide) c

theorem isTrimmed_lower_iff {s : List Char} : IsTrimmed (lower s) ↔ IsTrimmed s := by
  constructor
  · intro h
    refine ⟨fun c hc => ?_, fun c hc => ?_⟩
    · simpa using h.head c.toLower (by simp [lower, hc])
    · simpa using h.last c.toLower (by simp [lower, hc])
  · intro h
    refine ⟨fun c hc => ?_, fun c hc => ?_⟩
    · obtain ⟨d, hd, rfl⟩ : ∃ d, s.head? = some d ∧ d.toLower = c := by simpa [lower] using hc
      simpa using h.head d hd
    · obtain ⟨d, hd, rfl⟩ : ∃ d, s.getLast? = some d ∧ d.toLower = c := by simpa [lower] using hc
      simpa using h.last d hd

end NpcScript.Text
