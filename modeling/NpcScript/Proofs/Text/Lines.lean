import NpcScript.Proofs.Text.Trim
import NpcScript.Text.Lines

/-!
Lines and their ends. A text that fits in a line is found again when it is written with any of the
two line ends behind it, and behind the last line end of a text stands one more line, unless nothing
stands there.
-/

namespace NpcScript.Text

/-- The text holds no line end, and no carriage return stands where a line end would follow. -/
structure FitsLine (s : List Char) : Prop where
  not_mem : '\n' ∉ s
  getLast?_ne : s.getLast? ≠ some '\r'

variable {s t : List Char}

theorem fitsLine_nil : FitsLine [] :=
  ⟨by simp, by simp⟩

theorem FitsLine.append (hs : FitsLine s) (ht : FitsLine t) : FitsLine (s ++ t) := by
  refine ⟨by simp [hs.not_mem, ht.not_mem], ?_⟩
  cases hlast : t.getLast? with
  | none => simpa [List.getLast?_append, hlast] using hs.getLast?_ne
  | some c => simpa [List.getLast?_append, hlast] using ht.getLast?_ne

theorem fitsLine_of_forall (h : ∀ c ∈ s, c ≠ '\n' ∧ c ≠ '\r') : FitsLine s :=
  ⟨fun hmem => (h _ hmem).1 rfl, fun hlast => (h _ (List.mem_of_mem_getLast? hlast)).2 rfl⟩

theorem IsTrimmed.fitsLine (h : IsTrimmed s) (hs : '\n' ∉ s) : FitsLine s := by
  refine ⟨hs, fun hlast => ?_⟩
  have hblank := h.last _ hlast
  exact absurd hblank (by decide)

theorem fitsLine_flatMap {α : Type} {f : α → List Char} {as : List α}
    (h : ∀ a ∈ as, FitsLine (f a)) : FitsLine (as.flatMap f) := by
  induction as with
  | nil => exact fitsLine_nil
  | cons a as ih =>
      rw [List.flatMap_cons]
      exact (h a (by simp)).append (ih fun b hb => h b (by simp [hb]))

theorem cut_append {isSeparator : Char → Bool} (hs : ∀ c ∈ s, isSeparator c = false)
    (t : List Char) :
    cut isSeparator (s ++ t) = (s ++ (cut isSeparator t).1, (cut isSeparator t).2) := by
  induction s with
  | nil => rfl
  | cons c s ih =>
      have hc := hs c (by simp)
      rw [List.cons_append, cut_cons, ih fun d hd => hs d (by simp [hd]), hc]
      rfl

/-! ### Line ends -/

/-- The two ways in which a line can end. -/
inductive LineEnd where
  | newline
  | returnNewline

def LineEnd.text : LineEnd → List Char
  | newline => ['\n']
  | returnNewline => ['\r', '\n']

theorem cut_newline_append (hs : '\n' ∉ s) (t : List Char) :
    cut (· == '\n') (s ++ t) = (s ++ (cut (· == '\n') t).1, (cut (· == '\n') t).2) := by
  refine cut_append (fun c hc => ?_) t
  rw [beq_eq_false_iff_ne]
  rintro rfl
  exact hs hc

theorem lines_newline_append (hs : '\n' ∉ s) (t : List Char) :
    lines (s ++ '\n' :: t) = dropReturn s :: lines t := by
  rw [lines, cut_newline_append hs, cut_cons]
  simp [lines, linesOfStretches]

/-- A text without a line end is a line as it is, also where a carriage return stands at its end. -/
theorem lines_of_not_mem (hs : '\n' ∉ s) (hne : s ≠ []) : lines s = [s] := by
  have hcut := cut_newline_append hs []
  rw [List.append_nil] at hcut
  rw [lines, hcut]
  simp [linesOfStretches, hne]

theorem lines_end_append (hs : FitsLine s) (lineEnd : LineEnd) (t : List Char) :
    lines (s ++ (lineEnd.text ++ t)) = s :: lines t := by
  cases lineEnd with
  | newline =>
      have hlines := lines_newline_append hs.not_mem t
      rwa [dropReturn, if_neg hs.getLast?_ne] at hlines
  | returnNewline =>
      have hreturn : '\n' ∉ s ++ ['\r'] := by simp [hs.not_mem]
      have hlines := lines_newline_append hreturn t
      rwa [dropReturn, if_pos (by simp), List.dropLast_concat, List.append_assoc] at hlines

/-- Lines that are written one after another, each with its end, are cut apart again. -/
theorem lines_flatMap_append {ls : List (List Char × LineEnd)} (h : ∀ l ∈ ls, FitsLine l.1)
    (t : List Char) :
    lines (ls.flatMap (fun l => l.1 ++ l.2.text) ++ t) = ls.map Prod.fst ++ lines t := by
  induction ls with
  | nil => rfl
  | cons l ls ih =>
      obtain ⟨hl, hls⟩ := List.forall_mem_cons.mp h
      rw [List.flatMap_cons, List.append_assoc, List.append_assoc, lines_end_append hl, ih hls]
      rfl

theorem lines_flatMap {ls : List (List Char)} (h : ∀ l ∈ ls, FitsLine l) :
    lines (ls.flatMap (· ++ ['\n'])) = ls := by
  have hended : ∀ l ∈ ls.map (·, LineEnd.newline), FitsLine l.1 := by
    simpa using h
  have hlines := lines_flatMap_append hended []
  rw [List.flatMap_map, List.append_nil, List.map_map] at hlines
  exact hlines.trans (by simp [Function.comp_def, lines, linesOfStretches])

end NpcScript.Text
