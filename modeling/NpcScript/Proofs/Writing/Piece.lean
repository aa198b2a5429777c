import NpcScript.Proofs.Grammar.Layout
import NpcScript.Proofs.Text.Lines

/-!
Texts to write. What is written must fit in a line, and it must be what the grammar says it is
wherever it stands in that line. A writer does not know the columns of what it writes, so
`Expresses` says of a text that at every offset it is some item of which a condition holds; the
rules below put such texts together in the ways in which the grammar does.
-/

namespace NpcScript

namespace Grammar

open Text (FitsLine)

variable {α β δ : Type} {item : List Char → Nat → α → Prop} {separator : List Char → Prop}
  {good good' : α → Prop} {s t : List Char}

/-- Wherever the text stands, it is an item of which `good` holds. -/
structure Expresses (item : List Char → Nat → α → Prop) (s : List Char) (good : α → Prop) :
    Prop where
  fitsLine : FitsLine s
  exists_item : ∀ offset, ∃ a, item s offset a ∧ good a

namespace Expresses

theorem mono (h : Expresses item s good) (hgood : ∀ a, good a → good' a) :
    Expresses item s good' := by
  refine ⟨h.fitsLine, fun offset => ?_⟩
  obtain ⟨a, ha, hgoodA⟩ := h.exists_item offset
  exact ⟨a, ha, hgood a hgoodA⟩

end Expresses

def behindCommas (texts : List (List Char)) : List Char :=
  texts.flatMap fun text => ',' :: ' ' :: text

def commas : List (List Char) → List Char
  | [] => []
  | text :: others => text ++ behindCommas others

theorem isMark_comma : IsMark ',' [',', ' '] :=
  .intro isGap_nil isGap_space

section Lists

variable {write : δ → List Char} {describes : δ → α → Prop} {drafts : List δ}

theorem Expresses.chain (hsep : separator [',', ' '])
    (h : ∀ draft ∈ drafts, Expresses item (write draft) (describes draft)) :
    Expresses (IsChain separator item) (behindCommas (drafts.map write))
      (List.Forall₂ describes drafts) := by
  refine ⟨?_, ?_⟩
  · have hcomma : FitsLine [',', ' '] := Text.fitsLine_of_forall (by simp)
    rw [behindCommas, List.flatMap_map]
    exact Text.fitsLine_flatMap fun draft hdraft => hcomma.append (h draft hdraft).fitsLine
  · induction drafts with
    | nil => exact fun offset => ⟨[], .nil, .nil⟩
    | cons draft drafts ih =>
        intro offset
        obtain ⟨a, ha, hdraft⟩ := (h draft (by simp)).exists_item (offset + 2)
        obtain ⟨as, has, hdrafts⟩ := ih (fun other hother => h other (by simp [hother]))
          (offset + 2 + (write draft).length)
        exact ⟨a :: as, .cons hsep ha has, .cons hdraft hdrafts⟩

/-- A list whose first member is of another make than the others. -/
theorem Expresses.rowCons {rest : List Char} {goods : List α → Prop} (hs : Expresses item s good)
    (hrest : Expresses (IsChain separator item) rest goods) :
    Expresses (IsRow separator item) (s ++ rest)
      fun as => ∃ a others, as = a :: others ∧ good a ∧ goods others := by
  refine ⟨hs.fitsLine.append hrest.fitsLine, fun offset => ?_⟩
  obtain ⟨a, ha, hgood⟩ := hs.exists_item offset
  obtain ⟨others, hothers, hgoods⟩ := hrest.exists_item (offset + s.length)
  exact ⟨a :: others, .cons ha hothers, a, others, rfl, hgood, hgoods⟩

theorem Expresses.row (hsep : separator [',', ' '])
    (h : ∀ draft ∈ drafts, Expresses item (write draft) (describes draft)) :
    Expresses (IsRow separator item) (commas (drafts.map write))
      (List.Forall₂ describes drafts) := by
  cases drafts with
  | nil => exact ⟨Text.fitsLine_nil, fun offset => ⟨[], .nil, .nil⟩⟩
  | cons draft drafts =>
      have hothers : ∀ other ∈ drafts, Expresses item (write other) (describes other) :=
        fun other hother => h other (by simp [hother])
      refine ((h draft (by simp)).rowCons (.chain hsep hothers)).mono fun as has => ?_
      obtain ⟨a, others, rfl, hdraft, hdrafts⟩ := has
      exact .cons hdraft hdrafts

theorem Expresses.parenthesised
    (h : ∀ draft ∈ drafts, Expresses item (write draft) (describes draft)) :
    Expresses (IsParenthesised item) ('(' :: (commas (drafts.map write) ++ [')']))
      (List.Forall₂ describes drafts) := by
  have hrow := Expresses.row isMark_comma h
  have hopen : FitsLine ['('] := Text.fitsLine_of_forall (by simp)
  have hclose : FitsLine [')'] := Text.fitsLine_of_forall (by simp)
  refine ⟨hopen.append (hrow.fitsLine.append hclose), fun offset => ?_⟩
  obtain ⟨as, has, hdrafts⟩ := hrow.exists_item (offset + 1)
  exact ⟨as, .intro isGap_nil has isGap_nil, hdrafts⟩

end Lists

end Grammar

end NpcScript
