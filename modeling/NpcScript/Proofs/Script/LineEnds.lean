import NpcScript.Proofs.Script.Locality
import NpcScript.Proofs.Script.Surrounded
import NpcScript.Proofs.Text.Lines

/-!
The line ends of a script. Whichever of the two line ends stands behind a line, and whether one
stands behind the last line, the same lines are read. Only a carriage return at the very end of a
script is no line end but a part of the last line. There it counts as a blank, so the line comes to
the same, and only the place at which the grammar rejects it may lie behind the blank.
-/

namespace NpcScript

open Text (FitsLine LineEnd)
open Grammar (IsGap)

namespace SourceLine

def numbered (texts : List String) : List SourceLine :=
  texts.zipIdx.map fun (text, index) => ⟨index + 1, text⟩

def written (lines : List (String × LineEnd)) : String :=
  String.join (lines.map fun (text, lineEnd) => text ++ String.ofList lineEnd.text)

theorem numbered_concat (texts : List String) (last : String) :
    numbered (texts ++ [last]) = numbered texts ++ [⟨texts.length + 1, last⟩] := by
  simp [numbered, List.zipIdx_append]

theorem ofText_eq_numbered (text : String) :
    ofText text = numbered ((Text.lines text.toList).map String.ofList) := by
  rw [ofText, numbered, List.zipIdx_map, List.map_map]
  rfl

variable {lines : List (String × LineEnd)} (hlines : ∀ line ∈ lines, FitsLine line.1.toList)

include hlines

theorem lines_written_append (rest : String) :
    (Text.lines (written lines ++ rest).toList).map String.ofList =
      lines.map Prod.fst ++ (Text.lines rest.toList).map String.ofList := by
  have hwritten : (written lines).toList =
      (lines.map fun line => (line.1.toList, line.2)).flatMap
        fun line => line.1 ++ line.2.text := by
    simp [written, String.toList_join, List.flatMap_map]
  have hfits : ∀ line ∈ lines.map fun line => (line.1.toList, line.2), FitsLine line.1 :=
    List.forall_mem_map.mpr hlines
  rw [String.toList_append, hwritten, Text.lines_flatMap_append hfits, List.map_append,
    List.map_map, List.map_map]
  simp [Function.comp_def]

theorem ofText_written : ofText (written lines) = numbered (lines.map Prod.fst) := by
  have happend := lines_written_append hlines ""
  rw [String.append_empty] at happend
  rw [ofText_eq_numbered, happend]
  simp [Text.lines, Text.linesOfStretches]

/-- What stands behind the last line end is one more line. -/
theorem ofText_written_append {last : String} (hlast : '\n' ∉ last.toList) (hne : last ≠ "") :
    ofText (written lines ++ last) =
      numbered (lines.map Prod.fst) ++ [⟨lines.length + 1, last⟩] := by
  have hline : Text.lines last.toList = [last.toList] :=
    Text.lines_of_not_mem hlast (by simpa using hne)
  rw [ofText_eq_numbered, lines_written_append hlines, hline, List.map_singleton,
    String.ofList_toList, numbered_concat, List.length_map]

end SourceLine

/-! ### A carriage return at the end -/

/-- The diagnostics are the same, except that another column may be given where the statement on the
line with this number is malformed. -/
def Diagnostic.SameButColumn (number : Nat) (diagnostic other : Diagnostic) : Prop :=
  other = diagnostic ∨
    diagnostic.line = number ∧
      (∃ keyword expected, diagnostic.cause = .malformedStatement keyword expected) ∧
      ∃ column, other = { diagnostic with column := some column }

/-- The documents are the same up to the column at which the statement on the line with this number
is malformed. -/
structure Document.SameButColumn (number : Nat) (document other : Document) : Prop where
  entries : other.entries = document.entries
  slots : other.slots = document.slots
  diagnostics : List.Forall₂ (Diagnostic.SameButColumn number) document.diagnostics.toList
    other.diagnostics.toList

theorem Document.SameButColumn.refl (number : Nat) (document : Document) :
    document.SameButColumn number document :=
  ⟨rfl, rfl, List.forall₂_same.mpr fun _ _ => .inl rfl⟩

theorem LineReading.shift_zero (reading : LineReading) : reading.shift 0 = reading := by
  have hissue : Issue.shift 0 = id := by
    funext issue
    obtain ⟨column, cause⟩ := issue
    cases column <;> rfl
  rw [shift, hissue, List.map_id]

theorem Document.addReading_sameButColumn (document : Document) (context : Context) (number : Nat)
    {line line' : List Char} {reading reading' : LineReading}
    (h : BothRejected line line' reading reading') :
    (document.addReading context number reading).SameButColumn number
      (document.addReading context number reading') := by
  obtain ⟨kind, column, column', keyword, expected, -, -, -, rfl, rfl⟩ := h
  refine ⟨rfl, rfl, ?_⟩
  rw [toList_diagnostics_addReading, toList_diagnostics_addReading]
  refine List.rel_append (List.forall₂_same.mpr fun _ _ => .inl rfl) (.cons (.inr ?_) .nil)
  exact ⟨rfl, ⟨_, _, rfl⟩, column', rfl⟩

theorem Document.ofLines_return (context : Context) (lines : List SourceLine) (number : Nat)
    (text : String) :
    (ofLines context (lines ++ [⟨number, text⟩])).SameButColumn number
      (ofLines context (lines ++ [⟨number, text ++ "\r"⟩])) := by
  have hreturn : IsGap ['\r'] := by simp [IsGap, Grammar.Reader.isGap]
  have hreading := @LineReading.ofLine_surrounded [] ['\r'] text.toList Grammar.isGap_nil hreturn
    context
  rw [List.nil_append, List.length_nil, LineReading.shift_zero] at hreading
  rw [ofLines_concat, ofLines_concat, String.toList_append]
  rcases hreading with hsame | hrejected
  · have hsame : LineReading.ofLine context (text.toList ++ "\r".toList) =
        LineReading.ofLine context text.toList := hsame
    rw [hsame]
    exact .refl number _
  · exact addReading_sameButColumn _ context number hrejected

/-! ### Scripts -/

/-- Line ends do not count. Texts that fit in lines make the same document with newlines, with
carriage returns and newlines or with both behind them, and it is the document of the texts as
numbered lines. A last text that is not empty needs no line end behind it. A carriage return alone
behind it may change the column at which it is found to be malformed, and nothing else. -/
theorem Document.ofScript_written (context : Context) {lines : List (String × LineEnd)}
    (hlines : ∀ line ∈ lines, FitsLine line.1.toList) :
    ofScript context (SourceLine.written lines) =
        ofLines context (SourceLine.numbered (lines.map Prod.fst)) ∧
      ∀ last : String, FitsLine last.toList → last ≠ "" →
        ofScript context (SourceLine.written lines ++ last) =
            ofLines context (SourceLine.numbered (lines.map Prod.fst ++ [last])) ∧
          (ofLines context (SourceLine.numbered (lines.map Prod.fst ++ [last]))).SameButColumn
            (lines.length + 1) (ofScript context (SourceLine.written lines ++ (last ++ "\r"))) := by
  refine ⟨by rw [ofScript, SourceLine.ofText_written hlines], fun last hlast hne => ?_⟩
  have hreturn : '\n' ∉ (last ++ "\r").toList := by simp [hlast.not_mem]
  rw [SourceLine.numbered_concat, List.length_map, ofScript, ofScript,
    SourceLine.ofText_written_append hlines hlast.not_mem hne,
    SourceLine.ofText_written_append hlines hreturn (by simp)]
  exact ⟨rfl, ofLines_return context _ _ last⟩

/-- The carriage return at the end does move the place at which a value is missed. -/
theorem Document.ofScript_written_race :
    let context : Context := { items := {}, skills := {} }
    let lines : List (String × LineEnd) :=
      [("name = \"Bob\"", .returnNewline), ("", .newline), ("-- \r-", .returnNewline)]
    let document := ofLines context (SourceLine.numbered ["name = \"Bob\"", "", "-- \r-", "race ="])
    let other := ofScript context "name = \"Bob\"\r\n\n-- \r-\r\nrace =\r"
    (∀ line ∈ lines, FitsLine line.1.toList) ∧ FitsLine "race =".toList ∧
      ofScript context "name = \"Bob\"\r\n\n-- \r-\r\nrace =" = document ∧
      document.SameButColumn 4 other ∧
      document.diagnostics.toList.map (·.column) = [some 7] ∧
      other.diagnostics.toList.map (·.column) = [some 8] := by
  intro context lines document other
  have hlines : ∀ line ∈ lines, FitsLine line.1.toList := by
    simp only [lines, List.forall_mem_cons]
    exact ⟨⟨by decide, by decide⟩, ⟨by decide, by decide⟩, ⟨by decide, by decide⟩, by simp⟩
  have hrace : FitsLine "race =".toList := ⟨by decide, by decide⟩
  obtain ⟨-, hlast⟩ := ofScript_written context hlines
  obtain ⟨hopen, hreturn⟩ := hlast "race =" hrace (by decide)
  exact ⟨hlines, hrace, hopen, hreturn, by decide +kernel, by decide +kernel⟩

end NpcScript
