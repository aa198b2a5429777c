import NpcScript.Proofs.Script.Line

/-!
Scripts piece by piece. The document of a script merges the entries of its lines and lists their
diagnostics, so the document of a longer script is put together from those of its parts: the entries
of the later part are added again to the document of the earlier one. A line without a statement
leaves no trace but its diagnostics.
-/

namespace NpcScript

namespace Document

def replay (document : Document) (entries : List Entry) : Document :=
  entries.foldl (fun document entry => document.add entry.line entry.statement) document

/-- Of a document whose slots are true to its entries, the entries and diagnostics say all. -/
theorem IsIndexed.ext {first second : Document} (hfirst : first.IsIndexed)
    (hsecond : second.IsIndexed) (hentries : first.entries.toList = second.entries.toList)
    (hdiagnostics : first.diagnostics.toList = second.diagnostics.toList) : first = second := by
  have hslots : first.slots = second.slots := by
    rw [hfirst.slots_eq, hsecond.slots_eq, hentries]
  obtain ⟨entries, diagnostics, slots⟩ := first
  obtain ⟨entries', diagnostics', slots'⟩ := second
  obtain rfl : entries = entries' := Array.toList_inj.mp hentries
  obtain rfl : diagnostics = diagnostics' := Array.toList_inj.mp hdiagnostics
  obtain rfl : slots = slots' := hslots
  rfl

variable {document : Document}

theorem IsIndexed.replay (h : document.IsIndexed) (entries : List Entry) :
    (document.replay entries).IsIndexed := by
  induction entries generalizing document with
  | nil => exact h
  | cons entry entries ih => exact ih (h.add entry.line entry.statement)

theorem toList_entries_replay (h : document.IsIndexed) (entries : List Entry) :
    (document.replay entries).entries.toList = merge document.entries.toList entries := by
  induction entries generalizing document with
  | nil => rfl
  | cons entry entries ih =>
      rw [merge_cons, ← h.toList_entries_add entry.line entry.statement]
      exact ih (h.add entry.line entry.statement)

end Document

/-! ### What a line contributes -/

def SourceLine.entry? (context : Context) (line : SourceLine) : Option Entry :=
  (LineReading.ofLine context line.text.toList).statement.map (⟨line.number, ·⟩)

def SourceLine.diagnostics (context : Context) (line : SourceLine) : List Diagnostic :=
  (LineReading.ofLine context line.text.toList).issues.map (Issue.diagnostic context line.number)

/-- The scanner is between statements after every line. -/
theorem Scanner.foldl_feed (context : Context) (lines : List SourceLine) :
    lines.foldl (feed context) {} = ⟨Document.ofLines context lines, .scanning⟩ := by
  induction lines using List.reverseRecOn with
  | nil => rfl
  | append_singleton lines line ih =>
      rw [Document.ofLines, List.foldl_concat, ih, feed_scanning]

namespace Document

variable (context : Context)

theorem ofLines_concat (lines : List SourceLine) (line : SourceLine) :
    ofLines context (lines ++ [line]) =
      (ofLines context lines).addReading context line.number
        (LineReading.ofLine context line.text.toList) := by
  rw [ofLines, List.foldl_concat, Scanner.foldl_feed, Scanner.feed_scanning]

theorem isIndexed_ofLines (lines : List SourceLine) : (ofLines context lines).IsIndexed := by
  induction lines using List.reverseRecOn with
  | nil => exact IsIndexed.empty
  | append_singleton lines line ih =>
      rw [ofLines_concat]
      exact ih.addReading context line.number _

/-- The entries of a script are those of its lines, merged. -/
theorem toList_entries_ofLines (lines : List SourceLine) :
    (ofLines context lines).entries.toList =
      merge [] (lines.filterMap (SourceLine.entry? context)) := by
  induction lines using List.reverseRecOn with
  | nil => rfl
  | append_singleton lines line ih =>
      have hgains := (isIndexed_ofLines context lines).gains_addReading context line.number
        (LineReading.ofLine context line.text.toList)
      rw [ofLines_concat, hgains.entries, ih, List.filterMap_append, merge_append]
      change merge _ (line.entry? context).toList = _
      cases hentry : line.entry? context <;> simp [hentry]

/-- The diagnostics of a script are those of its lines, one line after another. -/
theorem toList_diagnostics_ofLines (lines : List SourceLine) :
    (ofLines context lines).diagnostics.toList =
      lines.flatMap (SourceLine.diagnostics context) := by
  induction lines using List.reverseRecOn with
  | nil => rfl
  | append_singleton lines line ih =>
      rw [ofLines_concat, toList_diagnostics_addReading, ih, List.flatMap_append,
        List.flatMap_singleton]
      rfl

/-! ### Scripts in pieces -/

theorem ofLines_append_eq (xs ys : List SourceLine) :
    ofLines context (xs ++ ys) =
      { (ofLines context xs).replay (ofLines context ys).entries.toList with
        diagnostics := (ofLines context xs).diagnostics ++ (ofLines context ys).diagnostics } := by
  have hxs := isIndexed_ofLines context xs
  have hreplayed := hxs.replay (ofLines context ys).entries.toList
  -- The slots follow from the entries, and the entries of `ys` were merged once before they are
  -- replayed, which makes no difference.
  refine (isIndexed_ofLines context (xs ++ ys)).ext ⟨hreplayed.slots_eq, hreplayed.isDistinct⟩ ?_ ?_
  · rw [toList_entries_replay hxs, toList_entries_ofLines, toList_entries_ofLines,
      toList_entries_ofLines, merge_merge, List.filterMap_append, merge_append]
  · rw [Array.toList_append, toList_diagnostics_ofLines, toList_diagnostics_ofLines,
      toList_diagnostics_ofLines, List.flatMap_append]

theorem entry?_eq_none {line : SourceLine} (h : (ofLines context [line]).entries = #[]) :
    line.entry? context = none := by
  have hentries := toList_entries_ofLines context [line]
  rw [h] at hentries
  cases hentry : line.entry? context with
  | none => rfl
  | some entry => simp [hentry, put, IsTaken] at hentries

/-- Documents of scripts compose, and a line that states nothing leaves the others alone: the
entries of a later part are replayed, its diagnostics are appended, and no line is read in the light
of another. -/
theorem ofLines_append (xs ys : List SourceLine) :
    (xs.foldl (Scanner.feed context) {}).state = .scanning ∧
      ofLines context (xs ++ ys) =
        { (ofLines context xs).replay (ofLines context ys).entries.toList with
          diagnostics := (ofLines context xs).diagnostics ++ (ofLines context ys).diagnostics } ∧
      (∀ line, Scanner.feed context (xs.foldl (Scanner.feed context) {}) line =
        ⟨{ (ofLines context xs).replay (ofLines context [line]).entries.toList with
            diagnostics :=
              (ofLines context xs).diagnostics ++ (ofLines context [line]).diagnostics },
          .scanning⟩) ∧
      ∀ line, (ofLines context [line]).entries = #[] →
        (ofLines context (xs ++ line :: ys)).entries = (ofLines context (xs ++ ys)).entries ∧
          (ofLines context (xs ++ line :: ys)).diagnostics =
            (ofLines context xs).diagnostics ++ (ofLines context [line]).diagnostics ++
              (ofLines context ys).diagnostics := by
  refine ⟨by rw [Scanner.foldl_feed], ofLines_append_eq context xs ys, ?_, ?_⟩
  · intro line
    rw [← ofLines_append_eq, ← Scanner.foldl_feed, List.foldl_concat]
  · intro line hline
    refine ⟨Array.toList_inj.mp ?_, Array.toList_inj.mp ?_⟩
    · rw [toList_entries_ofLines, toList_entries_ofLines, List.filterMap_append,
        List.filterMap_append, List.filterMap_cons_none (entry?_eq_none context hline)]
    · rw [Array.toList_append, Array.toList_append, toList_diagnostics_ofLines,
        toList_diagnostics_ofLines, toList_diagnostics_ofLines, toList_diagnostics_ofLines,
        List.flatMap_append, List.flatMap_cons, List.flatMap_singleton, List.append_assoc]

/-- A line that is no statement between two names. -/
theorem ofLines_around_nonsense :
    let context : Context := { items := {}, skills := {} }
    let bob : SourceLine := ⟨1, "name = \"Bob\""⟩
    let nonsense : SourceLine := ⟨2, "nonsense"⟩
    let rob : SourceLine := ⟨3, "name = \"Rob\""⟩
    (ofLines context [nonsense]).entries = #[] ∧
      (ofLines context ([bob] ++ nonsense :: [rob])).entries =
        (ofLines context ([bob] ++ [rob])).entries := by
  intro context bob nonsense rob
  have hnone : (ofLines context [nonsense]).entries = #[] := by decide +kernel
  obtain ⟨-, -, -, hinsert⟩ := ofLines_append context [bob] [rob]
  exact ⟨hnone, (hinsert nonsense hnone).1⟩

end Document

end NpcScript
