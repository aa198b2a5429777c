import NpcScript.CommandLine.Run
import NpcScript.Proofs.Dump.Statement

/-!
A dump loses nothing of what it shows: two documents with the same dump have the same entries and
the same diagnostics. So what the command prints for a script tells what was read of it, whichever
script it was.
-/

namespace NpcScript

open Ron (Value)

theorem Cause.isFaithful_toRon : IsFaithful Cause.toRon where
  isLegible a := by cases a <;> simp +decide [toRon]
  inj a b := by cases a <;> cases b <;> simp [toRon]

theorem Diagnostic.isFaithful_toRon : IsFaithful Diagnostic.toRon where
  isLegible a := by
    simp +decide [toRon, IsFaithful.natural.ofOption.isLegible, Cause.isFaithful_toRon.isLegible]
  inj := by
    rintro ⟨⟩ ⟨⟩
    simp [toRon, IsFaithful.natural.ofOption.inj, Cause.isFaithful_toRon.inj]

theorem Entry.isFaithful_toRon : IsFaithful Entry.toRon where
  isLegible a := by simp +decide [toRon, Statement.isFaithful_toRon.isLegible]
  inj := by
    rintro ⟨⟩ ⟨⟩
    simp [toRon, Statement.isFaithful_toRon.inj]

namespace Document

variable {a b : Document}

theorem isLegible_toRon (document : Document) : document.toRon.IsLegible := by
  simp +decide [toRon, Entry.isFaithful_toRon.isLegible, Diagnostic.isFaithful_toRon.isLegible]

theorem toRon_inj_iff :
    a.toRon = b.toRon ↔ a.entries = b.entries ∧ a.diagnostics = b.diagnostics := by
  simp [toRon, Entry.isFaithful_toRon.list.inj, Diagnostic.isFaithful_toRon.list.inj,
    Array.toList_inj]

theorem dump_inj_iff :
    a.dump = b.dump ↔ a.entries = b.entries ∧ a.diagnostics = b.diagnostics := by
  rw [← toRon_inj_iff]
  exact ⟨Value.render_inj a.isLegible_toRon b.isLegible_toRon, congrArg Value.render⟩

end Document

namespace CommandLine

theorem standardOutput_runDump {disk : Disk} {path source : String}
    (h : disk.text? path = some source) (context : Context) :
    (runDump disk context path).standardOutput =
      (Document.ofScript context source).dump ++ "\n" := by
  rw [runDump, h]

/-- What is printed for two scripts is the same only if the same was read of both, with the same
diagnostics. -/
theorem standardOutput_runDump_inj_iff {disk₁ disk₂ : Disk} {path₁ path₂ source₁ source₂ : String}
    (h₁ : disk₁.text? path₁ = some source₁) (h₂ : disk₂.text? path₂ = some source₂)
    (context₁ context₂ : Context) :
    (runDump disk₁ context₁ path₁).standardOutput = (runDump disk₂ context₂ path₂).standardOutput ↔
      (Document.ofScript context₁ source₁).entries = (Document.ofScript context₂ source₂).entries ∧
        (Document.ofScript context₁ source₁).diagnostics =
          (Document.ofScript context₂ source₂).diagnostics := by
  rw [standardOutput_runDump h₁, standardOutput_runDump h₂, ← Document.dump_inj_iff]
  constructor
  · intro h
    have hlists := congrArg String.toList h
    rw [String.toList_append, String.toList_append] at hlists
    exact String.toList_inj.mp (List.append_cancel_right hlists)
  · exact congrArg (· ++ "\n")

/-- How the lines end does not show in a dump, but each backslash of a comment does. -/
theorem standardOutput_runDump_inj_iff_comment :
    let context : Context := { items := {}, skills := {} }
    let printed (source : String) : String :=
      (runDump (fun _ => some (.file source)) context "a.npc").standardOutput
    printed "-- \"\n" = printed "-- \"\r\n" ∧ printed "-- \"\n" ≠ printed "-- \\\"\n" := by
  intro context printed
  constructor
  · exact (standardOutput_runDump_inj_iff rfl rfl context context).mpr
      ⟨by decide +kernel, by decide +kernel⟩
  · intro h
    exact absurd ((standardOutput_runDump_inj_iff rfl rfl context context).mp h).1
      (by decide +kernel)

end CommandLine

end NpcScript
