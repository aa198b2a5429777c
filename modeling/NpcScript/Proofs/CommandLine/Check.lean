import NpcScript.CommandLine.Run
import NpcScript.Proofs.FileTree

/-!
What a check prints and how it ends. The findings of a run are those of the scripts read so far, one
after another; so a run over readable scripts finds what each of them holds by itself, and one that
meets an unreadable script ends with the lines of those before it.
-/

namespace NpcScript

namespace ScriptFile

variable (context : Context)

def diagnostics (script : ScriptFile) : List Diagnostic :=
  match script.text with
  | none => []
  | some text => (Document.ofScript context text).diagnostics.toList

/-- What a check prints about a script: one report for each diagnostic, with a mark behind the
warnings. A report that quotes a newline takes more than one line. -/
def report (script : ScriptFile) : List String :=
  (script.diagnostics context).map fun diagnostic =>
    script.path ++ ":" ++ diagnostic.render ++ if diagnostic.isWarning then " (warning)" else ""

end ScriptFile

namespace CommandLine

def Disk.scripts (disk : Disk) (path : String) : List ScriptFile :=
  match disk path with
  | none => []
  | some node => node.scripts path

/-! ### Selecting scripts -/

section Select

variable {disk : Disk}

theorem selectScripts_append {before : List String} (h : ∀ path ∈ before, disk path ≠ none)
    (others : List String) :
    selectScripts disk (before ++ others) =
      (selectScripts disk others).map (before.flatMap disk.scripts ++ ·) := by
  induction before with
  | nil => cases hothers : selectScripts disk others <;> simp [hothers, Except.map]
  | cons path before ih =>
      obtain ⟨node, hnode⟩ := Option.ne_none_iff_exists'.mp (h path (by simp))
      have ih := ih fun other hother => h other (by simp [hother])
      rw [List.cons_append, selectScripts, hnode]
      dsimp only
      rw [ih]
      cases selectScripts disk others <;> simp [Except.map, Disk.scripts, hnode]

theorem selectScripts_eq_ok {paths : List String} (h : ∀ path ∈ paths, disk path ≠ none) :
    selectScripts disk paths = .ok (paths.flatMap disk.scripts) := by
  have happend := selectScripts_append h []
  rw [List.append_nil] at happend
  rw [happend]
  simp [selectScripts, Except.map]

theorem selectScripts_eq_error {before : List String} (h : ∀ path ∈ before, disk path ≠ none)
    {path : String} (hpath : disk path = none) (after : List String) :
    selectScripts disk (before ++ path :: after) = .error path := by
  rw [selectScripts_append h, selectScripts, hpath]
  rfl

theorem mem_flatMap_scripts_iff {paths : List String} {script : ScriptFile} :
    script ∈ paths.flatMap disk.scripts ↔
      ∃ path ∈ paths, ∃ node, disk path = some node ∧ node.Offers path script := by
  rw [List.mem_flatMap]
  refine exists_congr fun path => and_congr_right fun _ => ?_
  cases hnode : disk path with
  | none => simp [Disk.scripts, hnode]
  | some node => simp [Disk.scripts, hnode, FileNode.mem_scripts_iff]

theorem length_scripts {path : String} {node : FileNode} (h : disk path = some node) :
    (disk.scripts path).length = node.scriptCount := by
  rw [Disk.scripts, h]
  exact node.length_scripts path

end Select

/-! ### Reading scripts -/

section Read

variable {context : Context}

def Findings.after (context : Context) (findings : Findings) (scripts : List ScriptFile) :
    Findings :=
  { lines := findings.lines ++ scripts.flatMap (ScriptFile.report context)
    errors :=
      findings.errors + (scripts.flatMap (ScriptFile.diagnostics context)).countP (!·.isWarning)
    warnings :=
      findings.warnings + (scripts.flatMap (ScriptFile.diagnostics context)).countP (·.isWarning) }

theorem Findings.after_nil (findings : Findings) : findings.after context [] = findings := by
  simp [after]

/-- A readable script adds its own lines and counts. -/
theorem Findings.after_cons {script : ScriptFile} {text : String} (htext : script.text = some text)
    (findings : Findings) (others : List ScriptFile) :
    findings.after context (script :: others) =
      (findings.addScript script.path (Document.ofScript context text).diagnostics.toList).after
        context others := by
  have hdiagnostics : script.diagnostics context =
      (Document.ofScript context text).diagnostics.toList := by
    rw [ScriptFile.diagnostics, htext]
  have hreport : script.report context =
      (Document.ofScript context text).diagnostics.toList.map (reportLine script.path) := by
    rw [ScriptFile.report, hdiagnostics]
    rfl
  simp [after, addScript, hdiagnostics, hreport, List.append_assoc, Nat.add_assoc]

theorem checkScripts_append {before : List ScriptFile} (h : ∀ script ∈ before, script.text ≠ none)
    (findings : Findings) (others : List ScriptFile) :
    checkScripts context findings (before ++ others) =
      checkScripts context (findings.after context before) others := by
  induction before generalizing findings with
  | nil => rw [Findings.after_nil, List.nil_append]
  | cons script before ih =>
      obtain ⟨text, htext⟩ := Option.ne_none_iff_exists'.mp (h script (by simp))
      rw [List.cons_append, checkScripts, htext]
      dsimp only
      rw [ih fun other hother => h other (by simp [hother]), ← Findings.after_cons htext]

theorem checkScripts_eq_ok {scripts : List ScriptFile} (h : ∀ script ∈ scripts, script.text ≠ none)
    (findings : Findings) :
    checkScripts context findings scripts = .ok (findings.after context scripts) := by
  have happend : checkScripts context findings (scripts ++ []) = _ :=
    checkScripts_append h findings []
  rw [List.append_nil] at happend
  rw [happend, checkScripts]

theorem checkScripts_eq_error {before : List ScriptFile}
    (h : ∀ script ∈ before, script.text ≠ none) {script : ScriptFile} (htext : script.text = none)
    (findings : Findings) (after : List ScriptFile) :
    checkScripts context findings (before ++ script :: after) =
      .error (fatal (findings.after context before).lines "reading" script.path) := by
  rw [checkScripts_append h, checkScripts, htext]

end Read

/-! ### The whole run -/

theorem fatal_eq (printed : List String) (activity path : String) :
    fatal printed activity path =
      { status := 1, errorLines := printed ++ ["Error: " ++ activity ++ " '" ++ path ++ "'"] } := by
  rfl

/-- A check first looks whether all its operands are there, and says nothing of any script if one is
missing. Then it reports the scripts that the operands stand for, all of them and as many as there
are, one after another up to the first that cannot be read. If there is none, it counts what it has
reported and fails if an error is among it, or a warning where warnings are denied. Of a run that
cannot go on, the first line of its end is told, without the causes below it. -/
theorem Command.run_check {disk : Disk} {dataDirectory : Option String} {catalogs : CatalogPaths}
    {context : Context} (hcatalogs : loadContext disk dataDirectory catalogs = .ok context)
    (paths : List String) (denyWarnings : Bool) :
    let output := Command.run disk dataDirectory (.check paths denyWarnings catalogs)
    let scripts := paths.flatMap disk.scripts
    let diagnostics := scripts.flatMap (ScriptFile.diagnostics context)
    let errors := diagnostics.countP (!·.isWarning)
    let warnings := diagnostics.countP (·.isWarning)
    (∀ before path after, paths = before ++ path :: after →
      (∀ earlier ∈ before, disk earlier ≠ none) → disk path = none →
      output = { status := 1, errorLines := ["Error: stat '" ++ path ++ "'"] }) ∧
    (∀ script, script ∈ scripts ↔
      ∃ path ∈ paths, ∃ node, disk path = some node ∧ node.Offers path script) ∧
    (∀ path ∈ paths, ∀ node, disk path = some node →
      (disk.scripts path).length = node.scriptCount) ∧
    ((∀ path ∈ paths, disk path ≠ none) →
      (∀ before script after, scripts = before ++ script :: after →
        (∀ earlier ∈ before, earlier.text ≠ none) → script.text = none →
        output =
          { status := 1
            errorLines :=
              before.flatMap (ScriptFile.report context) ++
                ["Error: reading '" ++ script.path ++ "'"] }) ∧
      ((∀ script ∈ scripts, script.text ≠ none) →
        output =
          { status := if 0 < errors ∨ denyWarnings = true ∧ 0 < warnings then 1 else 0
            errorLines := scripts.flatMap (ScriptFile.report context) ++
              [s!"check: {scripts.length} file(s), {errors} error(s), {warnings} warning(s)"]
          })) := by
  intro output scripts diagnostics errors warnings
  have houtput : output = runCheck disk context paths denyWarnings := by
    simp only [output, Command.run, hcatalogs]
  rw [houtput, runCheck]
  refine ⟨?_, fun script => mem_flatMap_scripts_iff, fun path _ node => length_scripts,
    fun hpaths => ⟨?_, ?_⟩⟩
  · rintro before path after rfl hbefore hpath
    rw [selectScripts_eq_error hbefore hpath]
    rfl
  · intro before script after hscripts hbefore htext
    have hselect : selectScripts disk paths = .ok (before ++ script :: after) := by
      rw [selectScripts_eq_ok hpaths, ← hscripts]
    rw [hselect]
    dsimp only
    rw [checkScripts_eq_error hbefore htext]
    simp [fatal_eq, Findings.after]
  · intro htexts
    have hfindings : ({} : Findings).after context scripts =
        ⟨scripts.flatMap (ScriptFile.report context), errors, warnings⟩ := by
      simp only [Findings.after, List.nil_append, Nat.zero_add, errors, warnings, diagnostics]
    rw [selectScripts_eq_ok hpaths]
    dsimp only
    rw [checkScripts_eq_ok htexts, hfindings]
    rfl

/-- A script in a directory is reported although the one behind it cannot be read, but not where an
operand is missing. -/
theorem Command.run_check_unreadable :
    let entries : List (String × FileNode) :=
      [("bob.npc", .file (some "hello\nname = \"Bob\""))]
    let disk : Disk := fun path =>
      if path = "npcs" then some (.directory [("inner", .directory entries)])
      else if path = "broken" then some (.file none)
      else none
    loadContext disk none {} = .ok { items := {}, skills := {} } ∧
      Command.run disk none (.check ["npcs", "gone", "broken"] false {}) =
        { status := 1, errorLines := ["Error: stat 'gone'"] } ∧
      Command.run disk none (.check ["npcs", "broken"] false {}) =
        { status := 1
          errorLines :=
            ["npcs/inner/bob.npc:1: line cannot be parsed: `hello`", "Error: reading 'broken'"] } ∧
      Command.run disk none (.check ["npcs"] true {}) =
        { status := 1
          errorLines :=
            ["npcs/inner/bob.npc:1: line cannot be parsed: `hello`",
              "check: 1 file(s), 1 error(s), 0 warning(s)"] } := by
  intro entries disk
  have hpath (name : String) (hname : name = "items.toml" ∨ name = "skills.toml") :
      catalogPath? disk none none name = none := by
    have hslash : "data".endsWith "/" = false := by decide +kernel
    rcases hname with rfl | rfl <;>
      simp [catalogPath?, FileNode.join, hslash, Disk.isFile, disk]
  have hcatalogs : loadContext disk none {} = .ok { items := {}, skills := {} } := by
    rw [loadContext, hpath _ (.inl rfl), hpath _ (.inr rfl)]
    rfl
  let script : ScriptFile := ⟨"npcs/inner/bob.npc", some "hello\nname = \"Bob\""⟩
  have hscripts : disk.scripts "npcs" = [script] := by
    have hname : FileNode.isScriptName "bob.npc" = true := by decide +kernel
    have hinner : FileNode.join "npcs" "inner" = "npcs/inner" := by decide +kernel
    have hfile : FileNode.join "npcs/inner" "bob.npc" = script.path := by
      show FileNode.join "npcs/inner" "bob.npc" = "npcs/inner/bob.npc"
      decide +kernel
    simp [Disk.scripts, disk, FileNode.scripts, FileNode.scriptsByEntry, FileNode.entryScripts,
      FileNode.sortByName, entries, hinner, hfile, hname, script]
  have hbroken : disk.scripts "broken" = [⟨"broken", none⟩] := rfl
  have hreport : script.report { items := {}, skills := {} } =
      ["npcs/inner/bob.npc:1: line cannot be parsed: `hello`"] := by decide +kernel
  have herrors : (script.diagnostics { items := {}, skills := {} }).countP (!·.isWarning) = 1 := by
    decide +kernel
  have hwarnings : (script.diagnostics { items := {}, skills := {} }).countP (·.isWarning) = 0 := by
    decide +kernel
  refine ⟨hcatalogs, ?_, ?_, ?_⟩
  · obtain ⟨hmissing, -, -⟩ := run_check hcatalogs ["npcs", "gone", "broken"] false
    exact hmissing ["npcs"] "gone" ["broken"] rfl (by simp [disk]) rfl
  · obtain ⟨-, -, -, hread⟩ := run_check hcatalogs ["npcs", "broken"] false
    obtain ⟨hunreadable, -⟩ := hread (by simp [disk])
    have hoperands : ["npcs", "broken"].flatMap disk.scripts = [script, ⟨"broken", none⟩] := by
      simp [hscripts, hbroken]
    rw [hunreadable [script] ⟨"broken", none⟩ [] hoperands (by simp [script]) rfl]
    simp [hreport]
  · obtain ⟨-, -, -, hread⟩ := run_check hcatalogs ["npcs"] true
    obtain ⟨-, hreadable⟩ := hread (by simp [disk])
    have hoperands : ["npcs"].flatMap disk.scripts = [script] := by simp [hscripts]
    rw [hoperands] at hreadable
    rw [hreadable (by simp [script])]
    simp only [List.flatMap_cons, List.flatMap_nil, List.append_nil, hreport, herrors, hwarnings]
    decide +kernel

end CommandLine

end NpcScript
