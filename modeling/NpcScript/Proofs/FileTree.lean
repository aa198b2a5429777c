import NpcScript.FileTree

/-!
The scripts that an operand stands for. What a directory offers is said without the order in which
its entries are visited: `HasScript` follows the names from the directory down to a file that has
the name of a script. The walk finds these scripts and no others, and each of them once: it finds
as many as there are.
-/

namespace NpcScript.FileNode

/-- Below a directory with these entries lies the script. The names of the directories on the way
to it do not matter. -/
inductive HasScript : String → List (String × FileNode) → ScriptFile → Prop
  | file {path name : String} {entries : List (String × FileNode)} {text : Option String}
      (hentry : (name, .file text) ∈ entries) (hname : isScriptName name = true) :
      HasScript path entries ⟨join path name, text⟩
  | nested {path name : String} {entries inner : List (String × FileNode)} {script : ScriptFile}
      (hentry : (name, .directory inner) ∈ entries)
      (hscript : HasScript (join path name) inner script) : HasScript path entries script

/-- The script is one that the operand stands for: a file stands for itself, whatever its name, and
a directory for the scripts below it. -/
inductive Offers (path : String) : FileNode → ScriptFile → Prop
  | file (text : Option String) : Offers path (.file text) ⟨path, text⟩
  | directory {entries : List (String × FileNode)} {script : ScriptFile}
      (hscript : HasScript path entries script) : Offers path (.directory entries) script

theorem scriptsByEntry_eq_map (path : String) (entries : List (String × FileNode)) :
    scriptsByEntry path entries =
      entries.map fun (name, node) => (name, node.entryScripts path name) := by
  induction entries with
  | nil => rfl
  | cons entry others ih =>
      obtain ⟨name, node⟩ := entry
      rw [scriptsByEntry, ih]
      rfl

/-- A directory among the entries of another one is walked like an operand of its own. -/
theorem entryScripts_directory (path name : String) (entries : List (String × FileNode)) :
    (directory entries).entryScripts path name = (directory entries).scripts (join path name) := by
  rw [entryScripts, scripts]

/-- Sorting entries by their names loses none of them. -/
theorem mem_scripts_directory {path : String} {entries : List (String × FileNode)}
    {script : ScriptFile} :
    script ∈ (directory entries).scripts path ↔
      ∃ name node, (name, node) ∈ entries ∧ script ∈ node.entryScripts path name := by
  simp only [scripts, sortByName, List.mem_flatMap, List.mem_mergeSort, scriptsByEntry_eq_map,
    List.mem_map, Prod.exists]
  constructor
  · rintro ⟨found, scripts, ⟨name, node, hentry, heq⟩, hscript⟩
    obtain ⟨rfl, rfl⟩ := Prod.mk.inj heq
    exact ⟨name, node, hentry, hscript⟩
  · rintro ⟨name, node, hentry, hscript⟩
    exact ⟨name, _, ⟨name, node, hentry, rfl⟩, hscript⟩

mutual

theorem hasScript_of_mem_entryScripts {path name : String} {script : ScriptFile} :
    ∀ (node : FileNode), script ∈ node.entryScripts path name →
      ∀ entries, (name, node) ∈ entries → HasScript path entries script
  | .file text, hscript, entries, hentry => by
      rw [entryScripts] at hscript
      split at hscript
      · rename_i hname
        obtain rfl := List.mem_singleton.mp hscript
        exact .file hentry hname
      · cases hscript
  | .directory inner, hscript, entries, hentry => by
      rw [entryScripts_directory, mem_scripts_directory] at hscript
      obtain ⟨inside, node, hnode, hfound⟩ := hscript
      exact .nested hentry (hasScript_of_mem inner hnode hfound inner fun _ h => h)

theorem hasScript_of_mem {path name : String} {script : ScriptFile} {node : FileNode} :
    ∀ (inner : List (String × FileNode)), (name, node) ∈ inner →
      script ∈ node.entryScripts path name →
      ∀ entries, inner ⊆ entries → HasScript path entries script
  | [], hnode, _, _, _ => by cases hnode
  | (other, first) :: others, hnode, hscript, entries, hsub => by
      rcases List.mem_cons.mp hnode with heq | hnode
      · obtain ⟨rfl, rfl⟩ := Prod.mk.inj heq
        exact hasScript_of_mem_entryScripts node hscript entries (hsub (by simp))
      · exact hasScript_of_mem others hnode hscript entries fun entry h => hsub (by simp [h])

end

/-- The walk through a directory finds the scripts below it. -/
theorem mem_scripts_directory_iff {path : String} {entries : List (String × FileNode)}
    {script : ScriptFile} :
    script ∈ (directory entries).scripts path ↔ HasScript path entries script := by
  constructor
  · intro hscript
    obtain ⟨name, node, hnode, hfound⟩ := mem_scripts_directory.mp hscript
    exact hasScript_of_mem_entryScripts node hfound entries hnode
  · intro h
    induction h with
    | @file path name entries text hentry hname =>
        refine mem_scripts_directory.mpr ⟨name, .file text, hentry, ?_⟩
        rw [entryScripts, if_pos hname]
        exact List.mem_singleton.mpr rfl
    | @nested path name entries inner script hentry hscript ih =>
        refine mem_scripts_directory.mpr ⟨name, .directory inner, hentry, ?_⟩
        rw [entryScripts_directory]
        exact ih

theorem mem_scripts_iff {path : String} {node : FileNode} {script : ScriptFile} :
    script ∈ node.scripts path ↔ node.Offers path script := by
  cases node with
  | file text =>
      rw [scripts, List.mem_singleton]
      constructor
      · rintro rfl
        exact .file text
      · intro h
        cases h
        rfl
  | directory entries =>
      rw [mem_scripts_directory_iff]
      constructor
      · exact .directory
      · intro h
        cases h with
        | directory hscript => exact hscript

/-! ### Counting -/

mutual

def entryScriptCount (name : String) : FileNode → Nat
  | file _ => if isScriptName name then 1 else 0
  | directory entries => scriptCountBelow entries

def scriptCountBelow : List (String × FileNode) → Nat
  | [] => 0
  | (name, node) :: others => node.entryScriptCount name + scriptCountBelow others

end

def scriptCount : FileNode → Nat
  | file _ => 1
  | directory entries => scriptCountBelow entries

/-- Sorting by name moves what belongs to the names and drops none of it. -/
theorem length_flatMap_sortByName {α : Type} (pairs : List (String × List α)) :
    ((sortByName pairs).flatMap Prod.snd).length = (pairs.flatMap Prod.snd).length :=
  ((List.mergeSort_perm pairs _).flatMap_right Prod.snd).length_eq

mutual

theorem length_entryScripts (path name : String) :
    ∀ node : FileNode, (node.entryScripts path name).length = node.entryScriptCount name
  | .file text => by
      rw [entryScripts, entryScriptCount]
      split <;> rfl
  | .directory entries => by
      rw [entryScripts, length_flatMap_sortByName, length_scriptsByEntry, entryScriptCount]

theorem length_scriptsByEntry (path : String) :
    ∀ entries : List (String × FileNode),
      ((scriptsByEntry path entries).flatMap Prod.snd).length = scriptCountBelow entries
  | [] => by rw [scriptsByEntry, scriptCountBelow]; rfl
  | (name, node) :: others => by
      rw [scriptsByEntry, List.flatMap_cons, List.length_append, length_scriptsByEntry path others,
        length_entryScripts path name node, scriptCountBelow]

end

theorem length_scripts (path : String) (node : FileNode) :
    (node.scripts path).length = node.scriptCount := by
  cases node with
  | file text => rw [scripts, scriptCount, List.length_singleton]
  | directory entries =>
      rw [scripts, scriptCount, length_flatMap_sortByName, length_scriptsByEntry]

end NpcScript.FileNode
