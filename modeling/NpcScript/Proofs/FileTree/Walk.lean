import Mathlib.Data.List.Nodup
import NpcScript.Proofs.FileTree.Path

/-!
The walk through a directory. A walk sorts the entries of each directory by itself, and still the
paths of the whole list rise: two scripts part at some directory, and the names at which they part
are the first in which their paths differ. A rising list is settled by its members, and the scripts
below a directory are the same however its entries are listed, so the walk finds the same list.
-/

namespace NpcScript.FileNode

/-- A tree as a disk holds it. In each directory the names of the entries are file names, and no
name occurs twice. -/
inductive IsTree : FileNode → Prop
  | file (text : Option String) : IsTree (.file text)
  | directory {entries : List (String × FileNode)} (hdistinct : (entries.map Prod.fst).Nodup)
      (hnames : ∀ entry ∈ entries, IsFileName entry.1)
      (hnodes : ∀ entry ∈ entries, IsTree entry.2) : IsTree (.directory entries)

/-- The names lead from the first node to the second one, through directories only. -/
inductive Reaches : FileNode → List String → FileNode → Prop
  | here (node : FileNode) : Reaches node [] node
  | within {name : String} {node found : FileNode} {entries : List (String × FileNode)}
      {trail : List String} (hentry : (name, node) ∈ entries) (hfound : Reaches node trail found) :
      Reaches (.directory entries) (name :: trail) found

/-- The two trees differ at most in the order in which their directories list their entries. -/
inductive Relisted : FileNode → FileNode → Prop
  | refl (node : FileNode) : Relisted node node
  | reorder {entries others : List (String × FileNode)} (h : entries.Perm others) :
      Relisted (.directory entries) (.directory others)
  | inside {node other : FileNode} (before after : List (String × FileNode)) (name : String)
      (h : Relisted node other) :
      Relisted (.directory (before ++ (name, node) :: after))
        (.directory (before ++ (name, other) :: after))
  | trans {first second third : FileNode} (h : Relisted first second)
      (h' : Relisted second third) : Relisted first third

/-! ### Following names -/

section Reaches

variable {node found other : FileNode} {trail : List String}

theorem Reaches.exists_directory {name : String} (h : node.Reaches (trail ++ [name]) found) :
    ∃ entries, node = .directory entries := by
  generalize hnames : trail ++ [name] = names at h
  cases h with
  | here => simp at hnames
  | within => exact ⟨_, rfl⟩

theorem IsTree.isFileName_of_reaches (htree : node.IsTree) (h : node.Reaches trail found) :
    ∀ name ∈ trail, IsFileName name := by
  induction h with
  | here => simp
  | within hentry hfound ih =>
      cases htree with
      | directory hdistinct hnames hnodes =>
          exact List.forall_mem_cons.mpr ⟨hnames _ hentry, ih (hnodes _ hentry)⟩

/-- In a tree the same names lead to the same node. -/
theorem IsTree.reaches_unique (htree : node.IsTree) (h : node.Reaches trail found)
    (h' : node.Reaches trail other) : found = other := by
  induction h with
  | here =>
      cases h' with
      | here => rfl
  | within hentry hfound ih =>
      cases h' with
      | within hentry' hother =>
          cases htree with
          | directory hdistinct hnames hnodes =>
              obtain ⟨-, rfl⟩ :=
                Prod.mk.inj (List.inj_on_of_nodup_map hdistinct hentry hentry' rfl)
              exact ih (hnodes _ hentry) hother

/-- The paths of two trails are the same only if the trails are. -/
theorem IsTree.trail_inj (htree : node.IsTree) {others : List String} (h : node.Reaches trail found)
    (h' : node.Reaches others other) {path : String}
    (hpath : trail.foldl join path = others.foldl join path) : trail = others := by
  have hnames := congrArg pathNames hpath
  rw [pathNames_foldl_join (htree.isFileName_of_reaches h),
    pathNames_foldl_join (htree.isFileName_of_reaches h')] at hnames
  exact List.append_cancel_left hnames

end Reaches

/-! ### What is found -/

section Found

variable {path : String} {script : ScriptFile} {entries : List (String × FileNode)}

theorem hasScript_iff_reaches :
    HasScript path entries script ↔
      ∃ trail name, (directory entries).Reaches (trail ++ [name]) (.file script.text) ∧
        isScriptName name = true ∧ script.path = (trail ++ [name]).foldl join path := by
  constructor
  · intro h
    induction h with
    | @file path name entries text hentry hname =>
        exact ⟨[], name, .within hentry (.here _), hname, rfl⟩
    | @nested path directory entries inner script hentry hscript ih =>
        obtain ⟨trail, name, hreaches, hname, hpath⟩ := ih
        exact ⟨directory :: trail, name, .within hentry hreaches, hname, hpath⟩
  · rintro ⟨trail, name, hreaches, hname, hpath⟩
    obtain ⟨found, text⟩ := script
    induction trail generalizing path entries with
    | nil =>
        subst hpath
        cases hreaches with
        | within hentry hfound =>
            cases hfound
            exact .file hentry hname
    | cons directory trail ih =>
        cases hreaches with
        | within hentry hfound =>
            obtain ⟨inner, rfl⟩ := hfound.exists_directory
            exact .nested hentry (ih hfound hpath)

theorem mem_scripts_iff_reaches :
    script ∈ (directory entries).scripts path ↔
      ∃ trail name, (directory entries).Reaches (trail ++ [name]) (.file script.text) ∧
        HasExtension name "npc" ∧ script.path = (trail ++ [name]).foldl join path := by
  simp only [mem_scripts_directory_iff, hasScript_iff_reaches, isScriptName_iff]

/-- The path of a script that an entry stands for goes on with the name of the entry. -/
theorem exists_pathNames_of_mem_entryScripts {name : String} {node : FileNode}
    (hname : IsFileName name) (htree : node.IsTree) (h : script ∈ node.entryScripts path name) :
    ∃ rest, pathNames script.path = pathNames path ++ name :: rest := by
  have halone : (directory [(name, node)]).IsTree :=
    .directory (by simp) (by simpa using hname) (by simpa using htree)
  obtain ⟨trail, last, hreaches, -, hpath⟩ := hasScript_iff_reaches.mp
    (hasScript_of_mem_entryScripts node h [(name, node)] (List.mem_singleton.mpr rfl))
  have hnames := pathNames_foldl_join (halone.isFileName_of_reaches hreaches) path
  generalize trail ++ [last] = names at hreaches hpath hnames
  cases hreaches with
  | within hentry hfound =>
      obtain ⟨rfl, rfl⟩ := Prod.mk.inj (List.mem_singleton.mp hentry)
      exact ⟨_, by rw [hpath, hnames]⟩

end Found

/-! ### The order of the list -/

section Order

theorem map_fst_scriptsByEntry (path : String) (entries : List (String × FileNode)) :
    (scriptsByEntry path entries).map Prod.fst = entries.map Prod.fst := by
  rw [scriptsByEntry_eq_map, List.map_map]
  rfl

theorem pairwise_sortByName {α : Type} {pairs : List (String × α)}
    (h : (pairs.map Prod.fst).Nodup) :
    (sortByName pairs).Pairwise fun first second => first.1 < second.1 := by
  have hle : (sortByName pairs).Pairwise fun first second => first.1 ≤ second.1 := by
    have hsorted : (sortByName pairs).Pairwise
        fun first second => decide (first.1 ≤ second.1) = true :=
      List.pairwise_mergeSort
        (fun _ _ _ hab hbc => by
          simpa using le_trans (of_decide_eq_true hab) (of_decide_eq_true hbc))
        (fun first second => by simpa using le_total first.1 second.1) pairs
    exact hsorted.imp fun hle => of_decide_eq_true hle
  have hne : (sortByName pairs).Pairwise fun first second => first.1 ≠ second.1 := by
    have hperm := (List.mergeSort_perm pairs fun first second => first.1 ≤ second.1).map Prod.fst
    exact List.pairwise_map.mp (hperm.nodup_iff.mpr h)
  exact (hle.and hne).imp fun hboth => lt_of_le_of_ne hboth.1 hboth.2

theorem pairwise_entryScripts {path name : String} {node : FileNode}
    (h : (node.scripts (join path name)).Pairwise fun first second =>
      PathBefore first.path second.path) :
    (node.entryScripts path name).Pairwise fun first second =>
      PathBefore first.path second.path := by
  cases node with
  | file text =>
      rw [entryScripts]
      split
      · exact List.pairwise_singleton _ _
      · exact .nil
  | directory entries => rwa [entryScripts_directory]

/-- The scripts of a tree are listed by rising paths. -/
theorem IsTree.pairwise_scripts {node : FileNode} (h : node.IsTree) (path : String) :
    (node.scripts path).Pairwise fun first second => PathBefore first.path second.path := by
  induction h generalizing path with
  | file text => exact List.pairwise_singleton _ _
  | @directory entries hdistinct hnames hnodes ih =>
      have hmem : ∀ pair ∈ sortByName (scriptsByEntry path entries), ∃ entry ∈ entries,
          pair = (entry.1, entry.2.entryScripts path entry.1) := by
        intro pair hpair
        rw [sortByName, List.mem_mergeSort, scriptsByEntry_eq_map] at hpair
        obtain ⟨entry, hentry, rfl⟩ := List.mem_map.mp hpair
        exact ⟨entry, hentry, rfl⟩
      rw [scripts, List.pairwise_flatMap]
      constructor
      · intro pair hpair
        obtain ⟨entry, hentry, rfl⟩ := hmem pair hpair
        exact pairwise_entryScripts (ih entry hentry _)
      · -- Scripts of different entries part at the names of the entries, which rise.
        have hrising : (sortByName (scriptsByEntry path entries)).Pairwise
            fun first second => first.1 < second.1 := by
          refine pairwise_sortByName ?_
          rwa [map_fst_scriptsByEntry]
        refine hrising.imp_of_mem fun hfirst hsecond hlt script hscript other hother => ?_
        obtain ⟨entry, hentry, rfl⟩ := hmem _ hfirst
        obtain ⟨entry', hentry', rfl⟩ := hmem _ hsecond
        obtain ⟨rest, hrest⟩ := exists_pathNames_of_mem_entryScripts (hnames entry hentry)
          (hnodes entry hentry) hscript
        obtain ⟨rest', hrest'⟩ := exists_pathNames_of_mem_entryScripts (hnames entry' hentry')
          (hnodes entry' hentry') hother
        exact pathBefore_of_lt hrest hrest' hlt

/-- A list of scripts with rising paths is settled by its members. -/
theorem eq_of_pairwise_of_mem_iff {found others : List ScriptFile}
    (hfound : found.Pairwise fun first second => PathBefore first.path second.path)
    (hothers : others.Pairwise fun first second => PathBefore first.path second.path)
    (h : ∀ script, script ∈ found ↔ script ∈ others) : found = others := by
  have hnodup {list : List ScriptFile}
      (hlist : list.Pairwise fun first second => PathBefore first.path second.path) :
      list.Nodup :=
    hlist.imp fun hbefore => by
      rintro rfl
      exact PathBefore.irrefl _ hbefore
  refine List.Perm.eq_of_pairwise (fun first second _ _ hlt hgt => ?_) hfound hothers
    ((List.perm_ext_iff_of_nodup (hnodup hfound) (hnodup hothers)).mpr h)
  exact absurd hgt hlt.asymm

end Order

/-! ### Other listings of the same tree -/

namespace Relisted

variable {node other : FileNode}

theorem symm (h : Relisted node other) : Relisted other node := by
  induction h with
  | refl node => exact .refl node
  | reorder h => exact .reorder h.symm
  | inside before after name h ih => exact .inside before after name ih
  | trans h h' ih ih' => exact .trans ih' ih

theorem isTree (h : Relisted node other) (htree : node.IsTree) : other.IsTree := by
  induction h with
  | refl => exact htree
  | reorder h =>
      cases htree with
      | directory hdistinct hnames hnodes =>
          exact .directory ((h.map Prod.fst).nodup_iff.mp hdistinct)
            (fun entry hentry => hnames entry (h.mem_iff.mpr hentry))
            fun entry hentry => hnodes entry (h.mem_iff.mpr hentry)
  | inside before after name h ih =>
      cases htree with
      | directory hdistinct hnames hnodes =>
          simp only [List.forall_mem_append, List.forall_mem_cons] at hnames hnodes
          refine .directory (by simpa using hdistinct) ?_ ?_
          · simpa only [List.forall_mem_append, List.forall_mem_cons] using hnames
          · simp only [List.forall_mem_append, List.forall_mem_cons]
            exact ⟨hnodes.1, ih hnodes.2.1, hnodes.2.2⟩
  | trans h h' ih ih' => exact ih' (ih htree)

theorem reaches_file {trail : List String} {text : Option String} (h : Relisted node other)
    (hfile : node.Reaches trail (.file text)) : other.Reaches trail (.file text) := by
  induction h generalizing trail with
  | refl => exact hfile
  | reorder h =>
      cases hfile with
      | within hentry hfound => exact .within (h.mem_iff.mp hentry) hfound
  | inside before after name h ih =>
      cases hfile with
      | within hentry hfound =>
          rcases List.mem_append.mp hentry with hbefore | hrest
          · exact .within (List.mem_append_left _ hbefore) hfound
          · rcases List.mem_cons.mp hrest with heq | hafter
            · obtain ⟨rfl, rfl⟩ := Prod.mk.inj heq
              exact .within (by simp) (ih hfound)
            · exact .within (by simp [hafter]) hfound
  | trans h h' ih ih' => exact ih' (ih hfile)

theorem exists_directory {entries : List (String × FileNode)}
    (h : Relisted (.directory entries) other) : ∃ others, other = .directory others := by
  generalize hnode : directory entries = node at h
  induction h generalizing entries with
  | refl => exact ⟨entries, hnode.symm⟩
  | reorder | inside => exact ⟨_, rfl⟩
  | trans h h' ih ih' =>
      obtain ⟨others, hothers⟩ := ih hnode
      exact ih' hothers.symm

theorem scripts_eq {entries : List (String × FileNode)} (h : Relisted (.directory entries) other)
    (htree : (directory entries).IsTree) (path : String) :
    other.scripts path = (directory entries).scripts path := by
  obtain ⟨others, rfl⟩ := h.exists_directory
  refine eq_of_pairwise_of_mem_iff ((h.isTree htree).pairwise_scripts path)
    (htree.pairwise_scripts path) fun script => ?_
  rw [mem_scripts_iff_reaches, mem_scripts_iff_reaches]
  refine exists_congr fun trail => exists_congr fun name => and_congr_left fun _ => ?_
  exact ⟨h.symm.reaches_file, h.reaches_file⟩

end Relisted

/-! ### The whole walk -/

/-- The walk through a directory finds the files with the extension `npc` at any depth and nothing
else, whatever the directories above them are called. The paths that it finds rise, so none is
found twice, and none of them is that of a directory. In which order the directories list their
entries makes no difference. -/
theorem scripts_directory_exact {entries : List (String × FileNode)}
    (htree : (directory entries).IsTree) (path : String) :
    let found := (directory entries).scripts path
    (∀ script, script ∈ found ↔
      ∃ trail name, (directory entries).Reaches (trail ++ [name]) (.file script.text) ∧
        HasExtension name "npc" ∧ script.path = (trail ++ [name]).foldl join path) ∧
    (found.Pairwise fun first second => PathBefore first.path second.path) ∧
    (found.map ScriptFile.path).Nodup ∧
    (∀ trail inner, (directory entries).Reaches trail (.directory inner) →
      trail.foldl join path ∉ found.map ScriptFile.path) ∧
    ∀ other, Relisted (.directory entries) other → other.scripts path = found := by
  intro found
  have hrising : found.Pairwise fun first second => PathBefore first.path second.path :=
    htree.pairwise_scripts path
  refine ⟨fun script => mem_scripts_iff_reaches, hrising, ?_, ?_,
    fun other h => h.scripts_eq htree path⟩
  · refine List.pairwise_map.mpr (hrising.imp fun hbefore hpath => ?_)
    rw [hpath] at hbefore
    exact PathBefore.irrefl _ hbefore
  · intro trail inner hreaches hmem
    obtain ⟨script, hscript, hpath⟩ := List.mem_map.mp hmem
    obtain ⟨others, name, hfile, -, hothers⟩ := mem_scripts_iff_reaches.mp hscript
    obtain rfl := htree.trail_inj hreaches hfile (hpath.symm.trans hothers)
    cases htree.reaches_unique hreaches hfile

/-- A directory has the name of a script, and the entries are listed out of order. -/
theorem scripts_directory_exact_npcs :
    let inner : List (String × FileNode) := [("z.npc", .file none), ("b.npc", .file (some ""))]
    let entries : List (String × FileNode) :=
      [("x.npc", .directory inner), ("x", .directory []), (".npc", .file none)]
    let found := (directory entries).scripts "npcs/"
    (directory entries).IsTree ∧ ⟨"npcs/x.npc/b.npc", some ""⟩ ∈ found ∧
      "npcs/x.npc" ∉ found.map ScriptFile.path ∧
      (directory entries.reverse).scripts "npcs/" = found := by
  intro inner entries found
  have hinner : (directory inner).IsTree := by
    refine .directory (by decide) ?_ ?_
    · simp only [inner, List.forall_mem_cons]
      exact ⟨⟨by decide, by decide, by decide⟩, ⟨by decide, by decide, by decide⟩, by simp⟩
    · simp only [inner, List.forall_mem_cons]
      exact ⟨.file _, .file _, by simp⟩
  have htree : (directory entries).IsTree := by
    refine .directory (by decide) ?_ ?_
    · simp only [entries, List.forall_mem_cons]
      exact ⟨⟨by decide, by decide, by decide⟩, ⟨by decide, by decide, by decide⟩,
        ⟨by decide, by decide, by decide⟩, by simp⟩
    · simp only [entries, List.forall_mem_cons]
      exact ⟨hinner, .directory (by simp) (by simp) (by simp), .file _, by simp⟩
  have hentry : ("x.npc", directory inner) ∈ entries := by simp [entries]
  have hbelow : (directory inner).Reaches ["b.npc"] (.file (some "")) :=
    .within (by simp [inner]) (.here _)
  obtain ⟨hmem, -, -, hdirectory, hrelisted⟩ := scripts_directory_exact htree "npcs/"
  refine ⟨htree,
    (hmem _).mpr ⟨["x.npc"], "b.npc", .within hentry hbelow, ?_, by decide +kernel⟩, ?_,
    hrelisted _ (.reorder (List.reverse_perm entries).symm)⟩
  · exact ⟨by decide, by decide, "b", by decide, by decide⟩
  · have hpath : ["x.npc"].foldl join "npcs/" = "npcs/x.npc" := by decide +kernel
    exact hpath ▸ hdirectory ["x.npc"] inner (.within hentry (.here _))

end NpcScript.FileNode
