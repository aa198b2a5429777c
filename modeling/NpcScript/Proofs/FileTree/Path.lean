import Mathlib.Data.String.Basic
import NpcScript.Proofs.FileTree
import NpcScript.Proofs.Text.ByteOrder

/-!
Paths and the names they are made of. Joining a name to a path adds one name at its end, whether or
not the path ends in a slash, so the names of a joined path say by which way it was found. Paths are
ordered name by name, and the names by their bytes. This is not the order of the paths as texts:
`a-b` comes before `a/b` as a text, since `-` comes before the slash, but behind it as a path.
-/

namespace NpcScript.FileNode

theorem endsWith_iff {s t : String} : s.endsWith t = true ↔ ∃ front, s = front ++ t := by
  rw [String.endsWith_eq_endsWith_toSlice, String.Slice.endsWith_string_iff, String.copy_toSlice]
  constructor
  · rintro ⟨front, hfront⟩
    exact ⟨String.ofList front, String.toList_inj.mp (by simp [hfront])⟩
  · rintro ⟨front, rfl⟩
    exact ⟨front.toList, by simp⟩

/-- The names of a path, the outermost first: the parts between its slashes. An empty part and a
single dot name nothing. -/
def pathNames (path : String) : List String :=
  ((path.toList.splitOn '/').map String.ofList).filter fun part => part ≠ "" ∧ part ≠ "."

/-- The path comes before the other one: at the first name in which they differ its name has the
smaller bytes, or it ends there. -/
def PathBefore (path other : String) : Prop :=
  (pathNames path).map Text.bytes < (pathNames other).map Text.bytes

structure IsFileName (name : String) : Prop where
  ne_empty : name ≠ ""
  ne_dot : name ≠ "."
  not_mem : '/' ∉ name.toList

/-! ### Joining -/

theorem pathNames_append_slash (path other : String) :
    pathNames (path ++ "/" ++ other) = pathNames path ++ pathNames other := by
  have hslash : (path ++ "/" ++ other).toList = path.toList ++ '/' :: other.toList := by simp
  simp only [pathNames]
  rw [hslash, List.splitOn_append_cons_self, List.map_append, List.filter_append]

theorem IsFileName.pathNames_eq {name : String} (h : IsFileName name) :
    pathNames name = [name] := by
  rw [pathNames, List.splitOn_eq_singleton h.not_mem]
  simp [h.ne_empty, h.ne_dot]

theorem pathNames_empty : pathNames "" = [] := by
  simp [pathNames]

theorem pathNames_join (path : String) {name : String} (h : IsFileName name) :
    pathNames (join path name) = pathNames path ++ [name] := by
  unfold join
  split
  · rename_i hpath
    rcases hpath with rfl | hends
    · rw [String.empty_append, h.pathNames_eq, pathNames_empty, List.nil_append]
    · obtain ⟨front, rfl⟩ := endsWith_iff.mp hends
      have hfront : pathNames (front ++ "/") = pathNames front := by
        rw [← String.append_empty (s := front ++ "/"), pathNames_append_slash, pathNames_empty,
          List.append_nil]
      rw [pathNames_append_slash, h.pathNames_eq, hfront]
  · rw [pathNames_append_slash, h.pathNames_eq]

theorem pathNames_foldl_join {trail : List String} (h : ∀ name ∈ trail, IsFileName name)
    (path : String) : pathNames (trail.foldl join path) = pathNames path ++ trail := by
  induction trail generalizing path with
  | nil => rw [List.foldl_nil, List.append_nil]
  | cons name trail ih =>
      obtain ⟨hname, htrail⟩ := List.forall_mem_cons.mp h
      rw [List.foldl_cons, ih htrail, pathNames_join path hname, List.append_assoc,
        List.singleton_append]

/-! ### The order of paths -/

theorem PathBefore.irrefl (path : String) : ¬ PathBefore path path :=
  List.lt_irrefl _

theorem PathBefore.asymm {path other : String} (h : PathBefore path other) :
    ¬ PathBefore other path :=
  List.lt_asymm h

/-- Paths with the same beginning are told apart by the first name behind it. -/
theorem pathBefore_of_lt {path other name second : String} {before rest others : List String}
    (hpath : pathNames path = before ++ name :: rest)
    (hother : pathNames other = before ++ second :: others) (h : name < second) :
    PathBefore path other := by
  rw [PathBefore, hpath, hother, List.map_append, List.map_append, List.map_cons, List.map_cons]
  exact List.append_left_lt (List.cons_lt_cons_iff.mpr (.inl (Text.bytes_lt_iff.mpr h)))

/-! ### Extensions -/

/-- The name has this extension: it stands behind the last dot of the name, and something stands in
front of that dot. Two dots are the name of the directory above and have no extension. -/
def HasExtension (name extension : String) : Prop :=
  name ≠ ".." ∧ '.' ∉ extension.toList ∧ ∃ stem, stem ≠ "" ∧ name = stem ++ "." ++ extension

theorem isScriptName_iff {name : String} :
    isScriptName name = true ↔ HasExtension name "npc" := by
  have hnpc (stem : String) : stem ++ "." ++ "npc" = stem ++ ".npc" := by
    rw [String.append_assoc]
    rfl
  simp only [isScriptName, Bool.and_eq_true, bne_iff_ne, endsWith_iff, HasExtension, hnpc]
  constructor
  · rintro ⟨⟨stem, rfl⟩, hstem⟩
    refine ⟨fun hdots => ?_, by decide, stem, ?_, rfl⟩
    · have hlast := congrArg (·.toList.getLast?) hdots
      simp at hlast
    · rintro rfl
      exact hstem rfl
  · rintro ⟨-, -, stem, hstem, rfl⟩
    refine ⟨⟨stem, rfl⟩, fun hname => hstem ?_⟩
    simpa using hname

end NpcScript.FileNode
