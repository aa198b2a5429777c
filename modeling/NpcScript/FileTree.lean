/-!
# File trees

What the command line sees of a disk: files with their texts and directories with named entries. A
path is looked up from a working directory, and the scripts below a directory are listed by rising
names, directories in their place among the files.
-/

namespace NpcScript

/-- A file or a directory. A file whose bytes are no UTF-8 has no text, and an entry whose name is
no UTF-8 is left out. -/
inductive FileNode where
  | file (text : Option String)
  | directory (entries : List (String × FileNode))

structure ScriptFile where
  path : String
  text : Option String
  deriving DecidableEq

namespace FileNode

def ofBytes (bytes : ByteArray) : FileNode :=
  .file (String.fromUTF8? bytes)

/-- The node reached from a directory by the parts of a path; `above` holds the directories it lies
in, the nearest first. Every part that has another behind it has to be a directory, and so has a
part that is followed by a slash. -/
def follow (above : List FileNode) : FileNode → List String → Option FileNode
  | node, [] => some node
  | file _, _ :: _ => none
  | directory entries, part :: parts =>
    if part = "" ∨ part = "." then follow above (directory entries) parts
    else if part = ".." then
      match above with
      | [] => none
      | parent :: others => follow others parent parts
    else
      match entries.lookup part with
      | none => none
      | some node => follow (directory entries :: above) node parts

/-- The node that a path names, seen from a directory. Nothing above that directory is seen. -/
def find? (workingDirectory : FileNode) (path : String) : Option FileNode :=
  if path = "" ∨ path.startsWith "/" then none
  else follow [] workingDirectory (path.splitOn "/")

def join (path name : String) : String :=
  if path = "" ∨ path.endsWith "/" then path ++ name else path ++ "/" ++ name

/-- Whether a name ends in `.npc` with something in front of it. -/
def isScriptName (name : String) : Bool :=
  name.endsWith ".npc" && name != ".npc"

/-- Pairs of names and what belongs to them, by rising names. Names are ordered by code points,
which is also the order of their bytes. -/
def sortByName {α : Type} (pairs : List (String × α)) : List (String × α) :=
  pairs.mergeSort fun first second => first.1 ≤ second.1

mutual

/-- The scripts that an entry of a directory stands for: itself if it is a file with the name of a
script, or all those below it. -/
def entryScripts (path name : String) : FileNode → List ScriptFile
  | file text => if isScriptName name then [⟨join path name, text⟩] else []
  | directory entries =>
    (sortByName (scriptsByEntry (join path name) entries)).flatMap Prod.snd

def scriptsByEntry (path : String) :
    List (String × FileNode) → List (String × List ScriptFile)
  | [] => []
  | (name, node) :: others => (name, node.entryScripts path name) :: scriptsByEntry path others

end

/-- The scripts that an operand of the command line stands for. A file is a script whatever its
name. -/
def scripts (path : String) : FileNode → List ScriptFile
  | file text => [⟨path, text⟩]
  | directory entries => (sortByName (scriptsByEntry path entries)).flatMap Prod.snd

end FileNode

end NpcScript
