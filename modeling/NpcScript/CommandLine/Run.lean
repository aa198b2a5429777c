import NpcScript.Catalog.File
import NpcScript.CommandLine.Arguments
import NpcScript.Dump.Document
import NpcScript.FileTree
import NpcScript.Script

/-!
# Running a command

What a command prints and how it ends, given what the disk holds. Catalogs are loaded before
anything else. A check makes sure that all its operands exist before it reads the first script; it
then reports script by script and ends with a summary. What cannot be read ends a command at once,
and of what is then printed the first line is told here.
-/

namespace NpcScript.CommandLine

structure Output where
  status : Nat
  standardOutput : String := ""
  /-- What is reported, each with a newline behind it. What quotes a text with a newline, as a fault
  of `race = "hu\nman"` does, goes over more than one line. -/
  errorLines : List String := []
  deriving DecidableEq

abbrev Disk :=
  String → Option FileNode

def Disk.text? (disk : Disk) (path : String) : Option String :=
  match disk path with
  | some (.file text) => text
  | _ => none

def Disk.isFile (disk : Disk) (path : String) : Bool :=
  match disk path with
  | some (.file _) => true
  | _ => false

/-- The end of a command that could not go on, behind the lines it has printed. The causes that the
system gives for it are printed below and left out here. -/
def fatal (printed : List String) (activity path : String) : Output :=
  { status := 1, errorLines := printed ++ [s!"Error: {activity} '{path}'"] }

/-- The path of a catalog: the one that was given, or else the first of two places that has the
file. -/
def catalogPath? (disk : Disk) (dataDirectory : Option String) (given : Option String)
    (name : String) : Option String :=
  let places := (dataDirectory.toList ++ ["data"]).map (FileNode.join · name)
  given.or (places.find? disk.isFile)

/-- Loads a catalog; where there is none, it is empty. The error is the path. -/
def loadCatalog {α : Type} (disk : Disk) (parse : String → Except CatalogError α) (empty : α) :
    Option String → Except String α
  | none => .ok empty
  | some path =>
    match (disk.text? path).map parse with
    | some (.ok catalog) => .ok catalog
    | _ => .error path

/-- Loads both catalogs, the items first. The error says which one could not be loaded. -/
def loadContext (disk : Disk) (dataDirectory : Option String) (paths : CatalogPaths) :
    Except Output Context := do
  let items ← (loadCatalog disk ItemCatalog.parse {}
    (catalogPath? disk dataDirectory paths.items "items.toml")).mapError
      (fatal [] "loading item catalog")
  let skills ← (loadCatalog disk SkillCatalog.parse {}
    (catalogPath? disk dataDirectory paths.skills "skills.toml")).mapError
      (fatal [] "loading skill catalog")
  return { items, skills }

/-! ### Checking -/

/-- The scripts that the operands stand for, in order. The error is the first operand that names
nothing. -/
def selectScripts (disk : Disk) : List String → Except String (List ScriptFile)
  | [] => .ok []
  | path :: others =>
    match disk path with
    | none => .error path
    | some node => (selectScripts disk others).map (node.scripts path ++ ·)

structure Findings where
  lines : List String := []
  errors : Nat := 0
  warnings : Nat := 0
  deriving DecidableEq

/-- A diagnostic of a script as a check reports it: not a line by itself where the message quotes a
newline. -/
def reportLine (path : String) (diagnostic : Diagnostic) : String :=
  path ++ ":" ++ diagnostic.render ++ if diagnostic.isWarning then " (warning)" else ""

def Findings.addScript (findings : Findings) (path : String) (diagnostics : List Diagnostic) :
    Findings :=
  { lines := findings.lines ++ diagnostics.map (reportLine path)
    errors := findings.errors + diagnostics.countP (!·.isWarning)
    warnings := findings.warnings + diagnostics.countP (·.isWarning) }

/-- Checks scripts one after another. A script that cannot be read ends the check. -/
def checkScripts (context : Context) : Findings → List ScriptFile → Except Output Findings
  | findings, [] => .ok findings
  | findings, script :: others =>
    match script.text with
    | none => .error (fatal findings.lines "reading" script.path)
    | some text =>
      let document := Document.ofScript context text
      checkScripts context (findings.addScript script.path document.diagnostics.toList) others

def checkOutput (denyWarnings : Bool) (count : Nat) (findings : Findings) : Output :=
  let summary :=
    s!"check: {count} file(s), {findings.errors} error(s), {findings.warnings} warning(s)"
  { status := if 0 < findings.errors ∨ denyWarnings ∧ 0 < findings.warnings then 1 else 0
    errorLines := findings.lines ++ [summary] }

def runCheck (disk : Disk) (context : Context) (paths : List String) (denyWarnings : Bool) :
    Output :=
  match selectScripts disk paths with
  | .error path => fatal [] "stat" path
  | .ok scripts =>
    match checkScripts context {} scripts with
    | .error output => output
    | .ok findings => checkOutput denyWarnings scripts.length findings

/-! ### Dumping -/

def runDump (disk : Disk) (context : Context) (path : String) : Output :=
  match disk.text? path with
  | none => fatal [] "reading" path
  | some text =>
    let document := Document.ofScript context text
    { status := if document.hasErrors then 1 else 0
      standardOutput := document.dump ++ "\n" }

/-! ### Commands -/

def Command.run (disk : Disk) (dataDirectory : Option String) (command : Command) : Output :=
  let catalogs :=
    match command with
    | .check _ _ catalogs | .dump _ catalogs => catalogs
  match loadContext disk dataDirectory catalogs with
  | .error output => output
  | .ok context =>
    match command with
    | .check paths denyWarnings _ => runCheck disk context paths denyWarnings
    | .dump path _ => runDump disk context path

/-- Runs the command that the arguments ask for. Status 2 tells of a usage error; what is printed of
it is left out. -/
def run (disk : Disk) (dataDirectory : Option String) (arguments : List String) : Output :=
  match Command.ofArguments arguments with
  | none => { status := 2 }
  | some command => command.run disk dataDirectory

end NpcScript.CommandLine
