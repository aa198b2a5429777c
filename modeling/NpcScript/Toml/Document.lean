import NpcScript.Toml.Value

/-!
# TOML files

A file is a row of entries `key = value` and headers. `[a.b]` opens the table `b` of the table `a`
for the entries that follow it; `[[a.b]]` opens a new table at the end of an array of tables. A key
with dots names an entry of a table inside the open one.

No table is opened twice, and a table made by dotted keys is not opened by a header; nor can dotted
keys reach into a table that has been opened. Tables that a header only passes through may be opened
later.
-/

namespace NpcScript.Toml

inductive Origin where
  /-- A header opened it. -/
  | header
  /-- A header passed through it. -/
  | passed
  /-- A dotted key passed through it. -/
  | dotted
  deriving DecidableEq

inductive Node where
  | value (value : Value)
  | table (origin : Origin) (entries : List (String × Node))
  /-- An array of tables, the last of them first. -/
  | tables (last : List (String × Node)) (others : List (List (String × Node)))

abbrev Entries := List (String × Node)

def Entries.put (entries : Entries) (key : String) (node : Node) : Entries :=
  match entries with
  | [] => [(key, node)]
  | (other, old) :: rest =>
    if other == key then (key, node) :: rest else (other, old) :: Entries.put rest key node

/-- Changes the table that a path leads to, seen from a table. Tables that are missing on the way
are made; `origin` is what they are made of, and `change` is told how the table at the end came
about. -/
def changeAt (origin : Origin) (change : Origin → Entries → Option Entries) (here : Origin)
    (entries : Entries) : List String → Option Entries
  | [] => change here entries
  | key :: path =>
    match entries.lookup key with
    | none => do
      let inner ← changeAt origin change origin [] path
      return entries.put key (.table origin inner)
    | some (.value _) => none
    | some (.table found inner) =>
      if origin = .dotted ∧ found = .header then none
      else do
        let inner ← changeAt origin change found inner path
        return entries.put key (.table found inner)
    | some (.tables last others) => do
      let last ← changeAt origin change .header last path
      return entries.put key (.tables last others)

def addEntry (path : List String) (key : String) (value : Value) (entries : Entries) :
    Option Entries :=
  let add (found : Origin) (entries : Entries) : Option Entries :=
    if decide (found = .dotted) = path.isEmpty then none
    else if (entries.lookup key).isSome then none
    else some (entries ++ [(key, .value value)])
  changeAt .dotted add .header entries path

def openTable (key : String) (_ : Origin) (entries : Entries) : Option Entries :=
  match entries.lookup key with
  | none => some (entries ++ [(key, .table .header [])])
  | some (.table .passed inner) => some (entries.put key (.table .header inner))
  | some _ => none

def openNextTable (key : String) (_ : Origin) (entries : Entries) : Option Entries :=
  match entries.lookup key with
  | none => some (entries ++ [(key, .tables [] [])])
  | some (.tables last others) => some (entries.put key (.tables [] (last :: others)))
  | some _ => none

mutual

def Node.toValue : Node → Value
  | .value value => value
  | .table _ entries => .table (entryValues entries)
  | .tables last others =>
    .array (tableValues others [.table (entryValues last)])

def entryValues : List (String × Node) → List (String × Value)
  | [] => []
  | (key, node) :: others => (key, node.toValue) :: entryValues others

/-- The values of tables given from the last to the first, in front of those that follow them. -/
def tableValues : List (List (String × Node)) → List Value → List Value
  | [], following => following
  | entries :: others, following =>
    tableValues others (.table (entryValues entries) :: following)

end

/-! ### Values -/

def splitKey (parts : List String) : List String × String :=
  (parts.dropLast, parts.getLastD "")

def entry (value : Reader Value) : Reader (List String × Value) := do
  let key ← key
  char '='
  blanks
  let value ← value
  blanks
  return (key, value)

def tableOf? (entries : List (List String × Value)) : Option Value := do
  let table ← entries.foldlM (fun table (parts, value) =>
    let (path, key) := splitKey parts
    addEntry path key value table) []
  return .table (entryValues table)

/-- Reads an array. Its elements may stand on lines of their own, and a comma may end it. -/
def array (value : Reader Value) : Reader Value := do
  char '['
  let elements ← separated ',' do
    gaps
    let element ← value
    gaps
    return element
  if !elements.isEmpty then
    let _ ← maybe (char ',')
  gaps
  char ']'
  return .array elements

def inlineTable (value : Reader Value) : Reader Value := do
  char '\x7b'
  let entries ← separated ',' (entry value)
  blanks
  char '\x7d'
  match tableOf? entries with
  | some table => return table
  | none => failure

/-- Reads a value with at most `depth` arrays and tables around one another. -/
def valueWithin : Nat → Reader Value
  | 0 => scalar
  | depth + 1 => array (valueWithin depth) <|> inlineTable (valueWithin depth) <|> scalar

/-! ### Files -/

inductive Line where
  | nothing
  | entry (key : List String) (value : Value)
  | header (key : List String)
  | arrayHeader (key : List String)

def line : Reader Line := do
  blanks
  (do newline; return .nothing) <|>
  (do comment; newline <|> atEnd; return .nothing) <|>
  (do
    exactly "[["
    let key ← key
    exactly "]]"
    lineRest
    return .arrayHeader key) <|>
  (do
    char '['
    let key ← key
    char ']'
    lineRest
    return .header key) <|>
  (do
    let (key, value) ← entry (valueWithin depthLimit)
    lineRest
    return .entry key value)

structure Progress where
  root : Entries
  opened : List String

def Progress.addLine (progress : Progress) : Line → Option Progress
  | .nothing => some progress
  | .entry parts value => do
    let (path, key) := splitKey parts
    let change (_ : Origin) (entries : Entries) : Option Entries := addEntry path key value entries
    return { progress with root := ← changeAt .passed change .header progress.root progress.opened }
  | .header parts => do
    let (path, key) := splitKey parts
    return ⟨← changeAt .passed (openTable key) .header progress.root path, parts⟩
  | .arrayHeader parts => do
    let (path, key) := splitKey parts
    return ⟨← changeAt .passed (openNextTable key) .header progress.root path, parts⟩

/-- The entries of a file, or nothing if it is not well-formed. A byte order mark in front is
skipped. -/
def parse (text : String) : Option (List (String × Value)) := do
  let text := if text.toList.head? = some '\ufeff' then text.toList.drop 1 else text.toList
  let (lines, rest) ← many line text
  let _ ← (do blanks; atEnd : Reader Unit) rest
  let progress ← lines.foldlM Progress.addLine ⟨[], []⟩
  return entryValues progress.root

end NpcScript.Toml
