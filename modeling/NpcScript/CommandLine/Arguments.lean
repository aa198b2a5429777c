/-!
# Command line arguments

`check path… [--deny-warnings]` and `dump path`, both with `--items path` and `--skills path`.
Options may stand anywhere behind the command and may be given once; `--` ends them. What does not
fit is a usage error.
-/

namespace NpcScript.CommandLine

structure CatalogPaths where
  items : Option String := none
  skills : Option String := none
  deriving DecidableEq

inductive Command where
  | check (paths : List String) (denyWarnings : Bool) (catalogs : CatalogPaths)
  | dump (path : String) (catalogs : CatalogPaths)
  deriving DecidableEq

structure Options where
  operands : List String := []
  denyWarnings : Bool := false
  catalogs : CatalogPaths := {}

namespace Options

/-- The options with one more operand. An operand is not empty. -/
def addOperand (options : Options) (operand : String) : Option Options :=
  if operand.isEmpty then none
  else some { options with operands := options.operands ++ [operand] }

/-- The options with the path of a catalog, which is not empty and has not been given before. -/
def setCatalog (options : Options) (name path : String) : Option Options :=
  let catalogs := options.catalogs
  if path.isEmpty then none
  else if name = "--items" ∧ catalogs.items.isNone then
    some { options with catalogs := { catalogs with items := some path } }
  else if name = "--skills" ∧ catalogs.skills.isNone then
    some { options with catalogs := { catalogs with skills := some path } }
  else none

/-- Whether an argument is taken for an option. A minus sign by itself is a path. -/
def isOption (argument : String) : Bool :=
  argument.startsWith "-" && argument != "-"

/-- Splits `--name=value` at the equals sign. -/
def attached? (argument : String) : Option (String × String) :=
  let characters := argument.toList
  match characters.dropWhile (· ≠ '=') with
  | '=' :: value => some (String.ofList (characters.takeWhile (· ≠ '=')), String.ofList value)
  | _ => none

def read (options : Options) : List String → Option Options
  | [] => some options
  | "--" :: operands => operands.foldlM addOperand options
  | "--deny-warnings" :: others =>
    if options.denyWarnings then none else ({ options with denyWarnings := true }).read others
  | argument :: others =>
    if isOption argument then
      match attached? argument with
      | some (name, path) => do (← options.setCatalog name path).read others
      | none =>
        match others with
        | path :: others =>
          if isOption path then none else do (← options.setCatalog argument path).read others
        | [] => none
    else do (← options.addOperand argument).read others

end Options

def Command.ofArguments : List String → Option Command
  | "check" :: arguments => do
    let options ← Options.read {} arguments
    if options.operands.isEmpty then none
    else some (.check options.operands options.denyWarnings options.catalogs)
  | "dump" :: arguments => do
    let options ← Options.read {} arguments
    match options.operands, options.denyWarnings with
    | [path], false => some (.dump path options.catalogs)
    | _, _ => none
  | _ => none

end NpcScript.CommandLine
