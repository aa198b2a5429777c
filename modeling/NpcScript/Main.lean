import NpcScript.CommandLine.Run

/-!
# The command line program

Looks at the paths that the arguments and the catalogs need, runs the command on what is there, and
prints.
-/

namespace NpcScript.CommandLine

/-- What a path names on the disk, with all that lies below it. -/
partial def look (path : String) : IO (Option FileNode) := do
  let location := System.mkFilePath [path]
  match ← location.metadata.toBaseIO with
  | .error _ => return none
  | .ok metadata =>
    if metadata.type matches .dir then
      let names ←
        match ← location.readDir.toBaseIO with
        | .ok found => pure (found.toList.map (·.fileName))
        | .error _ => pure []
      let entries ← names.filterMapM fun name => do
        return (← look (FileNode.join path name)).map (name, ·)
      return some (.directory entries)
    else
      match ← (IO.FS.readBinFile location).toBaseIO with
      | .ok bytes => return some (.ofBytes bytes)
      | .error _ => return some (.file none)

def Command.paths (dataDirectory : Option String) (command : Command) : List String :=
  let (operands, catalogs) :=
    match command with
    | .check paths _ catalogs => (paths, catalogs)
    | .dump path catalogs => ([path], catalogs)
  let places := dataDirectory.toList ++ ["data"]
  operands ++ catalogs.items.toList ++ catalogs.skills.toList ++
    places.map (FileNode.join · "items.toml") ++ places.map (FileNode.join · "skills.toml")

end NpcScript.CommandLine

open NpcScript.CommandLine in
def main (arguments : List String) : IO UInt32 := do
  let dataDirectory ← IO.getEnv "EASYNPC_DATA_DIR"
  let paths := (Command.ofArguments arguments).elim [] (Command.paths dataDirectory)
  let found ← paths.mapM fun path => return (path, ← look path)
  let output := run (fun path => (found.lookup path).join) dataDirectory arguments
  IO.print output.standardOutput
  output.errorLines.forM IO.eprintln
  if output.status = 2 then
    IO.eprintln "usage: check PATH... [--deny-warnings] [--items PATH] [--skills PATH]"
    IO.eprintln "       dump PATH [--items PATH] [--skills PATH]"
  return output.status.toUInt32
