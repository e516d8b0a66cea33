import ModelClient.Cli.Program

/-!
# The command line program

Reads the arguments, the files and the environment, runs the command and prints what it says. The
program has no connection to a network, so every request fails as if the service could not be
reached.
-/

namespace ModelClient.Cli

/-- The content of a file; a file that is not there or is no text has none. -/
def readText? (path : String) : IO (Option String) := do
  try return some (← IO.FS.readFile path) catch _ => return none

/-- The values of some variables of the environment. -/
def readVariables (names : List String) : IO (List (String × String)) := do
  let values ← names.mapM fun name => do return (name, ← IO.getEnv name)
  return values.filterMap fun (name, value) => value.map (name, ·)

/-- A directory and the ones it lies in, innermost first. -/
def enclosing (directory : String) : List String :=
  let parts := directory.splitOn "/"
  (List.range parts.length).map fun n => String.intercalate "/" (parts.take (parts.length - n))

/-- The content of the nearest environment file, looked for from the working directory outwards. -/
def readEnvironmentFile? : IO (Option String) := do
  for directory in enclosing (← IO.currentDir).toString do
    if let some text ← readText? (directory ++ "/.env") then return some text
  return none

/-- Runs an invocation in the surroundings that it finds. -/
def runHere (i : Invocation) : IO Output := do
  let home := (← IO.getEnv "HOME").getD "."
  let homePath := home ++ "/.ytoai/config.toml"
  let environmentFile ← readEnvironmentFile?
  let text ← readText? (i.config.getD homePath)
  let values ← readVariables (Config.overlaid.map (·.name) ++
    (environmentFile.map EnvironmentFile.mentioned).getD [])
  let surroundings : Surroundings :=
    { file := fun _ => text
      homeConfig := text.map fun _ => homePath
      environmentFile
      lookup := fun name => values.lookup name }
  return (i.run surroundings .unreachable).1

end ModelClient.Cli

open ModelClient.Cli in
/-- Runs the program. -/
def main (arguments : List String) : IO UInt32 := do
  let output ← match Invocation.read arguments with
    | .ok invocation => runHere invocation
    | .error e => pure e.output
  (← IO.getStdout).putStr output.out
  (← IO.getStderr).putStr output.err
  return output.code.toUInt32
