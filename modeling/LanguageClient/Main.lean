import LanguageClient.Startup

/-!
The command: it takes its arguments, its environment and its settings file, and prints the launches
that they call for.
-/

namespace LanguageClient.Startup

def environment : IO Config.Environment :=
  Config.variableNames.filterMapM fun name => do
    return (← IO.getEnv name).map fun value => (name, value)

/-- The settings file, if one is named and can be read. -/
def filesFor (argv : List String) : IO Files := do
  match CommandLine.read argv with
  | .run a => match a.settings with
    | some path => match ← (IO.FS.readFile path).toBaseIO with
      | .ok text => return [(path, text)]
      | .error _ => return []
    | none => return []
  | _ => return []

def printLaunch (root : Option Root) (w : Workspace) : IO Unit :=
  let key := Session.keyOf root
  match command root w with
  | .ok words => IO.println (key ++ ": " ++ String.intercalate " " words)
  | .error f => IO.eprintln (key ++ ": " ++ f.message)

def printOutcome : Outcome → IO Unit
  | .help => IO.print CommandLine.help
  | .misuse m => IO.eprint (CommandLine.usage ++ "rbxlsp: error: " ++ m.message ++ "\n")
  | .badSettings path f => IO.eprintln ("Cannot load settings " ++ path ++ ": " ++ f.message)
  | .failed f => IO.eprintln f.message
  | .serve s => (firstRoots s.workspace).forM fun root => printLaunch root s.workspace

end LanguageClient.Startup

open LanguageClient in
def main (argv : List String) : IO UInt32 := do
  let outcome := Startup.run argv (← Startup.environment) (← Startup.filesFor argv) []
  Startup.printOutcome outcome
  return outcome.exitCode.toUInt32
