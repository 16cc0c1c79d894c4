import LanguageClient.Settings.Basic
import LanguageClient.Text.Words

/-!
The command line of a backend: its executable for the platform, its main script, and the settings of
the root.
-/

namespace LanguageClient.Launch

/-- Platforms by how their names start, with the folder and the name of the executable. -/
def platforms : List (String × String × String) := [
  ("win32", "Windows", "lua-language-server.exe"),
  ("linux", "Linux", "lua-language-server"),
  ("darwin", "macOS", "lua-language-server")]

def startsWith (start s : String) : Bool := start.toList.isPrefixOf s.toList

/-- The platform the client itself runs on, meant wherever none is named. -/
def hostPlatform : String := "linux"

def platformOf (named : String) : String := if named.isEmpty then hostPlatform else named

def executable (serverDir : FilePath) (platform : String) : Except Failure FilePath :=
  match platforms.find? fun p => startsWith p.1 (platformOf platform) with
  | some (_, folder, name) => .ok (((serverDir.child "bin").child folder).child name)
  | none =>
    .error (.launch serverDir.text ("unsupported platform " ++ Text.quoted (platformOf platform)))

/-- A regular file and its permission bits, or a directory. -/
inductive Node where
  | file (mode : Nat)
  | directory
deriving DecidableEq, Repr

/-- What is on disk, by path text. -/
abbrev Disk := List (String × Node)

namespace Disk

def node? (path : String) (disk : Disk) : Option Node :=
  (List.find? (fun e => e.1 = path) disk).map (·.2)

def setMode (path : String) (mode : Nat) (disk : Disk) : Disk :=
  disk.map fun e => if e.1 = path then (e.1, .file mode) else e

end Disk

/-- The bits that let everyone run a file. -/
def runBits : Nat := 0o111

/-- Refuses what is no file; makes a file runnable, except where files always are. -/
def prepare (path : FilePath) (platform : String) (disk : Disk) : Except Failure Disk :=
  match disk.node? path.text with
  | some (.file mode) =>
    if startsWith "win32" (platformOf platform) then .ok disk
    else .ok (disk.setMode path.text (mode ||| runBits))
  | _ => .error (.launch path.text "backend executable not found")

def flag (v : Value) : String := if v.truthy then "true" else "false"

/-- Parameters are words after the settings; blanks alone are none. -/
def parameterWords (v : Value) : Except Failure (List String) :=
  match v with
  | .text s => if (Text.trim s).isEmpty then .ok [] else Text.words s
  | v => .error (.noMember v.kind "strip")

def command (executable entry : FilePath) (settings : RootSettings) :
    Except Failure (List String) := do
  let port ← settings.debuggerPort.toInt
  let words ← parameterWords settings.parameters
  return [executable.text, "-E", entry.text, "--develop=" ++ flag settings.develop,
    "--dbgport=" ++ toString port, "--dbgwait=" ++ flag settings.debuggerWait] ++ words

def entryScript : String := "main.lua"

/-- The whole command of a backend and the disk afterwards. -/
def backendCommand (serverDir : FilePath) (settings : RootSettings) (platform : String)
    (disk : Disk) : Disk × Except Failure (List String) :=
  match executable serverDir platform with
  | .error e => (disk, .error e)
  | .ok path => match prepare path platform disk with
    | .error e => (disk, .error e)
    | .ok disk => (disk, command path (serverDir.child entryScript) settings)

theorem prepare_missing {path : FilePath} {platform : String} {disk : Disk}
    (h : disk.node? path.text = none) :
    prepare path platform disk = .error (.launch path.text "backend executable not found") := by
  simp [prepare, h]

end LanguageClient.Launch
