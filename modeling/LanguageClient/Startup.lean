import LanguageClient.CommandLine
import LanguageClient.Settings.File
import LanguageClient.Workspace.Basic

/-!
What the client does before it serves: it takes its arguments, sets up the log, and reads the
environment and the settings, in this order.
-/

namespace LanguageClient

/-- How much is logged. -/
inductive LogLevel where
  | everything
  | debug
  | info
  | warning
  | error
  | critical
deriving DecidableEq, Repr, Inhabited

namespace LogLevel

def name : LogLevel → String
  | .everything => "NOTSET"
  | .debug => "DEBUG"
  | .info => "INFO"
  | .warning => "WARNING"
  | .error => "ERROR"
  | .critical => "CRITICAL"

def named : List (String × LogLevel) := [
  ("NOTSET", .everything), ("DEBUG", .debug), ("INFO", .info), ("WARNING", .warning),
  ("WARN", .warning), ("ERROR", .error), ("CRITICAL", .critical), ("FATAL", .critical)]

/-- The capital of a letter, as far as capitals are letters of ASCII. -/
def capital (c : Char) : Char :=
  if c = 'ı' then 'I' else if c = 'ſ' then 'S' else c.toUpper

/-- What each name stands for. Two names stand for settings of the log that are no levels. -/
def meaning? (name : String) : Option (Except Failure LogLevel) :=
  match named.find? fun e => e.1 = name with
  | some (_, l) => some (.ok l)
  | none =>
    if name = "BASIC_FORMAT" then
      some (.error (.unknownLevel "%(levelname)s:%(name)s:%(message)s"))
    else if name = "_STYLES" then some (.error .notLevel)
    else none

/-- The level of a name in any case; a name without a meaning is as good as none. -/
def ofText (text : String) : Except Failure LogLevel :=
  (meaning? (String.ofList (text.toList.map capital))).getD (.ok .info)

theorem ofText_name (l : LogLevel) : ofText l.name = .ok l := by
  cases l <;> rfl

end LogLevel

namespace Startup

/-- Everything there is to serve with. -/
structure Setup where
  level : LogLevel
  workspace : Workspace
deriving Repr, Inhabited

/-- How the start of the client comes out. -/
inductive Outcome where
  | help
  | misuse (m : CommandLine.Misuse)
  /-- The settings cannot be read. -/
  | badSettings (path : String) (f : Failure)
  /-- What nobody is ready for. -/
  | failed (f : Failure)
  | serve (s : Setup)
deriving Repr, Inhabited

namespace Outcome

/-- Once the client has served, it has done so well. -/
def exitCode : Outcome → Nat
  | .help | .serve _ => 0
  | .failed _ => 1
  | .misuse _ | .badSettings .. => 2

/-- The log is set up once the arguments have been taken. -/
def logs : Outcome → Bool
  | .help | .misuse _ => false
  | .badSettings .. | .failed _ | .serve _ => true

end Outcome

/-- Files by path, with their text. -/
abbrev Files := List (String × String)

/-- Failures to read the settings that are reported; any other one ends the client. -/
def isReported : Failure → Bool
  | .system _ | .noSuchFile | .badYaml => true
  | f => f.isBadValue

def level (a : CommandLine.Arguments) (env : Config.Environment) : Except Failure LogLevel :=
  if a.verbose then .ok .debug
  else LogLevel.ofText (Config.textVariable env "RBXLSP_LOG_LEVEL" LogLevel.info.name)

/-- The configuration, with the directory that the arguments name. -/
def config (a : CommandLine.Arguments) (env : Config.Environment) : Except Failure Config := do
  let config ← Config.ofEnvironment env
  match a.serverDir with
  | some dir =>
    let dir ← (FilePath.ofText dir).expandHome
    return { config with serverDir := dir }
  | none => return config

def settings (a : CommandLine.Arguments) (files : Files) : Except Failure Settings :=
  match a.settings with
  | some path =>
    Settings.ofFile (FilePath.ofText path) ((files.find? fun e => e.1 = path).map (·.2))
  | none => .ok .empty

/-- A port among the arguments goes before that of the settings. -/
def withPort (port : Option Int) (s : Settings) : Settings :=
  match port with
  | some n => s.writeGlobal (.text Settings.serverPortKey) (.int n)
  | none => s

def workspace (a : CommandLine.Arguments) (config : Config) (settings : Settings)
    (disk : Launch.Disk) : Except Failure Workspace := do
  let roots ← a.roots.mapM fun path => Root.ofPath path ""
  Workspace.make config (withPort a.port settings) roots (.directory config.serverDir disk)

/-- The settings are read before anything is made of them; of all failures only those to read them are
reported. -/
def prepare (a : CommandLine.Arguments) (env : Config.Environment) (files : Files)
    (disk : Launch.Disk) : Outcome :=
  match do return (← level a env, ← config a env) with
  | .error f => .failed f
  | .ok (level, config) => match settings a files with
    | .error f => if isReported f then .badSettings (a.settings.getD "") f else .failed f
    | .ok settings => match workspace a config settings disk with
      | .error f => .failed f
      | .ok workspace => .serve ⟨level, workspace⟩

/-- What comes of a command line. -/
def run (argv : List String) (env : Config.Environment) (files : Files) (disk : Launch.Disk) :
    Outcome :=
  match CommandLine.read argv with
  | .help => .help
  | .misuse m => .misuse m
  | .run a => prepare a env files disk

/-! ### What is launched first -/

/-- The roots that get a backend: the outermost ones, or none for the default backend. -/
def firstRoots (w : Workspace) : List (Option Root) :=
  let owners := Resolver.ofRoots (w.resolver.roots.map fun r => w.resolver.outermost r)
  if owners.roots.isEmpty then [none] else owners.roots.map some

/-- The command of a root's backend. -/
def command (root : Option Root) (w : Workspace) : Except Failure (List String) := do
  let settings ← w.settings.forRoot root
  let executable ← Launch.executable w.config.serverDir Launch.hostPlatform
  Launch.command executable (w.config.serverDir.child Launch.entryScript) settings

theorem run_misuse {argv : List String} {m : CommandLine.Misuse}
    (h : CommandLine.read argv = .misuse m) (env : Config.Environment) (files : Files)
    (disk : Launch.Disk) : (run argv env files disk).exitCode = 2 := by
  simp [run, h, Outcome.exitCode]

end Startup
end LanguageClient
