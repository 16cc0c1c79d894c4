import LanguageClient.Number.Reader
import LanguageClient.Uri.FilePath

/-!
The configuration of the client, taken from the environment.
-/

namespace LanguageClient

structure Config where
  /-- Where the backend's executables and its main script are. -/
  serverDir : FilePath
  /-- Only documents in this language are sent to a backend. -/
  languageId : String
  bridgeHost : String
  /-- The longest body the bridge takes; zero is no limit. -/
  bridgeBodyLimit : Int
  /-- In seconds, as is `stopTimeout`. -/
  requestTimeout : Binary64
  stopTimeout : Binary64
  /-- How many inbound events a session keeps; none or less is no limit. -/
  eventQueueSize : Int
  logLevel : String
deriving DecidableEq, Repr, Inhabited

namespace Config

def standard : Config where
  serverDir := FilePath.ofText "/server"
  languageId := "lua"
  bridgeHost := "127.0.0.1"
  bridgeBodyLimit := 10485760
  requestTimeout := .ofInt 30
  stopTimeout := .ofInt 5
  eventQueueSize := 5000
  logLevel := "INFO"

/-- The variables of an environment, by name. -/
abbrev Environment := List (String × String)

/-- The names of the variables that are looked at. -/
def variableNames : List String := ["RBXLSP_SERVER_DIR", "RBXLSP_LANGUAGE_ID", "RBXLSP_BRIDGE_HOST",
  "RBXLSP_BODY_LIMIT", "RBXLSP_REQUEST_TIMEOUT", "RBXLSP_STOP_TIMEOUT", "RBXLSP_QUEUE_SIZE",
  "RBXLSP_LOG_LEVEL"]

def named? (env : Environment) (name : String) : Option String :=
  (env.find? fun e => e.1 = name).map (·.2)

def textVariable (env : Environment) (name fallback : String) : String :=
  (named? env name).getD fallback

def intVariable (env : Environment) (name : String) (fallback : Int) : Except Failure Int :=
  match named? env name with
  | none => .ok fallback
  | some s => match Number.readInt? s with
    | some n => .ok n
    | none => .error (.notInteger s)

def floatVariable (env : Environment) (name : String) (fallback : Binary64) :
    Except Failure Binary64 :=
  match named? env name with
  | none => .ok fallback
  | some s => match Number.readFloat? s with
    | some x => .ok x
    | none => .error (.notFloat s)

/-- An empty directory counts as none. -/
def directoryVariable (env : Environment) (name : String) (fallback : FilePath) :
    Except Failure FilePath :=
  match named? env name with
  | none => .ok fallback
  | some s => if s.isEmpty then .ok fallback else (FilePath.ofText s).expandHome

/-- The first variable that cannot be read, in this order, is the failure. -/
def ofEnvironment (env : Environment) : Except Failure Config := do
  let serverDir ← directoryVariable env "RBXLSP_SERVER_DIR" standard.serverDir
  let bodyLimit ← intVariable env "RBXLSP_BODY_LIMIT" standard.bridgeBodyLimit
  let requestTimeout ← floatVariable env "RBXLSP_REQUEST_TIMEOUT" standard.requestTimeout
  let stopTimeout ← floatVariable env "RBXLSP_STOP_TIMEOUT" standard.stopTimeout
  let queueSize ← intVariable env "RBXLSP_QUEUE_SIZE" standard.eventQueueSize
  return {
    serverDir := serverDir
    languageId := textVariable env "RBXLSP_LANGUAGE_ID" standard.languageId
    bridgeHost := textVariable env "RBXLSP_BRIDGE_HOST" standard.bridgeHost
    bridgeBodyLimit := bodyLimit
    requestTimeout := requestTimeout
    stopTimeout := stopTimeout
    eventQueueSize := queueSize
    logLevel := textVariable env "RBXLSP_LOG_LEVEL" standard.logLevel }

theorem ofEnvironment_nil : ofEnvironment [] = .ok standard := rfl

end Config
end LanguageClient
