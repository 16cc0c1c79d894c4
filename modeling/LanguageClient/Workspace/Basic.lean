import LanguageClient.Bridge.Http
import LanguageClient.Config
import LanguageClient.Relay.Basic
import LanguageClient.Resolver
import LanguageClient.Roster.Basic

/-!
A workspace: its roots and settings, the sessions and relays that serve it, and the bridge.
-/

namespace LanguageClient

open Schedule

/-- A document that the editor has open. -/
structure Document where
  uri : String
  language : String
deriving DecidableEq, Repr, Inhabited

structure Bridge where
  /-- Where it listens; it stays off at zero or below. -/
  port : Int
  bodyLimit : Int
  running : Bool
  last : Option Bridge.Payload
deriving DecidableEq, Repr, Inhabited

namespace Workspace

/-- The places from which calls of a workspace go on. -/
inductive Stage where
  | activate (documents : List Document) (bindError : Option String)
  | bindFailed (documents : List Document) (text : String)
  | openEach (documents : List Document)
  | open (document : Document)
  | startAll
  | startEach (roots : List Root) (seen : List String) (started : List SessionId)
  | startedOne (roots : List Root) (seen : List String) (started : List SessionId)
  | deactivate
  | bridgeStopped
  | closeEach (relays : List RelayId)
  | reportsStopped
  | changeFolders (added removed : List Root)
  | folderClosed (root : Root) (added removed : List Root)
  | show (v : View)
  | showAll (views : List View)
  | showEach (views : List View)
  | click (uri : Option String)
  /-- Tells a new relay what is visible. -/
  | reportAll (r : RelayId)
  | reportEach (r : RelayId) (views : List View)
  /-- Runs until it is cancelled, then deactivates. -/
  | serve
  | serving
  | allStarted
  | defaultStarted
  | leave (o : Except Failure Unit)
  | left (o : Except Failure Unit)
  | receive (request : Bridge.Request)
  | forwarded (payload : Bridge.Payload)
deriving Repr

end Workspace

structure Workspace where
  config : Config
  settings : Settings
  resolver : Resolver
  roster : Roster
  bridge : Bridge
  /-- The relay of each key's session. -/
  relays : List (String × RelayId)
  views : Views
  /-- Tasks that tell new relays what is visible. -/
  reports : List TaskId
deriving Repr, Inhabited

namespace Workspace

def make (config : Config) (settings : Settings) (roots : List Root) (launcher : Roster.Launcher) :
    Except Failure Workspace :=
  settings.bridgePort.map fun port => {
    config := config
    settings := settings
    resolver := .ofRoots roots
    roster := .ofLauncher launcher
    bridge := ⟨port, config.bridgeBodyLimit, false, none⟩
    relays := []
    views := []
    reports := [] }

def schemes : List String := ["file", "untitled"]

/-- Whether documents like this are sent to backends. -/
def accepts (language uri : String) (w : Workspace) : Bool :=
  language = w.config.languageId && schemes.contains (Uri.scheme uri)

/-- The root that owns a document; documents without one go to the default session. -/
def owner? (uri : String) (w : Workspace) : Except Failure (Option Root) :=
  if Uri.scheme uri ≠ "file" then .ok none else w.resolver.resolve? uri

def relay? (key : String) (w : Workspace) : Option RelayId :=
  (w.relays.find? fun e => e.1 = key).map (·.2)

def removeRelay (key : String) (w : Workspace) : Workspace :=
  { w with relays := w.relays.filter fun e => e.1 ≠ key }

/-- A relay for a key that has one takes its place. -/
def putRelay (key : String) (r : RelayId) : List (String × RelayId) → List (String × RelayId)
  | [] => [(key, r)]
  | e :: rest => if e.1 = key then (key, r) :: rest else e :: putRelay key r rest

/-- The command that changes settings, and the one that a click on the status sends. -/
def configCommand : String := "lua.config"
def statusClickCommand : String := "rbxlsp.statusClick"

end Workspace
end LanguageClient
