import LanguageClient.Connection.Basic
import LanguageClient.Event.Bus
import LanguageClient.Root
import LanguageClient.Session.State

/-!
A session: one backend for one root, from its start to its end.
-/

namespace LanguageClient

open Schedule

abbrev RelayId := Nat

namespace Session

/-- The key of the session for documents outside every root. -/
def defaultKey : String := "<default>"

/-- The key of the session for a root, or for none. -/
def keyOf : Option Root → String
  | some r => r.key
  | none => defaultKey

/-- Who hears that a backend has gone unasked. -/
inductive Watcher where
  | manager
  /-- Keeps a record, and may fail after that. -/
  | recorder (fails : Bool)
deriving DecidableEq, Repr, Inhabited

/-- Who takes the events of a session. -/
inductive Consumer where
  | relay (r : RelayId)
  | recorder
deriving DecidableEq, Repr, Inhabited

/-- Between asking a process to end and killing it. -/
def killGrace : Timeout := .ofMilliseconds 2000

/-- For a stop that names no other. -/
def stopTimeout : Timeout := .ofMilliseconds 5000

/-- The places from which calls and tasks of a session go on. -/
inductive Stage where
  | start
  | launched (b : BackendId)
  | initializeAnswered
  | initializedSent
  | abandoned (f : Failure)
  | flushed
  | notify (method : String) (params : Value)
  | notified (method : String)
  | stop (timeout : Timeout)
  | shutdownAnswered (timeout : Timeout)
  | exitSent (timeout : Timeout)
  /-- Sees that the process ends, waiting for it first. -/
  | shutdown (grace : Timeout)
  | graceOver
  | terminate
  | terminateOver
  | killed
  | release
  | released
  /-- Takes events one after the other. -/
  | consume (taker : Consumer)
  | consumeAwoken (taker : Consumer) (c : CellId)
deriving Repr

end Session

structure Session where
  root : Option Root
  command : List String
  /-- For its requests. -/
  timeout : Timeout
  bus : Bus
  /-- Consumers that wait for an event. -/
  takers : List CellId
  state : SessionState
  /-- It has been ready once. -/
  started : Bool
  backend : Option BackendId
  connection : Option ConnectionId
  /-- The task that sees to the process after it has gone unasked. -/
  reaper : Option TaskId
  /-- Notifications to be sent once the backend is ready. -/
  outbox : List (String × Value)
  /-- It has been asked to stop, or has given up. -/
  stopping : Bool
  watchers : List Session.Watcher
deriving Repr, Inhabited

namespace Session

def make (root : Option Root) (command : List String) (timeout : Timeout) (capacity : Int) :
    Session where
  root := root
  command := command
  timeout := timeout
  bus := .ofCapacity capacity
  takers := []
  state := .unstarted
  started := false
  backend := none
  connection := none
  reaper := none
  outbox := []
  stopping := false
  watchers := []

def key (s : Session) : String := keyOf s.root

/-- The path of its root, nothing without a root. -/
def path (s : Session) : Except Failure Value :=
  match s.root with
  | some r => r.path.map .text
  | none => .ok .null

/-- The number of the process that the backends are told. -/
def processNumber : Nat := 4242

/-- What a backend is told about its client. -/
def initializeParams (s : Session) : Except Failure Value := do
  let path ← s.path
  let uri : Value := match s.root with
    | some r => .text r.uri
    | none => .null
  let folders : Value := match s.root with
    | some r => .list [.record [("uri", .text r.uri), ("name", .text r.name)]]
    | none => .null
  return .record [
    ("processId", .int processNumber),
    ("clientInfo", .record [("name", .text "rbxlsp")]),
    ("rootUri", uri),
    ("rootPath", path),
    ("workspaceFolders", folders),
    ("capabilities", .record [
      ("workspace", .record [("configuration", .bool true), ("workspaceFolders", .bool true)]),
      ("window", .record [("workDoneProgress", .bool true)])]),
    ("initializationOptions", .map [])]

/-- Moves to another state, if that may come next. -/
def move (target : SessionState) (s : Session) : Except Failure Session :=
  if s.state.next.contains target then .ok { s with state := target }
  else .error (.badTransition s.state target)

/-- Stops it; a stopped session stays as it is. -/
def moveToStopped (s : Session) : Session := { s with state := .stopped }

theorem move_stopped {s : Session} (h : s.state ≠ .stopped) :
    s.move .stopped = .ok s.moveToStopped := by
  simp [move, moveToStopped, SessionState.stopped_mem_next h]

theorem state_of_move {s s' : Session} {target : SessionState} (h : s.move target = .ok s') :
    s'.state = target := by
  simp only [move] at h
  split at h
  · cases h
    rfl
  · cases h

end Session
end LanguageClient
