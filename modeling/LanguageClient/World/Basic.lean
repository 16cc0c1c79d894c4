import LanguageClient.Schedule.Loop
import LanguageClient.Workspace.Basic

/-!
Everything there is: the loop with its tasks, the backends, connections, sessions and relays that
have been made, by number, and the workspace they belong to.
-/

namespace LanguageClient

open Schedule

/-- A wait with a time limit. -/
inductive Wait where
  | start (c : CellId) (timeout : Timeout)
  /-- Until the timer goes off. -/
  | guarded (timer : TimerId) (cancels : Nat)
  /-- For a cell that has just been given up. -/
  | released (c : CellId)
deriving DecidableEq, Repr

/-- A place from which a task goes on. -/
inductive Frame where
  | wait (p : Wait)
  /-- Hands on what it is given. -/
  | pass
  | connection (c : ConnectionId) (p : Connection.Stage)
  | session (s : SessionId) (p : Session.Stage)
  | relay (r : RelayId) (p : Relay.Stage)
  | roster (p : Roster.Stage)
  | workspace (p : Workspace.Stage)
deriving Repr

/-- What is carried out once a task is done. -/
inductive Notice where
  | answerDone (c : ConnectionId) (t : TaskId)
  | reportDone (t : TaskId)
deriving DecidableEq, Repr

/-- What a task returns. -/
inductive Result where
  | nothing
  | value (v : Value)
  | session (s : Option SessionId)
  | sessions (ss : List SessionId)
  | ranges (rs : Option (List Range))
  | response (r : Bridge.Response)
deriving DecidableEq, Repr, Inhabited

/-- What a recorder has seen. -/
inductive Sight where
  | notification (method params : Value)
  | connectionEnded
  | handlerCancelled
  | event (e : Event)
  | eventsEnded
  /-- A session has gone unasked; a watcher that goes on to fail tells less. -/
  | exit (key : Option (String × SessionState))
  | localCommand (name : String) (data : Value)
deriving DecidableEq, Repr

structure World where
  loop : Loop Frame Result Notice
  /-- The task that runs, and what it goes on with. -/
  current : Option (TaskId × Outcome Result)
  backends : List Backend
  /-- The plans of the backends to come. -/
  plans : List Backend.Plan
  connections : List Connection
  sessions : List Session
  relays : List Relay
  workspace : Workspace
  shell : Shell
  sights : List Sight
deriving Repr

/-- What a task's step does. -/
abbrev Step := Flow Frame Result × World

namespace World

def start (workspace : Workspace) (shell : Shell) (plans : List Backend.Plan) : World where
  loop := .start
  current := none
  backends := []
  plans := plans
  connections := []
  sessions := []
  relays := []
  workspace := workspace
  shell := shell
  sights := []

/-- A world of one connection, to a backend that does nothing by itself. -/
def ofConnection (c : Connection) : World :=
  { start default default [] with
    backends := [{ Backend.ofPlan .idle with spawned := true }]
    connections := [{ c with backend := 0 }] }

def ofSession (s : Session) (plans : List Backend.Plan) : World :=
  { start default default plans with sessions := [s] }

/-- A world of one relay and its session. -/
def ofRelay (r : Relay) (s : Session) (shell : Shell) : World :=
  { start default shell [] with sessions := [s], relays := [{ r with session := 0 }] }

def backend (b : BackendId) (w : World) : Backend := w.backends.getD b default
def connection (c : ConnectionId) (w : World) : Connection := w.connections.getD c default
def session (s : SessionId) (w : World) : Session := w.sessions.getD s default
def relay (r : RelayId) (w : World) : Relay := w.relays.getD r default

def setBackend (b : BackendId) (f : Backend → Backend) (w : World) : World :=
  { w with backends := w.backends.modify b f }

def setConnection (c : ConnectionId) (f : Connection → Connection) (w : World) : World :=
  { w with connections := w.connections.modify c f }

def setSession (s : SessionId) (f : Session → Session) (w : World) : World :=
  { w with sessions := w.sessions.modify s f }

def setRelay (r : RelayId) (f : Relay → Relay) (w : World) : World :=
  { w with relays := w.relays.modify r f }

def setWorkspace (f : Workspace → Workspace) (w : World) : World :=
  { w with workspace := f w.workspace }

def setRoster (f : Roster → Roster) (w : World) : World :=
  w.setWorkspace fun ws => { ws with roster := f ws.roster }

def setBridge (f : Bridge → Bridge) (w : World) : World :=
  w.setWorkspace fun ws => { ws with bridge := f ws.bridge }

def addConnection (c : Connection) (w : World) : ConnectionId × World :=
  (w.connections.length, { w with connections := w.connections ++ [c] })

def addSession (s : Session) (w : World) : SessionId × World :=
  (w.sessions.length, { w with sessions := w.sessions ++ [s] })

def addRelay (r : Relay) (w : World) : RelayId × World :=
  (w.relays.length, { w with relays := w.relays ++ [r] })

def see (s : Sight) (w : World) : World := { w with sights := w.sights ++ [s] }

def showError (message : String) (w : World) : World :=
  { w with shell := w.shell.showError ("Roblox LSP: " ++ message) }

def onLoop (f : Loop Frame Result Notice → Loop Frame Result Notice) (w : World) : World :=
  { w with loop := f w.loop }

/-- Settles a cell with nothing to hand over. -/
def release (c : CellId) (w : World) : World := w.onLoop (·.settle c (.ok .nothing))

def releaseAll (cs : List CellId) (w : World) : World := cs.foldl (fun w c => w.release c) w

def newCell (w : World) : CellId × World :=
  let (c, l) := w.loop.newCell .plain
  (c, { w with loop := l })

def spawn (f : Frame) (w : World) : TaskId × World :=
  let (t, l) := w.loop.spawn f
  (t, { w with loop := l })

/-- A cell that a timer settles. -/
def sleep (span : Int) (w : World) : CellId × World :=
  let (c, w) := w.newCell
  (c, w.onLoop fun l => (l.setTimer span (.release c)).2)

/-- A cell that the end of all of some tasks settles. -/
def gather (tasks : List TaskId) (w : World) : CellId × World :=
  let (c, l) := w.loop.gather (tasks.map (w.loop.taskCell ·)) .nothing
  (c, { w with loop := l })

/-- Whether a session has a backend or is about to have one. -/
def isRunning (s : SessionId) (w : World) : Bool :=
  let session := w.session s
  (session.state = .starting || session.state = .ready) &&
    match session.backend with
    | some b => (w.backend b).exitCode.isNone
    | none => true

theorem backends_onLoop (f : Loop Frame Result Notice → Loop Frame Result Notice) (w : World) :
    (w.onLoop f).backends = w.backends := rfl

theorem sessions_onLoop (f : Loop Frame Result Notice → Loop Frame Result Notice) (w : World) :
    (w.onLoop f).sessions = w.sessions := rfl

end World
end LanguageClient
