import LanguageClient.World.Run

/-!
What comes to a world from outside: calls of the client's operations, and what the editor and the
backends do by themselves.
-/

namespace LanguageClient

open Schedule

/-- An operation of a connection, a session, a relay, the roster or the workspace. -/
inductive Call where
  | sendNotification (c : ConnectionId) (method : String) (params : Value)
  | sendRequest (c : ConnectionId) (method : String) (params : Value) (timeout : Timeout)
  | closeConnection (c : ConnectionId)
  | startSession (s : SessionId)
  | notifySession (s : SessionId) (method : String) (params : Value)
  | stopSession (s : SessionId) (timeout : Timeout)
  /-- Takes the events of a session for the record. -/
  | recordEvents (s : SessionId)
  | dispatch (r : RelayId) (e : Event)
  | report (r : RelayId) (v : View)
  | clickRelay (r : RelayId)
  | ensure (root : Option Root)
  | notify (root : Option Root) (method : String) (params : Value)
  | stop (root : Option Root)
  | stopAll (timeout : Timeout)
  | activate (documents : List Document) (bindError : Option String)
  | openDocument (d : Document)
  | changeFolders (added removed : List Root)
  | startAll
  | show (v : View)
  | showAll (views : List View)
  | click (uri : Option String)
  | receive (request : Bridge.Request)
  | deactivate
  | serve
deriving Repr

/-- Where the task of a call starts. -/
def Call.frame : Call → Frame
  | .sendNotification c method params => .connection c (.notify method params)
  | .sendRequest c method params timeout => .connection c (.request method params timeout)
  | .closeConnection c => .connection c .close
  | .startSession s => .session s .start
  | .notifySession s method params => .session s (.notify method params)
  | .stopSession s timeout => .session s (.stop timeout)
  | .recordEvents s => .session s (.consume .recorder)
  | .dispatch r e => .relay r (.dispatch e)
  | .report r v => .relay r (.report v)
  | .clickRelay r => .relay r .click
  | .ensure root => .roster (.ensure root)
  | .notify root method params => .roster (.notify root method params)
  | .stop root => .roster (.stop root)
  | .stopAll timeout => .roster (.stopAll timeout)
  | .activate documents bindError => .workspace (.activate documents bindError)
  | .openDocument d => .workspace (.open d)
  | .changeFolders added removed => .workspace (.changeFolders added removed)
  | .startAll => .workspace .startAll
  | .show v => .workspace (.show v)
  | .showAll views => .workspace (.showAll views)
  | .click uri => .workspace (.click uri)
  | .receive request => .workspace (.receive request)
  | .deactivate => .workspace .deactivate
  | .serve => .workspace .serve

namespace Backend

/-- What a backend does by itself, or what becomes of its pipes. -/
inductive Deed where
  | write (bytes : Text.Bytes)
  | exit (code : Int) (endsOutput : Bool)
  | endOutput
  | breakInput
  | stallInput
  | unstallInput
deriving DecidableEq, Repr

end Backend

inductive Act where
  | call (c : Call)
  | cancel (t : TaskId)
  /-- Starts to read from a connection, for an owner. -/
  | listen (c : ConnectionId) (owner : Connection.Owner)
  | kill (s : SessionId)
  | forget (r : RelayId) (uri : String)
  | backend (b : BackendId) (d : Backend.Deed)
  /-- Plans for backends after those planned before. -/
  | plan (plans : List Backend.Plan)
  | hook (h : Roster.Hook)
  | set (key value uri : Value) (everywhere : Bool)
deriving Repr

namespace World

def carryOut (b : BackendId) (d : Backend.Deed) (w : World) : World :=
  match d with
  | .write bytes => w.feed b bytes
  | .exit code endsOutput => w.exit b code endsOutput
  | .endOutput => w.endOutput b
  | .breakInput => w.breakInput b
  | .stallInput => w.stallInput b
  | .unstallInput => w.unstallInput b

/-- A backend that does not exist yet does nothing. -/
def take (a : Act) (w : World) : World :=
  match a with
  | .call c => (w.spawn c.frame).2
  | .cancel t => w.onLoop (·.cancelTask t)
  | .listen c owner => (w.setConnection c fun x => { x with owner := owner }).startReading c
  | .kill s => w.killSession s
  | .forget r uri => w.setRelay r fun x => { x with views := Views.forget uri x.views }
  | .backend b d => if (w.backend b).spawned then w.carryOut b d else w
  | .plan plans => { w with plans := w.plans ++ plans }
  | .hook h => w.setRoster fun r => { r with hook := h }
  | .set key value uri everywhere => w.setWorkspace fun ws =>
    { ws with settings := (ws.settings.update key value uri everywhere).1 }

/-- The task that the next call gets. -/
def nextTask (w : World) : TaskId := w.loop.tasks.length

theorem nextTask_take_call (c : Call) (w : World) :
    (w.take (.call c)).nextTask = w.nextTask + 1 := by
  simp [take, nextTask, spawn, Loop.spawn, Loop.push, Loop.newCell]

end World
end LanguageClient
