import LanguageClient.Connection.Run

/-!
How a session is started and stopped, how it sends notifications, and how its events are taken.
-/

namespace LanguageClient.World

open Schedule

/-- Whether a path leads to the root directory, the one folder that is known to exist. -/
def isRootDirectory (path : String) : Bool :=
  match path.toList with
  | '/' :: rest =>
    (FilePath.splitAt '/' rest).all fun part => part = [] || part = ['.'] || part = ['.', '.']
  | _ => false

/-- The folder a backend is started in. -/
def startFolder (s : Session) : Except Failure (Option String) :=
  match s.root with
  | none => .ok none
  | some r => r.path.map fun path => if isRootDirectory path then some path else none

/-- The start has failed: the session is over. -/
def failStart (s : SessionId) (w : World) : World :=
  (w.setSession s fun x => { x.moveToStopped with outbox := [] }).closeBus s

def launchFailure (s : SessionId) (reason : String) (w : World) : Failure :=
  .launch (w.session s).key reason

def startSession (s : SessionId) (w : World) : Step :=
  match (w.session s).move .starting with
  | .error e => w.fail e
  | .ok session =>
    let w := w.setSession s fun _ => session
    match startFolder session with
    | .error e => w.fail e
    | .ok folder =>
      if session.command.isEmpty then
        (w.failStart s).fail (w.launchFailure s "empty backend command")
      else
        let (b, w) := w.requestBackend session.command folder
        let delay := (w.backend b).plan.spawnDelay
        if delay = 0 then w.continueAt (.session s (.launched b))
        else
          let (cell, w) := w.sleep delay
          (.await cell (.session s (.launched b)), w)

/-- A connection to the backend of a session, with a task that reads from it. -/
def connect (s : SessionId) (b : BackendId) (w : World) : ConnectionId × World :=
  let session := w.session s
  let (c, w) := w.addConnection (.make ("backend:" ++ session.key) b (.session s) session.timeout
    [("workspace/configuration", .configuration)])
  (c, (w.startReading c).setSession s fun x => { x with connection := some c })

/-- The process exists, or does not. If the session has been stopped meanwhile the process goes
again; otherwise the handshake begins. -/
def launched (s : SessionId) (b : BackendId) (w : World) : Step :=
  match (w.backend b).plan.spawnError with
  | some reason => (w.failStart s).fail (w.launchFailure s reason)
  | none =>
    let w := (w.beginBackend b).setSession s fun x => { x with backend := some b }
    if (w.session s).stopping then w.continueAt (.session s (.shutdown (.after 0)))
    else
      let (c, w) := w.connect s b
      match (w.session s).initializeParams with
      | .error e => w.fail e
      | .ok params =>
        (.call (.connection c (.request "initialize" params (w.session s).timeout))
          (.session s .initializeAnswered), w)

/-- Failures that a session is ready for while it talks to its backend. -/
def isExpected : Failure → Bool
  | .timeout | .system _ => true
  | e => e.isOwn

/-- The handshake has failed: the process has to go first. A stop that is under way sees to it. -/
def abandon (s : SessionId) (e : Failure) (w : World) : Step :=
  if !isExpected e then w.fail e
  else if (w.session s).stopping then w.finish
  else (.call (.session s (.shutdown (.after 0))) (.session s (.abandoned e)),
    w.setSession s fun x => { x with stopping := true })

/-- Calls the connection of a session, which it has from the launch on. -/
def callConnection (s : SessionId) (p : Connection.Stage) (next : Session.Stage) (w : World) :
    Step :=
  match (w.session s).connection with
  | some c => (.call (.connection c p) (.session s next), w)
  | none => w.continueAt (.session s next)

/-- Sends what has been kept, in order, and is ready. -/
def flush (s : SessionId) (c : ConnectionId) (w : World) : World :=
  let kept := (w.session s).outbox
  let w := w.setSession s fun x => { x with outbox := [] }
  let w := kept.foldl
    (fun w (method, params) => w.write c (Connection.notification method params)) w
  w.setSession s fun x => { x with state := .ready }

/-- The end of the handshake, unless a stop or a crash has been faster. -/
def completeStart (s : SessionId) (w : World) : Step :=
  if (w.session s).state ≠ .starting then w.finish
  else
    let w := w.setSession s fun x => { x with started := true }
    match (w.session s).connection with
    | none => w.finish
    | some c =>
      if (w.connection c).closed && !(w.session s).outbox.isEmpty then
        (w.setSession s fun x => { x with outbox := [] }).fail (w.ended c)
      else (.call (.connection c .drain) (.session s .flushed), w.flush s c)

/-- Before the session is ready notifications are kept; once it is over they are refused. -/
def notifySession (s : SessionId) (method : String) (params : Value) (w : World) : Step :=
  let session := w.session s
  if session.state.buffers then
    (w.setSession s fun x => { x with outbox := x.outbox ++ [(method, params)] }).finish
  else match session.state, session.connection with
    | .ready, some c =>
      (.call (.connection c (.notify method params)) (.session s (.notified method)), w)
    | state, _ => w.fail (.notReady method session.key state.name)

/-- A backend that was ready is asked to shut down first. -/
def stopSession (s : SessionId) (timeout : Timeout) (w : World) : Step :=
  let session := w.session s
  if session.stopping then w.finish
  else
    let w := w.setSession s fun x => { x with stopping := true }
    match session.reaper with
    | some t => (.await (w.loop.taskCell t) .pass, w)
    | none =>
      let wasReady : Bool := session.state = .ready
      let w := w.setSession s fun x => { x.moveToStopped with outbox := [] }
      if !wasReady then w.continueAt (.session s (.shutdown (.after 0)))
      else match session.connection with
        | some c =>
          if (w.connection c).closed then w.continueAt (.session s (.shutdown timeout))
          else (.call (.connection c (.request "shutdown" .null timeout))
            (.session s (.shutdownAnswered timeout)), w)
        | none => w.continueAt (.session s (.shutdown timeout))

/-- Waits for the end of the process of a session; goes on to release what it had if there is
none. -/
def awaitProcess (s : SessionId) (timeout : Timeout) (next : Session.Stage) (w : World) : Step :=
  match (w.session s).backend with
  | some b =>
    if (w.backend b).exitCode.isSome then w.continueAt (.session s .release)
    else
      let (cell, w) := w.awaitExit b
      (.call (.wait (.start cell timeout)) (.session s next), w)
  | none => w.continueAt (.session s .release)

/-- Leaves a process some time to end by itself. -/
def shutdown (s : SessionId) (grace : Timeout) (w : World) : Step :=
  match (w.session s).backend with
  | some b =>
    if (w.backend b).exitCode.isNone && grace.isOver then w.continueAt (.session s .terminate)
    else w.awaitProcess s grace .graceOver
  | none => w.continueAt (.session s .release)

def terminateSession (s : SessionId) (w : World) : Step :=
  match (w.session s).backend with
  | some b => match w.terminate b with
    | (true, w) => w.awaitProcess s Session.killGrace .terminateOver
    | (false, w) => w.continueAt (.session s .release)
  | none => w.continueAt (.session s .release)

/-- Ends the process of a session at once. -/
def killSession (s : SessionId) (w : World) : World :=
  match (w.session s).backend with
  | some b => w.killBackend b
  | none => w

/-- Has a consumer take the next event, or wait for one. -/
def takeEvent (s : SessionId) (taker : Session.Consumer) (w : World) : Step :=
  match (w.session s).bus.take? with
  | none =>
    let (cell, w) := w.newCell
    (.await cell (.session s (.consumeAwoken taker cell)),
      w.setSession s fun x => { x with takers := x.takers ++ [cell] })
  | some (e?, bus) =>
    let w := w.setSession s fun x => { x with bus := bus }
    match e?, taker with
    | none, .recorder => (w.see .eventsEnded).finish
    | none, .relay _ => w.finish
    | some e, .recorder => (w.see (.event e)).continueAt (.session s (.consume taker))
    | some e, .relay r => (.call (.relay r (.dispatch e)) (.session s (.consume taker)), w)

/-- A consumer that gives up leaves what it was woken for to the next one. -/
def leaveTakers (s : SessionId) (cell : CellId) (w : World) : World :=
  let w := w.setSession s fun x => { x with takers := x.takers.filter (· ≠ cell) }
  let wasCancelled : Bool := match w.loop.outcome? cell with
    | some (.error .cancelled) => true
    | _ => false
  if (w.session s).bus.queue.isEmpty || wasCancelled then w else w.wakeTaker s

def resumeSession (s : SessionId) (p : Session.Stage) (o : Outcome Result) (w : World) : Step :=
  match p, o with
  | .start, .ok _ => w.startSession s
  | .launched b, .ok _ => w.launched s b
  | .initializeAnswered, .ok _ =>
    w.callConnection s (.notify "initialized" (.map [])) .initializedSent
  | .initializeAnswered, .error e | .initializedSent, .error e => w.abandon s e
  | .initializedSent, .ok _ => w.completeStart s
  | .abandoned e, .ok _ =>
    (w.failStart s).fail (w.launchFailure s ("initialize failed: " ++ e.display))
  | .flushed, .ok _ | .flushed, .error (.closed ..) => w.finish
  | .notify method params, .ok _ => w.notifySession s method params
  | .notified _, .ok _ => w.finish
  | .notified method, .error (.closed name cause) =>
    w.fail (.forwarding method (Failure.closed name cause).message)
  | .stop timeout, .ok _ => w.stopSession s timeout
  | .shutdownAnswered timeout, .ok _ =>
    w.callConnection s (.notify "exit" .null) (.exitSent timeout)
  | .exitSent timeout, .ok _ => w.continueAt (.session s (.shutdown timeout))
  | .shutdownAnswered timeout, .error e | .exitSent timeout, .error e =>
    if isExpected e then w.continueAt (.session s (.shutdown timeout)) else w.fail e
  | .shutdown grace, .ok _ => w.shutdown s grace
  | .graceOver, .ok _ | .terminateOver, .ok _ | .killed, .ok _ =>
    w.continueAt (.session s .release)
  | .graceOver, .error .timeout => w.continueAt (.session s .terminate)
  | .terminate, .ok _ => w.terminateSession s
  | .terminateOver, .error .timeout => (w.killSession s).awaitProcess s .never .killed
  | .release, .ok _ => w.callConnection s .close .released
  | .released, .ok _ => (w.closeBus s).finish
  | .consume taker, .ok _ => w.takeEvent s taker
  | .consumeAwoken taker _, .ok _ => w.continueAt (.session s (.consume taker))
  | .consumeAwoken _ cell, .error e => (w.leaveTakers s cell).fail e
  | _, .error e => w.fail e

end LanguageClient.World
