import LanguageClient.World.Basic

/-!
What reaches a session from its backend: events, and the end of the connection.
-/

namespace LanguageClient.World

open Schedule

/-- Wakes the first consumer that still waits. -/
def wakeTaker (s : SessionId) (w : World) : World :=
  match (w.session s).takers.dropWhile (w.loop.isSettled ·) with
  | [] => w.setSession s fun x => { x with takers := [] }
  | c :: rest => (w.setSession s fun x => { x with takers := rest }).release c

def publish (s : SessionId) (e : Event) (w : World) : World :=
  if (w.session s).bus.accepts then
    (w.setSession s fun x => { x with bus := x.bus.publish e }).wakeTaker s
  else w

def closeBus (s : SessionId) (w : World) : World :=
  if (w.session s).bus.closed then w
  else (w.setSession s fun x => { x with bus := x.bus.close }).wakeTaker s

/-- A notification of the backend; those of unknown methods are dropped. -/
def hear (s : SessionId) (method params : Value) (w : World) : World :=
  match method with
  | .text m => match Event.ofNotification? m params (some (w.session s).key) with
    | some e => w.publish s e
    | none => w
  | _ => w

/-- Tells a watcher that a session has gone unasked. -/
def tellExit (s : SessionId) (watcher : Session.Watcher) (w : World) : World :=
  let session := w.session s
  match watcher with
  | .manager => w.setRoster (·.drop session.key s)
  | .recorder false => w.see (.exit (some (session.key, session.state)))
  | .recorder true => w.see (.exit none)

/-- The connection has come to its end. Unless that was asked for, the session stops, and a task
sees that the process ends too. -/
def connectionLost (s : SessionId) (w : World) : World :=
  if (w.session s).stopping then w
  else
    let w := w.setSession s fun x => { x.moveToStopped with outbox := [] }
    let w := w.closeBus s
    let w := (w.session s).watchers.foldl (fun w watcher => w.tellExit s watcher) w
    let (t, w) := w.spawn (.session s (.shutdown Session.killGrace))
    w.setSession s fun x => { x with reaper := some t }

end LanguageClient.World
