import LanguageClient.Backend.Run
import LanguageClient.Session.Inbound

/-!
How the calls and tasks of a connection go on.
-/

namespace LanguageClient.World

open Schedule

def write (c : ConnectionId) (message : Value) (w : World) : World :=
  w.send (w.connection c).backend message

/-- Why nothing can be sent: the connection has ended. -/
def ended (c : ConnectionId) (w : World) : Failure := .closed (w.connection c).name .ended

def brokenPipe (c : ConnectionId) (w : World) : Failure := .closed (w.connection c).name .brokenPipe

def fail (e : Failure) (w : World) : Step := (.done (.error e), w)

def finish (w : World) : Step := (.done (.ok .nothing), w)

def continueAt (f : Frame) (w : World) : Step := (.goto f, w)

/-- Waits while the backend does not take what is written. -/
def drain (c : ConnectionId) (w : World) : Step :=
  let b := (w.connection c).backend
  if (w.backend b).stalled then
    let (d, w) := w.newCell
    (.await d (.connection c .drained),
      w.setBackend b fun x => { x with writers := x.writers ++ [d] })
  else w.continueAt (.connection c .drained)

def drained (c : ConnectionId) (w : World) : Step :=
  if (w.backend (w.connection c).backend).broken then w.fail (w.brokenPipe c) else w.finish

def sendNotification (c : ConnectionId) (method : String) (params : Value) (w : World) : Step :=
  if (w.connection c).closed then w.fail (w.ended c)
  else (w.write c (Connection.notification method params)).continueAt (.connection c .drain)

/-- A request has a number of its own, and a cell for what it comes to. -/
def sendRequest (c : ConnectionId) (method : String) (params : Value) (timeout : Timeout)
    (w : World) : Step :=
  if (w.connection c).closed then w.fail (w.ended c)
  else
    let id := (w.connection c).nextId
    let (cell, w) := w.newCell
    let w := w.setConnection c fun x => { x with
      nextId := x.nextId + 1
      pending := x.pending ++ [(id, cell)] }
    let w := w.write c (Connection.request id method params)
    (.call (.connection c .drain) (.connection c (.requestWritten id cell timeout)), w)

def dropRequest (c : ConnectionId) (id : Nat) (w : World) : World :=
  w.setConnection c fun x => { x with pending := x.pending.filter fun p => p.1 ≠ id }

/-- The end of a connection: requests without a response fail, and the owner is told. -/
def endConnection (c : ConnectionId) (w : World) : World :=
  let connection := w.connection c
  if connection.closed then w
  else
    let w := w.setConnection c fun x => { x with closed := true, pending := [] }
    let w := connection.pending.foldl
      (fun w p => w.onLoop (·.settle p.2 (.error (w.ended c)))) w
    match connection.owner with
    | .session s => w.connectionLost s
    | .recorder true => w.see .connectionEnded
    | .recorder false => w

/-- A response settles the request it names, if that still waits. -/
def respond (c : ConnectionId) (id : Value) (message : Entries) (w : World) :
    Except Failure World :=
  match id.key? with
  | none => .error (.unhashable id.kind)
  | some k => match (w.connection c).pending? k with
    | none => .ok w
    | some cell =>
      if w.loop.isSettled cell then .ok w
      else match Entries.field? "error" message with
        | some e => (Failure.ofResponse (if e.truthy then e else .map [])).map fun f =>
          w.onLoop (·.settle cell (.error f))
        | none =>
          let result := (Entries.field? "result" message).getD .null
          .ok (w.onLoop (·.settle cell (.ok (.value result))))

def startAnswer (c : ConnectionId) (id method params : Value) (w : World) : World :=
  let (t, w) := w.spawn (.connection c (.answer id method params))
  let w := w.setConnection c fun x => { x with answers := x.answers ++ [t] }
  w.onLoop fun l => l.watch (l.taskCell t) (.call (.answerDone c t))

def notify (c : ConnectionId) (method params : Value) (w : World) : World :=
  match (w.connection c).owner with
  | .session s => w.hear s method params
  | .recorder _ => w.see (.notification method params)

/-- Hands on a message: a response, a request, a notification, or nothing of these. -/
def dispatch (c : ConnectionId) (message : Entries) (w : World) : Except Failure World :=
  let member (name : String) : Value := (Entries.field? name message).getD .null
  let id := member "id"
  match member "method" with
  | .null => if id = .null then .ok w else w.respond c id message
  | method =>
    .ok (if id = .null then w.notify c method (member "params")
      else w.startAnswer c id method (member "params"))

/-- Reads on. A message that cannot be handed on ends the connection, as the end of output does. -/
def readOn (c : ConnectionId) (point : Wire.Point) (w : World) : Step :=
  let b := (w.connection c).backend
  let (reading, output) := Wire.read point (w.backend b).output
  let w := w.setBackend b fun x => { x with output := output }
  match reading with
  | .message (.map entries) => match w.dispatch c entries with
    | .ok w => w.continueAt (.connection c (.read .start))
    | .error e => (w.endConnection c).fail e
  | .message _ | .fault _ => w.continueAt (.connection c (.read .start))
  | .ended => (w.endConnection c).finish
  | .wait point =>
    let (cell, w) := w.newCell
    (.await cell (.connection c (.read point)),
      w.setBackend b fun x => { x with readers := x.readers ++ [cell] })

/-- Starts the task that reads from a connection's backend. -/
def startReading (c : ConnectionId) (w : World) : World :=
  let (t, w) := w.spawn (.connection c (.read .start))
  w.setConnection c fun x => { x with reader := some t }

/-- Finds out what to answer a request of the backend. -/
def answer (c : ConnectionId) (id method params : Value) (w : World) : Step :=
  let ready (result : Except Failure Value) : Step :=
    w.continueAt (.connection c (.answerReady id result))
  match method.key? with
  | none => w.fail (.unhashable method.kind)
  | some k => match (w.connection c).handler? k with
    | none => ready (.ok .null)
    | some .echo => ready (.ok params)
    | some .fail => ready (.error (.refused "handler failed"))
    | some .configuration => ready (Connection.emptyConfiguration params)
    | some .later =>
      let (cell, w) := w.sleep 1000000000
      (.await cell (.connection c (.answerDelayed id params)), w)
    | some .hang =>
      let (cell, w) := w.newCell
      (.await cell (.connection c .answerNever), w)

def sendAnswer (c : ConnectionId) (id : Value) (result : Except Failure Value) (w : World) : Step :=
  if (w.connection c).closed then w.finish
  else (.call (.connection c .drain) (.connection c .answerWritten),
    w.write c (Connection.response id result))

/-- Stops reading first, if that still goes on. -/
def closeConnection (c : ConnectionId) (w : World) : Step :=
  match (w.connection c).reader with
  | some t =>
    if w.loop.taskDone t then w.continueAt (.connection c .readerStopped)
    else (.await (w.loop.taskCell t) (.connection c .readerStopped), w.onLoop (·.cancelTask t))
  | none => w.continueAt (.connection c .readerStopped)

/-- Then gives up the answers that are not finished. -/
def stopAnswers (c : ConnectionId) (w : World) : Step :=
  let answers := (w.connection c).answers
  let w := answers.foldl (fun w t => w.onLoop (·.cancelTask t)) w
  if answers.isEmpty then w.continueAt (.connection c .answersStopped)
  else
    let (cell, w) := w.gather answers
    (.await cell (.connection c .answersStopped), w)

def resumeConnection (c : ConnectionId) (p : Connection.Stage) (o : Outcome Result) (w : World) :
    Step :=
  match p, o with
  | .drain, .ok _ => w.drain c
  | .drained, .ok _ => w.drained c
  | .notify method params, .ok _ => w.sendNotification c method params
  | .request method params timeout, .ok _ => w.sendRequest c method params timeout
  | .requestWritten id cell timeout, .ok _ =>
    (.call (.wait (.start cell timeout)) (.connection c (.requestSettled id)), w)
  | .requestWritten id _ _, .error e => (w.dropRequest c id).fail e
  | .requestSettled id, o => (.done o, w.dropRequest c id)
  | .read point, .ok _ => w.readOn c point
  | .read _, .error _ => (w.endConnection c).finish
  | .answer id method params, .ok _ => w.answer c id method params
  | .answerDelayed id params, .ok _ => w.continueAt (.connection c (.answerReady id (.ok params)))
  | .answerNever, .error e => (w.see .handlerCancelled).fail e
  | .answerNever, .ok _ => w.finish
  | .answerReady id result, .ok _ => w.sendAnswer c id result
  | .answerWritten, .ok _ | .answerWritten, .error (.closed ..) => w.finish
  | .close, .ok _ => w.closeConnection c
  | .readerStopped, .ok _ | .readerStopped, .error .cancelled => w.stopAnswers c
  | .answersStopped, .ok _ =>
    let w := w.endConnection c
    (w.closeInput (w.connection c).backend).finish
  | _, .error e => w.fail e

end LanguageClient.World
