import LanguageClient.World.Basic
import LanguageClient.Wire.Frame

/-!
What a backend does: it takes what it is sent, answers as its plan says, and comes to its end.
-/

namespace LanguageClient.World

open Schedule

/-- Lets those that wait for more output look again. -/
def wakeReaders (b : BackendId) (w : World) : World :=
  let readers := (w.backend b).readers
  (w.setBackend b fun x => { x with readers := [] }).releaseAll readers

/-- Writes to the output, unless that is over. -/
def feed (b : BackendId) (bytes : Text.Bytes) (w : World) : World :=
  let backend := w.backend b
  if backend.exitCode.isSome || backend.output.ended then w
  else (w.setBackend b fun x => { x with output := x.output.feed bytes }).wakeReaders b

def endOutput (b : BackendId) (w : World) : World :=
  (w.setBackend b fun x => { x with output := x.output.finish }).wakeReaders b

/-- The process ends. Its output may stay open. -/
def exit (b : BackendId) (code : Int) (endsOutput : Bool) (w : World) : World :=
  let backend := w.backend b
  if backend.exitCode.isSome then w
  else
    let w := w.setBackend b fun x =>
      { x.note (.exit code) with exitCode := some code, waiters := [] }
    let w := w.releaseAll backend.waiters
    if endsOutput then w.endOutput b else w

/-- Code of a backend that leaves where an answer is due. -/
def deserted : Int := 3

def reply (b : BackendId) (id : Value) (r : Backend.Reply) (w : World) : World :=
  let response (member : String) (v : Value) : Text.Bytes :=
    Wire.frame (.record [("jsonrpc", .text "2.0"), ("id", id), (member, v)])
  match r with
  | .accept => w.feed b (response "result" .null)
  | .reject e => w.feed b (response "error" e)
  | .silence => w
  | .leave => w.exit b deserted true

/-- What a message makes a backend do. -/
def react (b : BackendId) (method : String) (id : Value) (w : World) : World :=
  let plan := (w.backend b).plan
  let w := w.setBackend b fun x => { x with
    broken := x.broken || plan.breakOn = some method
    stalled := x.stalled || plan.stallOn = some method }
  if method = "initialize" then w.reply b id plan.onInitialize
  else if method = "initialized" then
    plan.greetings.foldl (fun w message => w.feed b (Wire.frame message)) w
  else if method = "shutdown" then w.reply b id plan.onShutdown
  else if method = "exit" then (if plan.leavesOnExit then w.exit b 0 true else w)
  else w

/-- Writes a message to a backend. One whose input is broken gets nothing, one that has ended does
nothing about it. -/
def send (b : BackendId) (message : Value) (w : World) : World :=
  if (w.backend b).broken then w
  else
    let w := w.setBackend b (·.note (.sent message))
    if (w.backend b).exitCode.isSome then w
    else match message.field? "method" with
      | some (.text method) => w.react b method ((message.field? "id").getD .null)
      | _ => w

def closeInput (b : BackendId) (w : World) : World := w.setBackend b (·.note .closed)

def breakInput (b : BackendId) (w : World) : World :=
  w.setBackend b fun x => { x with broken := true }

def stallInput (b : BackendId) (w : World) : World :=
  w.setBackend b fun x => { x with stalled := true }

def unstallInput (b : BackendId) (w : World) : World :=
  let writers := (w.backend b).writers
  (w.setBackend b fun x => { x with stalled := false, writers := [] }).releaseAll writers

/-- Asks for a process; it gets the next plan. -/
def requestBackend (command : List String) (folder : Option String) (w : World) :
    BackendId × World :=
  let plan := w.plans.headD .standard
  let backend := (Backend.ofPlan plan).note (.spawn command folder)
  (w.backends.length, { w with backends := w.backends ++ [backend], plans := w.plans.drop 1 })

def beginBackend (b : BackendId) (w : World) : World :=
  w.setBackend b fun x => { x.note .spawned with spawned := true }

/-- Carries out a reaction; tells whether the process could still be told. -/
def undergo (b : BackendId) (r : Backend.Reaction) (code : Int) (w : World) : Bool × World :=
  match r with
  | .leave => (true, w.exit b code true)
  | .stay => (true, w)
  | .gone => (false, w.exit b 0 true)

/-- Asks a process to end; tells whether there was one. -/
def terminate (b : BackendId) (w : World) : Bool × World :=
  let backend := w.backend b
  let w := w.setBackend b (·.note .terminate)
  if backend.exitCode.isSome then (false, w) else w.undergo b backend.plan.onTerminate (-15)

/-- Ends a process that has not ended by itself. -/
def killBackend (b : BackendId) (w : World) : World :=
  let backend := w.backend b
  if backend.exitCode.isSome then w
  else ((w.setBackend b (·.note .kill)).undergo b backend.plan.onKill (-9)).2

/-- A cell that the end of a process settles. -/
def awaitExit (b : BackendId) (w : World) : CellId × World :=
  let (c, w) := w.newCell
  (c, if (w.backend b).exitCode.isSome then w.release c
    else w.setBackend b fun x => { x with waiters := x.waiters ++ [c] })

end LanguageClient.World
