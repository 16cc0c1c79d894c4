import LanguageClient.Schedule.Basic
import LanguageClient.Wire.Stream

/-!
A backend as its client sees it: a process with a pipe in each direction. What it does by itself is
set down in a plan; what it has been asked and sent is in its log.
-/

namespace LanguageClient

open Schedule

abbrev BackendId := Nat

namespace Backend

/-- What a backend does with a request. -/
inductive Reply where
  | accept
  | reject (error : Value)
  | silence
  | leave
deriving DecidableEq, Repr, Inhabited

/-- What a backend does when it is told to end. -/
inductive Reaction where
  | leave
  | stay
  /-- It has left by itself when it is told. -/
  | gone
deriving DecidableEq, Repr, Inhabited

structure Plan where
  /-- How long it takes until the process exists, or fails to. -/
  spawnDelay : Time
  spawnError : Option String
  onInitialize : Reply
  /-- Sent once the client has said that it is initialized. -/
  greetings : List Value
  onShutdown : Reply
  /-- Whether it leaves when it is told that it may. -/
  leavesOnExit : Bool
  onTerminate : Reaction
  onKill : Reaction
  /-- The method on which its input breaks, and the one on which it stops reading. -/
  breakOn : Option String
  stallOn : Option String
deriving DecidableEq, Repr, Inhabited

def Plan.standard : Plan where
  spawnDelay := 0
  spawnError := none
  onInitialize := .accept
  greetings := []
  onShutdown := .accept
  leavesOnExit := true
  onTerminate := .leave
  onKill := .leave
  breakOn := none
  stallOn := none

/-- Does nothing by itself. -/
def Plan.idle : Plan :=
  { Plan.standard with onInitialize := .silence, onShutdown := .silence, leavesOnExit := false }

inductive Entry where
  | spawn (command : List String) (folder : Option String)
  | spawned
  | sent (message : Value)
  | terminate
  | kill
  | exit (code : Int)
  | closed
deriving DecidableEq, Repr, Inhabited

end Backend

structure Backend where
  plan : Backend.Plan
  log : List Backend.Entry
  /-- The process has come to exist. -/
  spawned : Bool
  exitCode : Option Int
  /-- What it has written and the client has not read. -/
  output : Wire.Stream
  /-- Who waits for more output, for the exit, and for the input to be read. -/
  readers : List CellId
  waiters : List CellId
  writers : List CellId
  broken : Bool
  stalled : Bool
deriving Repr, Inhabited

namespace Backend

def ofPlan (plan : Plan) : Backend where
  plan := plan
  log := []
  spawned := false
  exitCode := none
  output := .empty
  readers := []
  waiters := []
  writers := []
  broken := false
  stalled := false

def note (e : Entry) (b : Backend) : Backend := { b with log := b.log ++ [e] }

/-- The messages written to it, in order. -/
def received (b : Backend) : List Value :=
  b.log.filterMap fun
    | .sent message => some message
    | _ => none

/-- It exists and has not ended. -/
def isAlive (b : Backend) : Bool := b.spawned && b.exitCode.isNone

theorem received_note_sent (b : Backend) (message : Value) :
    (b.note (.sent message)).received = b.received ++ [message] := by
  simp [note, received]

theorem received_note {b : Backend} {e : Entry} (h : ∀ message, e ≠ .sent message) :
    (b.note e).received = b.received := by
  cases e <;> simp_all [note, received]

end Backend
end LanguageClient
