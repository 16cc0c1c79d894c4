import LanguageClient.Failure
import LanguageClient.Number.Binary64

/-!
Cooperative tasks on one thread. A task runs until it waits for a cell; a cell is settled once, and
then whatever waits for it becomes ready. Ready jobs are carried out first in, first out.

The parameters are `φ`, a place in a program from which a task goes on; `ρ`, what a task returns;
and `κ`, something else to carry out once a cell is settled.
-/

namespace LanguageClient.Schedule

/-- Counted in nanoseconds. -/
abbrev Time := Nat

abbrev CellId := Nat

abbrev TaskId := Nat

abbrev TimerId := Nat

/-- How long to wait at most. -/
inductive Timeout where
  | never
  | after (span : Int)
deriving DecidableEq, Repr, Inhabited

namespace Timeout

def ofMilliseconds (n : Int) : Timeout := .after (n * 1000000)

/-- Seconds, cut to whole nanoseconds; an infinity is never over. -/
def ofSeconds (x : Binary64) : Timeout :=
  match x with
  | .finite negative significand exponent =>
    let (num, den) := Binary64.ratio significand exponent
    let span : Int := num * 1000000000 / den
    .after (if negative then -span else span)
  | .infinite true => .after (-1)
  | .infinite false | .nan => .never

def isOver : Timeout → Bool
  | .never => false
  | .after span => span ≤ 0

end Timeout

/-- What settles a cell. -/
inductive Source where
  /-- Whoever knows it. -/
  | plain
  /-- The end of a task. -/
  | task (t : TaskId)
  /-- The end of all its members; cancelling it cancels them. -/
  | group (members : List CellId) (left : Nat) (cancelled : Bool)
  /-- The end of so many cells. -/
  | countdown (left : Nat)
deriving DecidableEq, Repr, Inhabited

/-- What waits for a cell. -/
inductive Waker (κ : Type) where
  | task (t : TaskId)
  /-- A group or a countdown that the cell belongs to. -/
  | member (group : CellId)
  | release (c : CellId)
  | call (action : κ)
deriving DecidableEq, Repr, Inhabited

/-- What a task or a cell comes to. -/
abbrev Outcome (ρ : Type) := Except Failure ρ

structure Cell (ρ κ : Type) where
  source : Source
  outcome : Option (Outcome ρ)
  wakers : List (Waker κ)
deriving Repr, Inhabited

structure TaskState (φ : Type) where
  cell : CellId
  /-- Where it goes on, and where each of its callers goes on after that. -/
  stack : List φ
  waits : Option CellId
  /-- A cancellation that has not reached the task yet. -/
  cancelDue : Bool
  /-- How often it has been asked to give up. -/
  cancels : Nat
deriving Repr, Inhabited

inductive Job (κ : Type) where
  /-- Goes on with a task, which may have waited for a cell. -/
  | resume (t : TaskId) (waited : Option CellId)
  | member (group : CellId)
  | release (c : CellId)
  | call (action : κ)
  | fire (timer : TimerId)
deriving DecidableEq, Repr, Inhabited

/-- What a timer does. -/
inductive Alarm where
  | release (c : CellId)
  /-- Cancels a task that has taken too long. -/
  | expire (t : TaskId)
deriving DecidableEq, Repr, Inhabited

structure Timer where
  id : TimerId
  due : Time
  alarm : Alarm
deriving DecidableEq, Repr, Inhabited

structure Loop (φ ρ κ : Type) where
  now : Time
  cells : List (Cell ρ κ)
  tasks : List (TaskState φ)
  ready : List (Job κ)
  /-- In the order in which they were set. -/
  timers : List Timer
  nextTimer : TimerId
  /-- Timers whose tasks have been cancelled and have not seen it yet. -/
  expired : List TimerId
deriving Repr

/-- How a step of a task ends. -/
inductive Flow (φ ρ : Type) where
  | done (o : Outcome ρ)
  /-- Goes on at another place at once. -/
  | goto (f : φ)
  /-- Runs `inner` first and goes on with what it comes to. -/
  | call (inner next : φ)
  | await (c : CellId) (next : φ)
  /-- Lets the other ready jobs run first. -/
  | pause (next : φ)
deriving Repr

end LanguageClient.Schedule
