import LanguageClient.World.Basic

/-!
Waiting for a cell no longer than a limit. A limit that is over already still takes what is there;
otherwise the wait fails when the limit is over, and the cell is given up.
-/

namespace LanguageClient.World

open Schedule

def setTask (t : TaskId) (f : TaskState Frame → TaskState Frame) (w : World) : World :=
  w.onLoop (·.setTask t f)

/-- How often a task has been asked to give up. -/
def cancels (t : TaskId) (w : World) : Nat :=
  match w.loop.tasks[t]? with
  | some task => task.cancels
  | none => 0

/-- Sets a timer that cancels a task. -/
def guardTask (t : TaskId) (span : Int) (w : World) : TimerId × World :=
  let (timer, l) := w.loop.setTimer span (.expire t)
  (timer, { w with loop := l })

/-- Takes a timer back; tells whether it had gone off. -/
def unguard (timer : TimerId) (w : World) : Bool × World :=
  if w.loop.expired.contains timer then
    (true, w.onLoop fun l => { l with expired := l.expired.filter (· ≠ timer) })
  else (false, w.onLoop (·.stopTimer timer))

/-- Gives a cell up; the other cell is settled after that has been seen. -/
def giveUp (c : CellId) (w : World) : CellId × World :=
  let (d, w) := w.newCell
  (d, w.onLoop fun l => ((l.watch c (.release d)).cancel c).2)

def startWait (t : TaskId) (c : CellId) (timeout : Timeout) (w : World) : Step :=
  match timeout with
  | .never => (.await c .pass, w)
  | .after span =>
    if 0 < span then
      let (timer, w) := w.guardTask t span
      (.await c (.wait (.guarded timer (w.cancels t))), w)
    else match w.loop.outcome? c with
      | some o => (.done o, w)
      | none =>
        let (d, w) := w.giveUp c
        (.await d (.wait (.released c)), w)

/-- A cancellation that only the timer has asked for is a timeout. -/
def endWait (t : TaskId) (timer : TimerId) (cancels : Nat) (o : Outcome Result) (w : World) :
    Step :=
  match w.unguard timer with
  | (false, w) => (.done o, w)
  | (true, w) =>
    let w := w.setTask t fun task => { task with cancels := task.cancels - 1 }
    match o with
    | .error .cancelled =>
      (.done (.error (if w.cancels t ≤ cancels then .timeout else .cancelled)), w)
    | o => (.done o, w)

def resumeWait (t : TaskId) (p : Wait) (o : Outcome Result) (w : World) : Step :=
  match p, o with
  | .start c timeout, .ok _ => w.startWait t c timeout
  | .guarded timer cancels, o => w.endWait t timer cancels o
  | .released c, .ok _ => match w.loop.outcome? c with
    | some (.error .cancelled) | none => (.done (.error .timeout), w)
    | some o => (.done o, w)
  | _, .error e => (.done (.error e), w)

end LanguageClient.World
