import LanguageClient.Workspace.Run
import LanguageClient.World.Wait

/-!
Running the world: the task that runs goes on step by step until it waits or ends, then the next
ready job is carried out, and when nothing is ready time moves on to the next timer.
-/

namespace LanguageClient.World

open Schedule

/-- One step of a task at a place, with the outcome of what it waited for or called. -/
def resume (t : TaskId) (f : Frame) (o : Outcome Result) (w : World) : Step :=
  match f with
  | .wait p => w.resumeWait t p o
  | .pass => (.done o, w)
  | .connection c p => w.resumeConnection c p o
  | .session s p => w.resumeSession s p o
  | .relay r p => w.resumeRelay r p o
  | .roster p => w.resumeRoster p o
  | .workspace p => w.resumeWorkspace p o

def stack (t : TaskId) (w : World) : List Frame :=
  match w.loop.tasks[t]? with
  | some task => task.stack
  | none => []

def setStack (t : TaskId) (stack : List Frame) (w : World) : World :=
  w.setTask t fun task => { task with stack := stack }

/-- Has a task wait for a cell. A cancellation that is due reaches the cell. -/
def suspend (t : TaskId) (c : CellId) (w : World) : World :=
  let w := w.onLoop (·.watch c (.task t))
  let w := w.setTask t fun task => { task with waits := some c }
  match w.loop.tasks[t]? with
  | some task =>
    if task.cancelDue then
      let (reached, l) := w.loop.cancel c
      let w := { w with loop := l }
      if reached then w.setTask t fun task => { task with cancelDue := false } else w
    else w
  | none => w

/-- A task runs on, with an outcome. -/
def goOn (t : TaskId) (o : Outcome Result) (w : World) : World := { w with current := some (t, o) }

/-- The running task goes on by one step: it ends, comes to another place, or waits. -/
def stepTask (t : TaskId) (o : Outcome Result) (w : World) : World :=
  let w := { w with current := none }
  match w.stack t with
  | [] => w.onLoop fun l => l.settle (l.taskCell t) o
  | f :: rest => match w.resume t f o with
    | (.done o, w) => (w.setStack t rest).goOn t o
    | (.goto f, w) => (w.setStack t (f :: rest)).goOn t (.ok .nothing)
    | (.call inner next, w) => (w.setStack t (inner :: next :: rest)).goOn t (.ok .nothing)
    | (.pause f, w) => (w.setStack t (f :: rest)).onLoop (·.push (.resume t none))
    | (.await c f, w) =>
      let w := w.setStack t (f :: rest)
      match w.loop.outcome? c with
      | some o => w.goOn t o
      | none => w.suspend t c

/-- What a task goes on with: its cancellation, if one is due, or what it has waited for. -/
def wakeOutcome (task : TaskState Frame) (waited : Option CellId) (w : World) : Outcome Result :=
  if task.cancelDue then .error .cancelled
  else match waited with
    | some c => (w.loop.outcome? c).getD (.ok .nothing)
    | none => .ok .nothing

def wake (t : TaskId) (waited : Option CellId) (w : World) : World :=
  match w.loop.tasks[t]? with
  | some task =>
    if w.loop.taskDone t then w
    else (w.setTask t fun task => { task with waits := none, cancelDue := false }).goOn t
      (w.wakeOutcome task waited)
  | none => w

def heed (n : Notice) (w : World) : World :=
  match n with
  | .answerDone c t => w.setConnection c fun x => { x with answers := x.answers.filter (· ≠ t) }
  | .reportDone t => w.setWorkspace fun ws => { ws with reports := ws.reports.filter (· ≠ t) }

def runJob (job : Job Notice) (w : World) : World :=
  match job with
  | .resume t waited => w.wake t waited
  | .member group => w.onLoop (·.countDown group .nothing)
  | .release c => w.release c
  | .call n => w.heed n
  | .fire timer => w.onLoop (·.fire timer .nothing)

/-- The running task goes on by a step; if none runs, the first ready job is carried out. -/
def step (w : World) : World :=
  match w.current with
  | some (t, o) => w.stepTask t o
  | none => match w.loop.ready with
    | [] => w
    | job :: rest => (w.onLoop fun l => { l with ready := rest }).runJob job

/-- No task runs and nothing is ready. -/
def isIdle (w : World) : Bool := w.current.isNone && w.loop.ready.isEmpty

/-- So many steps at most, until nothing is left to do. -/
def settle (fuel : Nat) (w : World) : World :=
  match fuel with
  | 0 => w
  | fuel + 1 => if w.isIdle then w else settle fuel w.step

/-- The time of the first timer has come. -/
def tick (w : World) : World :=
  match w.loop.nextDue? with
  | some timer => w.onLoop fun l =>
    { l with now := max l.now timer.due }.push (.fire timer.id)
  | none => w

def isDueBy (target : Time) (w : World) : Bool :=
  w.loop.nextDue?.any fun timer => timer.due ≤ target

/-- It is so late; no timer has gone off meanwhile. -/
def waitUntil (target : Time) (w : World) : World :=
  w.onLoop fun l => { l with now := max l.now target }

/-- Timers go off in order up to an instant, which then is now. -/
def advanceTo (target : Time) : (fuel : Nat) → World → World
  | 0, w => w
  | fuel + 1, w =>
    if w.isDueBy target then advanceTo target fuel (w.tick.settle (fuel + 1))
    else w.waitUntil target

/-- More steps than the work of any single act takes. -/
def stepLimit : Nat := 100000000

def settled (w : World) : World := w.settle stepLimit

def advance (span : Time) (w : World) : World := advanceTo (w.loop.now + span) stepLimit w

theorem step_idle {w : World} (h : w.isIdle = true) : w.step = w := by
  simp only [isIdle, Bool.and_eq_true, Option.isNone_iff_eq_none, List.isEmpty_iff] at h
  simp [step, h.1, h.2]

theorem settle_idle {w : World} (h : w.isIdle = true) (fuel : Nat) : w.settle fuel = w := by
  cases fuel <;> simp [settle, h]

end LanguageClient.World
