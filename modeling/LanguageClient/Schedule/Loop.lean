import LanguageClient.Schedule.Basic

/-!
Operations on a loop that run no task: cells are made, watched, settled and cancelled, tasks are
started, timers are set and taken back.
-/

namespace LanguageClient.Schedule

variable {φ ρ κ : Type}

/-- The job that a settled cell makes of what waited for it. -/
def Waker.job (c : CellId) : Waker κ → Job κ
  | .task t => .resume t (some c)
  | .member group => .member group
  | .release d => .release d
  | .call action => .call action

namespace Loop

def start : Loop φ ρ κ := ⟨0, [], [], [], [], 0, []⟩

def outcome? (c : CellId) (l : Loop φ ρ κ) : Option (Outcome ρ) :=
  (l.cells[c]?).bind fun cell => cell.outcome

def isSettled (c : CellId) (l : Loop φ ρ κ) : Bool := (l.outcome? c).isSome

def push (job : Job κ) (l : Loop φ ρ κ) : Loop φ ρ κ := { l with ready := l.ready ++ [job] }

/-- A new cell, not settled. -/
def newCell (source : Source) (l : Loop φ ρ κ) : CellId × Loop φ ρ κ :=
  (l.cells.length, { l with cells := l.cells ++ [⟨source, none, []⟩] })

/-- Settles a cell, unless it is settled already. -/
def settle (c : CellId) (o : Outcome ρ) (l : Loop φ ρ κ) : Loop φ ρ κ :=
  match l.cells[c]? with
  | some ⟨source, none, wakers⟩ =>
    { l with
      cells := l.cells.set c ⟨source, some o, []⟩
      ready := l.ready ++ wakers.map (Waker.job c) }
  | _ => l

/-- Has a waker wait for a cell. If the cell is settled its job is ready at once. -/
def watch (c : CellId) (waker : Waker κ) (l : Loop φ ρ κ) : Loop φ ρ κ :=
  match l.cells[c]? with
  | some ⟨source, none, wakers⟩ =>
    { l with cells := l.cells.set c ⟨source, none, wakers ++ [waker]⟩ }
  | _ => l.push (waker.job c)

def setTask (t : TaskId) (f : TaskState φ → TaskState φ) (l : Loop φ ρ κ) : Loop φ ρ κ :=
  { l with tasks := l.tasks.modify t f }

def setSource (c : CellId) (source : Source) (l : Loop φ ρ κ) : Loop φ ρ κ :=
  { l with cells := l.cells.modify c fun cell => { cell with source := source } }

/-- A new task that starts at `f` once its turn comes. -/
def spawn (f : φ) (l : Loop φ ρ κ) : TaskId × Loop φ ρ κ :=
  let t := l.tasks.length
  let (c, l) := l.newCell (.task t)
  let task : TaskState φ := ⟨c, [f], none, false, 0⟩
  (t, { l with tasks := l.tasks ++ [task] }.push (.resume t none))

/-- The cell that the end of a task settles. -/
def taskCell (t : TaskId) (l : Loop φ ρ κ) : CellId :=
  match l.tasks[t]? with
  | some task => task.cell
  | none => l.cells.length

def taskDone (t : TaskId) (l : Loop φ ρ κ) : Bool := l.isSettled (l.taskCell t)

/-- Asks for a cell to be cancelled and tells whether it could still be. A task passes the request
on to what it waits for, a group to its members; if that fails a task hears of it when it goes
on. -/
def cancelWithin : (depth : Nat) → CellId → Loop φ ρ κ → Bool × Loop φ ρ κ
  | 0, _, l => (false, l)
  | depth + 1, c, l => match l.cells[c]? with
    | some ⟨source, none, _⟩ => match source with
      | .plain | .countdown _ => (true, l.settle c (.error .cancelled))
      | .task t =>
        let l := l.setTask t fun task => { task with cancels := task.cancels + 1 }
        let (passed, l) := match (l.tasks[t]?).bind fun task => task.waits with
          | some d => cancelWithin depth d l
          | none => (false, l)
        (true, if passed then l else l.setTask t fun task => { task with cancelDue := true })
      | .group members left cancelled =>
        let (any, l) := members.foldl (fun (any, l) m =>
          let (one, l) := cancelWithin depth m l
          (any || one, l)) (false, l)
        let left := match l.cells[c]? with
          | some ⟨.group _ left _, _, _⟩ => left
          | _ => left
        (any, l.setSource c (.group members left (cancelled || any)))
    | _ => (false, l)

/-- Cells wait for each other no deeper than there are cells. -/
def cancel (c : CellId) (l : Loop φ ρ κ) : Bool × Loop φ ρ κ :=
  cancelWithin (l.cells.length + 1) c l

def cancelTask (t : TaskId) (l : Loop φ ρ κ) : Loop φ ρ κ := (l.cancel (l.taskCell t)).2

/-- One member of a group or a countdown has come to its end. -/
def countDown (c : CellId) (ok : ρ) (l : Loop φ ρ κ) : Loop φ ρ κ :=
  match l.cells[c]? with
  | some ⟨.group members left cancelled, none, _⟩ =>
    let l := l.setSource c (.group members (left - 1) cancelled)
    if 1 < left then l
    else l.settle c (if cancelled then .error .cancelled else .ok ok)
  | some ⟨.countdown left, none, _⟩ =>
    let l := l.setSource c (.countdown (left - 1))
    if 1 < left then l else l.settle c (.ok ok)
  | _ => l

/-- A cell that is settled when all of some cells are. -/
def gather (members : List CellId) (ok : ρ) (l : Loop φ ρ κ) : CellId × Loop φ ρ κ :=
  let (c, l) := l.newCell (.group members members.length false)
  let settled := members.filter (l.isSettled ·)
  let l := (members.filter (!l.isSettled ·)).foldl (fun l m => l.watch m (.member c)) l
  (c, settled.foldl (fun l _ => l.countDown c ok) l)

/-- A cell that is settled when all of some cells are, or by a timer; cancelling it leaves them. -/
def countdown (members : List CellId) (l : Loop φ ρ κ) : CellId × Loop φ ρ κ :=
  let (c, l) := l.newCell (.countdown members.length)
  (c, members.foldl (fun l m => l.watch m (.member c)) l)

/-- Sets a timer. One that is due already goes off with the ready jobs. -/
def setTimer (span : Int) (alarm : Alarm) (l : Loop φ ρ κ) : TimerId × Loop φ ρ κ :=
  let timer : Timer := ⟨l.nextTimer, l.now + span.toNat, alarm⟩
  let l := { l with timers := l.timers ++ [timer], nextTimer := l.nextTimer + 1 }
  (timer.id, if span ≤ 0 then l.push (.fire timer.id) else l)

def stopTimer (id : TimerId) (l : Loop φ ρ κ) : Loop φ ρ κ :=
  { l with timers := l.timers.filter fun timer => timer.id ≠ id }

/-- A timer goes off, unless it has been taken back. -/
def fire (id : TimerId) (ok : ρ) (l : Loop φ ρ κ) : Loop φ ρ κ :=
  match l.timers.find? fun timer => timer.id = id with
  | none => l
  | some timer =>
    let l := l.stopTimer id
    match timer.alarm with
    | .release c => l.settle c (.ok ok)
    | .expire t => { l.cancelTask t with expired := l.expired ++ [id] }

/-- The timer to go off next: the first that is due, the one set first if two are. -/
def nextDue? (l : Loop φ ρ κ) : Option Timer :=
  l.timers.foldl (fun best timer => match best with
    | some b => if timer.due < b.due then some timer else best
    | none => some timer) none

theorem isSettled_newCell (source : Source) (l : Loop φ ρ κ) :
    (l.newCell source).2.isSettled (l.newCell source).1 = false := by
  simp [newCell, isSettled, outcome?]

theorem outcome?_settle_of_isSettled {c : CellId} {o : Outcome ρ} {l : Loop φ ρ κ}
    (h : l.isSettled c = true) : l.settle c o = l := by
  unfold isSettled outcome? at h
  unfold settle
  split
  · rename_i heq
    simp [heq] at h
  · rfl

theorem nextDue?_nil {l : Loop φ ρ κ} (h : l.timers = []) : l.nextDue? = none := by
  simp [nextDue?, h]

end Loop
end LanguageClient.Schedule
