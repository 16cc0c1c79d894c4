import LanguageClient.Schedule.Loop

/-!
Cancelling a cell settles cells as cancelled, marks tasks and groups, and does nothing else. What
all of these keep is kept by cancelling.
-/

namespace LanguageClient.Schedule

variable {φ ρ κ : Type}

/-- What nobody but a task itself changes: its cell, where it goes on, and what it waits for. -/
def TaskState.place (task : TaskState φ) : CellId × List φ × Option CellId :=
  (task.cell, task.stack, task.waits)

def Source.members : Source → List CellId
  | .group members _ _ => members
  | .plain | .task _ | .countdown _ => []

/-- A source without what has come of it so far. -/
def Source.kind : Source → Source
  | .plain => .plain
  | .task t => .task t
  | .group members _ _ => .group members 0 false
  | .countdown _ => .countdown 0

/-- Whether a group has been asked to give its members up. -/
def Source.givenUp : Source → Bool
  | .group _ _ cancelled => cancelled
  | .plain | .task _ | .countdown _ => false

theorem Source.members_kind (source : Source) : source.kind.members = source.members := by
  cases source <;> rfl

namespace Loop

/-- What cancelling keeps. `reach` holds of the cells that the request can come to, and `marked` of
the tasks that it can mark. -/
structure CancelKeeps (motive : Loop φ ρ κ → Prop) (reach : CellId → Prop) (marked : TaskId → Prop) :
    Prop where
  settle : ∀ l c found, reach c → motive l → l.cells[c]? = some found →
    (∀ t, found.source ≠ .task t) → motive (l.settle c (.error .cancelled))
  mark : ∀ l t f, marked t → (∀ task : TaskState φ, (f task).place = task.place) →
    (∀ task, task.cancelDue = true → (f task).cancelDue = true) → motive l → motive (l.setTask t f)
  group : ∀ l c source before found, reach c → motive before → before.cells[c]? = some found →
    source.kind = found.source.kind → (∀ m ∈ source.members, reach m) → motive l →
    motive (l.setSource c source)
  owner : ∀ l c t wakers, motive l → reach c → l.cells[c]? = some ⟨.task t, none, wakers⟩ → marked t
  waits : ∀ l t task d, motive l → l.tasks[t]? = some task → task.waits = some d → marked t → reach d
  members : ∀ l c source wakers, motive l → reach c → l.cells[c]? = some ⟨source, none, wakers⟩ →
    ∀ m ∈ source.members, reach m

section Below

variable {motive : Loop φ ρ κ → Prop} {reach : CellId → Prop} {marked : TaskId → Prop} {depth : Nat}
variable (below : ∀ {c l}, reach c → motive l → motive (Loop.cancelWithin depth c l).2)

include below

/-- A task hands a cancellation on to the cell that it waits for. -/
theorem CancelKeeps.passes (keeps : CancelKeeps motive reach marked) {t : TaskId} {l : Loop φ ρ κ}
    (owner : marked t) (h : motive l) :
    motive (match (l.tasks[t]?).bind fun task => task.waits with
      | some d => Loop.cancelWithin depth d l
      | none => (false, l)).2 := by
  split
  · next d waits =>
    obtain ⟨task, same, waits⟩ := Option.bind_eq_some_iff.1 waits
    exact below (keeps.waits l t task d h same waits owner) h
  · exact h

/-- A group hands a cancellation on to each of its members. -/
theorem CancelKeeps.each (members : List CellId) (any : Bool) {l : Loop φ ρ κ}
    (inside : ∀ m ∈ members, reach m) (h : motive l) :
    motive (members.foldl (fun (any, l) m =>
      let (one, l) := Loop.cancelWithin depth m l
      (any || one, l)) (any, l)).2 := by
  induction members generalizing any l with
  | nil => exact h
  | cons m ms more =>
    obtain ⟨first, others⟩ := List.forall_mem_cons.1 inside
    exact more _ others (below first h)

end Below

theorem CancelKeeps.cancelWithin {motive : Loop φ ρ κ → Prop} {reach : CellId → Prop}
    {marked : TaskId → Prop} (keeps : CancelKeeps motive reach marked) (depth : Nat) {c : CellId}
    {l : Loop φ ρ κ} (hc : reach c) (h : motive l) : motive (cancelWithin depth c l).2 := by
  induction depth generalizing c l with
  | zero => exact h
  | succ depth ih =>
    rw [Loop.cancelWithin]
    split
    · next source wakers found =>
      cases source with
      | plain => exact keeps.settle l c _ hc h found (by simp)
      | countdown left => exact keeps.settle l c _ hc h found (by simp)
      | task t =>
        have owner := keeps.owner l c t wakers h hc found
        have counted : motive (l.setTask t fun task => { task with cancels := task.cancels + 1 }) :=
          keeps.mark l t _ owner (fun _ => rfl) (fun _ due => due) h
        dsimp only
        generalize (l.setTask t fun task => { task with cancels := task.cancels + 1 }) = l' at counted
        have passed := keeps.passes ih owner counted
        have ended (reached : Bool × Loop φ ρ κ) (h : motive reached.2) : motive (if reached.1
            then reached.2
            else reached.2.setTask t fun task => { task with cancelDue := true }) := by
          split
          · exact h
          · exact keeps.mark _ t _ owner (fun _ => rfl) (fun _ _ => rfl) h
        exact ended _ passed
      | group members left cancelled =>
        have inside := keeps.members l c _ wakers h hc found
        exact keeps.group _ c _ l _ hc h found rfl inside (CancelKeeps.each ih members false inside h)
    · exact h

theorem CancelKeeps.cancel {motive : Loop φ ρ κ → Prop} {reach : CellId → Prop}
    {marked : TaskId → Prop} (keeps : CancelKeeps motive reach marked) {c : CellId}
    {l : Loop φ ρ κ} (hc : reach c) (h : motive l) : motive (l.cancel c).2 :=
  keeps.cancelWithin _ hc h

/-- What is kept wherever the request comes to. -/
theorem cancel_keeps {motive : Loop φ ρ κ → Prop}
    (settle : ∀ l c, motive l → motive (l.settle c (.error .cancelled)))
    (mark : ∀ l t f, (∀ task : TaskState φ, (f task).place = task.place) →
      (∀ task, task.cancelDue = true → (f task).cancelDue = true) → motive l →
      motive (l.setTask t f))
    (source : ∀ l c source, motive l → motive (l.setSource c source))
    (c : CellId) {l : Loop φ ρ κ} (h : motive l) : motive (l.cancel c).2 := by
  have keeps : CancelKeeps motive (fun _ => True) (fun _ => True) := {
    settle := fun l c _ _ before _ _ => settle l c before
    mark := fun l t f _ => mark l t f
    group := fun l c s _ _ _ _ _ _ _ => source l c s
    owner := fun _ _ _ _ _ _ _ => trivial
    waits := fun _ _ _ _ _ _ _ _ => trivial
    members := fun _ _ _ _ _ _ _ _ _ => trivial }
  exact keeps.cancel trivial h

/-- Nothing comes of giving up a task that is not there. -/
theorem cancelTask_of_le {t : TaskId} {l : Loop φ ρ κ} (h : l.tasks.length ≤ t) : l.cancelTask t = l := by
  have cell : l.taskCell t = l.cells.length := by
    rw [taskCell, List.getElem?_eq_none h]
  rw [cancelTask, cell, cancel, cancelWithin, List.getElem?_eq_none (Nat.le_refl _)]

end Loop
end LanguageClient.Schedule
