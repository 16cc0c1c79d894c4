import LanguageClient.Proofs.Schedule.Cancel

/-!
What the operations of a loop have in common: none takes back what has been settled, none changes
where a task goes on, and jobs only join the end of the queue.
-/

namespace LanguageClient.Schedule

variable {φ ρ κ : Type}

def Waker.isTask : Waker κ → Bool
  | .task _ => true
  | .member _ | .release _ | .call _ => false

def Job.isResume : Job κ → Bool
  | .resume _ _ => true
  | .member _ | .release _ | .call _ | .fire _ => false

theorem Waker.isResume_job (waker : Waker κ) (c : CellId) :
    (waker.job c).isResume = waker.isTask := by
  cases waker <;> rfl

namespace Loop

/-- The tasks that timers will cancel, with the timers. -/
def alarms (timers : List Timer) : List (TimerId × TaskId) :=
  timers.filterMap fun timer => match timer.alarm with
    | .release _ => none
    | .expire t => some (timer.id, t)

theorem mem_alarms {timers : List Timer} {id : TimerId} {t : TaskId} :
    (id, t) ∈ alarms timers ↔ ∃ timer ∈ timers, timer.id = id ∧ timer.alarm = .expire t := by
  simp only [alarms, List.mem_filterMap]
  refine exists_congr fun timer => and_congr_right fun _ => ?_
  cases timer.alarm <;> simp

/-- Every timer has a number of its own, and has been given it. -/
def Numbered (timers : List Timer) (next : TimerId) : Prop :=
  (timers.map (·.id)).Nodup ∧ ∀ timer ∈ timers, timer.id < next

/-- An operation on a loop that starts no task. It settles cells with outcomes that `may` be, and
cancels or groups cells in `reach`. Unless it `guards` tasks it leaves the timers alone that cancel
them. -/
inductive Op (may : Outcome ρ → Prop) (reach : CellId → Prop) (guards : Prop) :
    Loop φ ρ κ → Loop φ ρ κ → Prop
  | newCell (l : Loop φ ρ κ) (source : Source) (h : ∀ m ∈ source.members, reach m)
    (h' : source.givenUp = false) : Op may reach guards l (l.newCell source).2
  | settle (l : Loop φ ρ κ) (c : CellId) (o : Outcome ρ) (h : may o)
    (h' : o ≠ .error .cancelled) : Op may reach guards l (l.settle c o)
  | watch (l : Loop φ ρ κ) (c : CellId) (waker : Waker κ) (h : waker.isTask = false) :
    Op may reach guards l (l.watch c waker)
  | push (l : Loop φ ρ κ) (job : Job κ) (h : job.isResume = false) :
    Op may reach guards l (l.push job)
  | mark (l : Loop φ ρ κ) (t : TaskId) (f : TaskState φ → TaskState φ)
    (h : ∀ task, (f task).place = task.place) (h' : ∀ task, (f task).cancelDue = task.cancelDue)
    (guarding : guards) : Op may reach guards l (l.setTask t f)
  | countDown (l : Loop φ ρ κ) (c : CellId) (ok : ρ) (h : may (.ok ok))
    (h' : may (.error .cancelled)) : Op may reach guards l (l.countDown c ok)
  | cancel (l : Loop φ ρ κ) (c : CellId) (h : reach c) (h' : may (.error .cancelled)) :
    Op may reach guards l (l.cancel c).2
  | clock (l : Loop φ ρ κ) (now : Time) (timers : List Timer) (next : TimerId)
    (expired : List TimerId) (later : l.nextTimer ≤ next)
    (numbered : Numbered l.timers l.nextTimer → Numbered timers next)
    (still : guards ∨ (alarms timers = alarms l.timers ∧ expired = l.expired)) :
    Op may reach guards l
      { l with now := now, timers := timers, nextTimer := next, expired := expired }

/-- Operations one after the other, and the tasks that they start. -/
inductive Ops (may : Outcome ρ → Prop) (reach : CellId → Prop) (guards : Prop) :
    List φ → Loop φ ρ κ → Loop φ ρ κ → Prop
  | refl (l : Loop φ ρ κ) : Ops may reach guards [] l l
  | tail {begun : List φ} {l l' l'' : Loop φ ρ κ} (h : Ops may reach guards begun l l')
    (h' : Op may reach guards l' l'') : Ops may reach guards begun l l''
  | spawn {begun : List φ} {l l' : Loop φ ρ κ} (h : Ops may reach guards begun l l') (f : φ) :
    Ops may reach guards (begun ++ [f]) l (l'.spawn f).2

namespace Ops

variable {may : Outcome ρ → Prop} {reach : CellId → Prop} {guards : Prop} {l l' l'' : Loop φ ρ κ}

theorem single (h : Op may reach guards l l') : Ops may reach guards [] l l' := (refl l).tail h

theorem trans {begun more : List φ} (h : Ops may reach guards begun l l')
    (h' : Ops may reach guards more l' l'') : Ops may reach guards (begun ++ more) l l'' := by
  induction h' with
  | refl =>
    rw [List.append_nil]
    exact h
  | tail _ step ih => exact (ih h).tail step
  | spawn _ f ih =>
    rw [← List.append_assoc]
    exact (ih h).spawn f

end Ops

/-- A cancellation has not reached a task yet. -/
def due (t : TaskId) (l : Loop φ ρ κ) : Bool := (l.tasks[t]?).any fun task => task.cancelDue

theorem due_of_tasks {l l' : Loop φ ρ κ} (h : l'.tasks = l.tasks) (t : TaskId) :
    l'.due t = l.due t := by
  rw [due, due, h]

theorem due_eq_true {t : TaskId} {l : Loop φ ρ κ} :
    l.due t = true ↔ ∃ task, l.tasks[t]? = some task ∧ task.cancelDue = true :=
  Option.any_eq_true _ _

theorem due_setTask {u : TaskId} {f : TaskState φ → TaskState φ} {l : Loop φ ρ κ}
    (h : ∀ task, task.cancelDue = true → (f task).cancelDue = true) {t : TaskId}
    (before : l.due t = true) : (l.setTask u f).due t = true := by
  simp only [due, setTask, List.getElem?_modify] at before ⊢
  cases found : l.tasks[t]? with
  | none =>
    rw [found] at before
    cases before
  | some task =>
    rw [found] at before
    by_cases same : u = t
    · simpa [same] using h task before
    · simpa [same] using before

/-- All that tasks alone change, task by task. -/
def places (l : Loop φ ρ κ) : List (CellId × List φ × Option CellId) := l.tasks.map TaskState.place

theorem places_of_tasks {l l' : Loop φ ρ κ} (h : l'.tasks = l.tasks) : l'.places = l.places :=
  congrArg (List.map TaskState.place) h

def piles (l : Loop φ ρ κ) : List (List φ) := l.tasks.map (·.stack)

theorem piles_eq (l : Loop φ ρ κ) : l.piles = l.places.map (·.2.1) := by
  simp [piles, places, TaskState.place]

theorem places_setTask {t : TaskId} {f : TaskState φ → TaskState φ}
    (h : ∀ task, (f task).place = task.place) (l : Loop φ ρ κ) :
    (l.setTask t f).places = l.places := by
  refine List.ext_getElem? fun i => ?_
  simp only [places, setTask, List.getElem?_map, List.getElem?_modify]
  by_cases hi : t = i
  · cases l.tasks[i]? <;> simp [hi, h]
  · cases l.tasks[i]? <;> simp [hi]

@[simp] theorem tasks_newCell (source : Source) (l : Loop φ ρ κ) :
    (l.newCell source).2.tasks = l.tasks := rfl

@[simp] theorem ready_newCell (source : Source) (l : Loop φ ρ κ) :
    (l.newCell source).2.ready = l.ready := rfl

@[simp] theorem tasks_push (job : Job κ) (l : Loop φ ρ κ) : (l.push job).tasks = l.tasks := rfl

@[simp] theorem cells_push (job : Job κ) (l : Loop φ ρ κ) : (l.push job).cells = l.cells := rfl

@[simp] theorem ready_push (job : Job κ) (l : Loop φ ρ κ) :
    (l.push job).ready = l.ready ++ [job] := rfl

@[simp] theorem cells_setTask (t : TaskId) (f : TaskState φ → TaskState φ) (l : Loop φ ρ κ) :
    (l.setTask t f).cells = l.cells := rfl

@[simp] theorem ready_setTask (t : TaskId) (f : TaskState φ → TaskState φ) (l : Loop φ ρ κ) :
    (l.setTask t f).ready = l.ready := rfl

@[simp] theorem tasks_setSource (c : CellId) (source : Source) (l : Loop φ ρ κ) :
    (l.setSource c source).tasks = l.tasks := rfl

@[simp] theorem ready_setSource (c : CellId) (source : Source) (l : Loop φ ρ κ) :
    (l.setSource c source).ready = l.ready := rfl

@[simp] theorem tasks_settle (c : CellId) (o : Outcome ρ) (l : Loop φ ρ κ) :
    (l.settle c o).tasks = l.tasks := by
  unfold settle
  split <;> rfl

@[simp] theorem tasks_watch (c : CellId) (waker : Waker κ) (l : Loop φ ρ κ) :
    (l.watch c waker).tasks = l.tasks := by
  unfold watch
  split <;> rfl

@[simp] theorem tasks_countDown (c : CellId) (ok : ρ) (l : Loop φ ρ κ) :
    (l.countDown c ok).tasks = l.tasks := by
  unfold countDown
  dsimp only
  repeat' split
  all_goals simp

theorem ready_settle (c : CellId) (o : Outcome ρ) (l : Loop φ ρ κ) :
    l.ready <+: (l.settle c o).ready := by
  unfold settle
  split
  · exact List.prefix_append _ _
  · exact List.prefix_rfl

theorem ready_watch (c : CellId) (waker : Waker κ) (l : Loop φ ρ κ) :
    l.ready <+: (l.watch c waker).ready := by
  unfold watch
  split
  · exact List.prefix_rfl
  · exact List.prefix_append _ _

theorem ready_countDown (c : CellId) (ok : ρ) (l : Loop φ ρ κ) :
    l.ready <+: (l.countDown c ok).ready := by
  unfold countDown
  dsimp only
  repeat' split
  all_goals first | exact List.prefix_rfl | exact ready_settle _ _ (l.setSource _ _)

theorem length_cells_settle (c : CellId) (o : Outcome ρ) (l : Loop φ ρ κ) :
    (l.settle c o).cells.length = l.cells.length := by
  unfold settle
  split
  · exact List.length_set
  · rfl

theorem length_cells_watch (c : CellId) (waker : Waker κ) (l : Loop φ ρ κ) :
    (l.watch c waker).cells.length = l.cells.length := by
  unfold watch
  split
  · exact List.length_set
  · rfl

theorem length_cells_setSource (c : CellId) (source : Source) (l : Loop φ ρ κ) :
    (l.setSource c source).cells.length = l.cells.length := List.length_modify _ _ _

theorem length_cells_countDown (c : CellId) (ok : ρ) (l : Loop φ ρ κ) :
    (l.countDown c ok).cells.length = l.cells.length := by
  unfold countDown
  dsimp only
  repeat' split
  all_goals simp only [length_cells_settle, length_cells_setSource]

theorem outcome?_settle_self {c : CellId} {o : Outcome ρ} {l : Loop φ ρ κ} (hc : c < l.cells.length)
    (h : l.outcome? c = none) : (l.settle c o).outcome? c = some o := by
  have found := List.getElem?_eq_getElem hc
  unfold outcome? at h
  rw [found, Option.bind_some] at h
  unfold settle
  rw [found]
  split
  · simp [outcome?, hc]
  · next other =>
    refine absurd ?_ (other l.cells[c].source l.cells[c].wakers)
    cases cell : l.cells[c]
    rw [cell] at h
    simp only at h
    rw [h]

theorem outcome?_settle_ne {c d : CellId} (h : d ≠ c) (o : Outcome ρ) (l : Loop φ ρ κ) :
    (l.settle c o).outcome? d = l.outcome? d := by
  unfold settle
  split
  · simp [outcome?, List.getElem?_set_ne (Ne.symm h)]
  · rfl

/-- A cell is as it was, or it has not been settled before and is now. -/
theorem outcome?_settle (c d : CellId) (o : Outcome ρ) (l : Loop φ ρ κ) :
    (l.settle c o).outcome? d = l.outcome? d ∨
      (d = c ∧ l.outcome? d = none ∧ (l.settle c o).outcome? d = some o) := by
  by_cases same : d = c
  · subst same
    cases h : l.outcome? d with
    | some o' =>
      have settled : l.isSettled d = true := by rw [isSettled, h]; rfl
      left
      rw [outcome?_settle_of_isSettled settled, h]
    | none =>
      by_cases hd : d < l.cells.length
      · exact .inr ⟨rfl, rfl, outcome?_settle_self hd h⟩
      · left
        have bound : ¬ d < (l.settle d o).cells.length := by rwa [length_cells_settle]
        simp [outcome?, List.getElem?_eq_none (Nat.le_of_not_lt bound)]
  · exact .inl (outcome?_settle_ne same o l)

theorem outcome?_watch (c d : CellId) (waker : Waker κ) (l : Loop φ ρ κ) :
    (l.watch c waker).outcome? d = l.outcome? d := by
  unfold watch
  split
  · next found =>
    have hc : c < l.cells.length := (List.getElem?_eq_some_iff.1 found).1
    by_cases same : c = d
    · subst same
      rw [outcome?, outcome?, found, List.getElem?_set_self hc]
      rfl
    · simp [outcome?, List.getElem?_set_ne same]
  · rfl

theorem outcome?_setSource (c d : CellId) (source : Source) (l : Loop φ ρ κ) :
    (l.setSource c source).outcome? d = l.outcome? d := by
  simp only [outcome?, setSource, List.getElem?_modify]
  cases l.cells[d]? with
  | none => rfl
  | some cell => by_cases h : c = d <;> simp [h]

theorem outcome?_newCell (source : Source) (d : CellId) (l : Loop φ ρ κ) :
    (l.newCell source).2.outcome? d = l.outcome? d := by
  simp only [outcome?, newCell]
  by_cases hd : d < l.cells.length
  · rw [List.getElem?_append_left hd]
  · rw [List.getElem?_append_right (Nat.le_of_not_lt hd), List.getElem?_eq_none (Nat.le_of_not_lt hd)]
    cases h : d - l.cells.length with
    | zero => simp
    | succ n => simp

/-- What an outcome was it stays, and what becomes one is one that may be. -/
def Settles (may : Outcome ρ → Prop) (l l' : Loop φ ρ κ) : Prop :=
  ∀ c, l'.outcome? c = l.outcome? c ∨ (l.outcome? c = none ∧ ∃ o, l'.outcome? c = some o ∧ may o)

namespace Settles

variable {may : Outcome ρ → Prop} {l l' l'' : Loop φ ρ κ}

theorem refl (l : Loop φ ρ κ) : Settles may l l := fun _ => .inl rfl

theorem trans (h : Settles may l l') (h' : Settles may l' l'') : Settles may l l'' := by
  intro c
  rcases h' c with same' | ⟨before', o', after', allowed'⟩
  · rcases h c with same | ⟨before, o, after, allowed⟩
    · exact .inl (same'.trans same)
    · exact .inr ⟨before, o, same'.trans after, allowed⟩
  · rcases h c with same | ⟨before, o, after, allowed⟩
    · exact .inr ⟨same ▸ before', o', after', allowed'⟩
    · rw [before'] at after
      cases after

theorem outcome (h : Settles may l l') {c : CellId} {o : Outcome ρ} (ho : l.outcome? c = some o) :
    l'.outcome? c = some o := by
  rcases h c with same | ⟨before, -⟩
  · exact same.trans ho
  · rw [ho] at before
    cases before

theorem of_eq (h : ∀ c, l'.outcome? c = l.outcome? c) : Settles may l l' := fun c => .inl (h c)

theorem settle {o : Outcome ρ} (h : may o) (c : CellId) (l : Loop φ ρ κ) :
    Settles may l (l.settle c o) := by
  intro d
  rcases outcome?_settle c d o l with same | ⟨rfl, before, after⟩
  · exact .inl same
  · exact .inr ⟨before, o, after, h⟩

theorem countDown {ok : ρ} (h : may (.ok ok)) (h' : may (.error .cancelled)) (c : CellId)
    (l : Loop φ ρ κ) : Settles may l (l.countDown c ok) := by
  have marked (source : Source) : Settles may l (l.setSource c source) :=
    of_eq fun d => outcome?_setSource c d source l
  unfold Loop.countDown
  dsimp only
  split
  · split
    · exact marked _
    · split
      · exact (marked _).trans (settle h' c _)
      · exact (marked _).trans (settle h c _)
  · split
    · exact marked _
    · exact (marked _).trans (settle h c _)
  · exact refl l

theorem cancel (h : may (.error .cancelled)) (c : CellId) (l : Loop φ ρ κ) :
    Settles may l (l.cancel c).2 := by
  refine cancel_keeps ?_ ?_ ?_ c (refl l)
  · exact fun l' c before => before.trans (settle h c l')
  · exact fun l' t f _ _ before => before.trans (of_eq fun _ => rfl)
  · exact fun l' c source before => before.trans (of_eq fun d => outcome?_setSource c d source l')

end Settles

namespace Op

variable {may : Outcome ρ → Prop} {reach : CellId → Prop} {guards : Prop} {l l' : Loop φ ρ κ}

theorem settles (h : Op may reach guards l l') : Settles may l l' := by
  cases h with
  | newCell source => exact .of_eq fun d => outcome?_newCell source d l
  | settle c o h _ => exact .settle h c l
  | watch c waker => exact .of_eq fun d => outcome?_watch c d waker l
  | push => exact .of_eq fun _ => rfl
  | mark => exact .of_eq fun _ => rfl
  | countDown c ok h h' => exact .countDown h h' c l
  | cancel c _ h => exact .cancel h c l
  | clock => exact .of_eq fun _ => rfl

theorem places (h : Op may reach guards l l') : l'.places = l.places := by
  cases h with
  | newCell => rfl
  | settle => exact places_of_tasks (tasks_settle _ _ l)
  | watch => exact places_of_tasks (tasks_watch _ _ l)
  | push => rfl
  | mark t f h _ _ => exact places_setTask h l
  | countDown => exact places_of_tasks (tasks_countDown _ _ l)
  | cancel c =>
    refine cancel_keeps (motive := fun l' => l'.places = l.places) ?_ ?_ ?_ c rfl
    · exact fun l' c before => (places_of_tasks (tasks_settle c _ l')).trans before
    · exact fun l' t f same _ before => (places_setTask same l').trans before
    · exact fun l' c source before => before
  | clock => rfl

/-- A cancellation that is due is so until the task goes on. -/
theorem due (h : Op may reach guards l l') {t : TaskId} (before : l.due t = true) :
    l'.due t = true := by
  cases h with
  | newCell => exact before
  | settle => exact (due_of_tasks (tasks_settle _ _ l) t).trans before
  | watch => exact (due_of_tasks (tasks_watch _ _ l) t).trans before
  | push => exact before
  | mark u f _ h _ => exact due_setTask (fun task due => (h task).trans due) before
  | countDown => exact (due_of_tasks (tasks_countDown _ _ l) t).trans before
  | cancel c =>
    refine cancel_keeps (motive := fun l' => l'.due t = true) ?_ ?_ ?_ c before
    · exact fun l' c before => (due_of_tasks (tasks_settle c _ l') t).trans before
    · exact fun l' u f _ same before => due_setTask same before
    · exact fun l' c source before => before
  | clock => exact before

theorem ready (h : Op may reach guards l l') : l.ready <+: l'.ready := by
  cases h with
  | newCell => exact List.prefix_rfl
  | settle => exact ready_settle _ _ l
  | watch => exact ready_watch _ _ l
  | push => exact List.prefix_append _ _
  | mark => exact List.prefix_rfl
  | countDown => exact ready_countDown _ _ l
  | cancel c =>
    refine cancel_keeps (motive := fun l' => l.ready <+: l'.ready) ?_ ?_ ?_ c List.prefix_rfl
    · exact fun l' c before => before.trans (ready_settle c _ l')
    · exact fun l' t f _ _ before => before
    · exact fun l' c source before => before
  | clock => exact List.prefix_rfl

theorem length_cells (h : Op may reach guards l l') : l.cells.length ≤ l'.cells.length := by
  cases h with
  | newCell =>
    rw [Loop.newCell, List.length_append]
    exact Nat.le_add_right _ _
  | settle => exact Nat.le_of_eq (length_cells_settle _ _ l).symm
  | watch => exact Nat.le_of_eq (length_cells_watch _ _ l).symm
  | push => exact Nat.le_refl _
  | mark => exact Nat.le_refl _
  | countDown => exact Nat.le_of_eq (length_cells_countDown _ _ l).symm
  | cancel c =>
    refine cancel_keeps (motive := fun l' => l.cells.length ≤ l'.cells.length) ?_ ?_ ?_ c (Nat.le_refl _)
    · exact fun l' c before => Nat.le_trans before (Nat.le_of_eq (length_cells_settle c _ l').symm)
    · exact fun l' t f _ _ before => before
    · exact fun l' c source before =>
        Nat.le_trans before (Nat.le_of_eq (length_cells_setSource c source l').symm)
  | clock => exact Nat.le_refl _

end Op

namespace Ops

variable {may : Outcome ρ → Prop} {reach : CellId → Prop} {guards : Prop} {l l' : Loop φ ρ κ} {begun : List φ}

theorem settles (h : Ops may reach guards begun l l') : Settles may l l' := by
  induction h with
  | refl l => exact .refl l
  | tail _ step ih => exact ih.trans step.settles
  | @spawn _ _ l' _ f ih => exact ih.trans (.of_eq fun d => outcome?_newCell _ d l')

theorem due (h : Ops may reach guards begun l l') {t : TaskId} (before : l.due t = true) :
    l'.due t = true := by
  induction h with
  | refl => exact before
  | tail _ step ih => exact step.due (ih before)
  | @spawn _ _ l' _ f ih =>
    have known := ih before
    rw [Loop.due] at known ⊢
    have old : t < l'.tasks.length := by
      refine Nat.lt_of_not_le fun out => ?_
      rw [List.getElem?_eq_none out] at known
      cases known
    simp only [Loop.spawn, tasks_push, tasks_newCell]
    rw [List.getElem?_append_left (show t < l'.tasks.length from old)]
    exact known

theorem ready (h : Ops may reach guards begun l l') : l.ready <+: l'.ready := by
  induction h with
  | refl => exact List.prefix_rfl
  | tail _ step ih => exact ih.trans step.ready
  | spawn _ f ih => exact ih.trans (List.prefix_append _ _)

theorem length_cells (h : Ops may reach guards begun l l') : l.cells.length ≤ l'.cells.length := by
  induction h with
  | refl => exact Nat.le_refl _
  | tail _ step ih => exact Nat.le_trans ih step.length_cells
  | @spawn _ _ l' _ f ih =>
    refine Nat.le_trans ih ?_
    simp only [Loop.spawn, newCell, cells_push, List.length_append]
    exact Nat.le_add_right _ _

/-- Tasks are where they were, and those begun stand at their first places. -/
theorem places (h : Ops may reach guards begun l l') : ∃ made, l'.places = l.places ++ made ∧
    made.map (·.2) = begun.map (fun f => ([f], none)) ∧
      ∀ m ∈ made, l.cells.length ≤ m.1 ∧ m.1 < l'.cells.length := by
  induction h with
  | refl => exact ⟨[], by simp⟩
  | tail _ step ih =>
    obtain ⟨made, same, firsts, fresh⟩ := ih
    refine ⟨made, step.places.trans same, firsts, fun m hm => ?_⟩
    exact ⟨(fresh m hm).1, Nat.lt_of_lt_of_le (fresh m hm).2 step.length_cells⟩
  | @spawn begun _ l' before f ih =>
    obtain ⟨made, same, firsts, fresh⟩ := ih
    refine ⟨made ++ [(l'.cells.length, [f], none)], ?_, by simp [firsts], ?_⟩
    · have joined : (l'.spawn f).2.places = l'.places ++ [(l'.cells.length, [f], none)] := by
        simp [Loop.places, Loop.spawn, newCell, push, TaskState.place]
      rw [joined, same, List.append_assoc]
    · have longer : (l'.spawn f).2.cells.length = l'.cells.length + 1 := by
        simp [Loop.spawn, newCell]
      intro m hm
      rw [longer]
      rcases List.mem_append.1 hm with hm | hm
      · exact ⟨(fresh m hm).1, Nat.lt_succ_of_lt (fresh m hm).2⟩
      · rw [List.mem_singleton.1 hm]
        exact ⟨before.length_cells, Nat.lt_succ_self _⟩

theorem piles (h : Ops may reach guards begun l l') :
    l'.piles = l.piles ++ begun.map fun f => [f] := by
  obtain ⟨made, same, firsts, -⟩ := h.places
  have tops := congrArg (List.map (·.1)) firsts
  simp only [List.map_map] at tops
  rw [piles_eq, piles_eq, same, List.map_append]
  exact congrArg _ tops

theorem taskCell (h : Ops may reach guards begun l l') {t : TaskId} (ht : t < l.tasks.length) :
    l'.taskCell t = l.taskCell t := by
  obtain ⟨made, same, -⟩ := h.places
  have inside : t < l.places.length := by rwa [Loop.places, List.length_map]
  have places : l'.places[t]? = l.places[t]? := by rw [same, List.getElem?_append_left inside]
  simp only [Loop.places, List.getElem?_map, List.getElem?_eq_getElem ht, Option.map_some] at places
  obtain ⟨task, found, place⟩ := Option.map_eq_some_iff.1 places
  simp only [Loop.taskCell, found, List.getElem?_eq_getElem ht]
  exact congrArg (·.1) place

end Ops

/-- The cell of a task that is none is out of range. -/
theorem lt_of_taskCell_lt {t : TaskId} {l : Loop φ ρ κ} (h : l.taskCell t < l.cells.length) :
    t < l.tasks.length := by
  refine Nat.lt_of_not_le fun out => ?_
  simp only [taskCell, List.getElem?_eq_none out] at h
  exact Nat.lt_irrefl _ h

end Loop
end LanguageClient.Schedule
