import LanguageClient.Proofs.Schedule.Spares

/-!
A task that nobody knows of: nobody waits for it, no group is made of it and no timer is set for it, so
that no request to cancel comes to it unless it is made of the task itself.
-/

namespace LanguageClient.Schedule.Loop

variable {φ ρ κ : Type} {p : Outcome ρ → Prop} {reach : CellId → Prop} {marked : TaskId → Prop}
variable {guards : Prop} {begun : List φ} {l l' : Loop φ ρ κ} {t u : TaskId} {c : CellId}

theorem due_setTask_same {f : TaskState φ → TaskState φ}
    (h : ∀ task, (f task).cancelDue = task.cancelDue) (t u : TaskId) (l : Loop φ ρ κ) :
    (l.setTask u f).due t = l.due t := by
  simp only [due, setTask, List.getElem?_modify]
  cases l.tasks[t]? with
  | none => rfl
  | some task => by_cases same : u = t <;> simp [same, h]

theorem due_setTask_ne (other : u ≠ t) (f : TaskState φ → TaskState φ) (l : Loop φ ρ κ) :
    (l.setTask u f).due t = l.due t := by
  simp [due, setTask, other]

/-- No cancellation comes to be due for a task out of reach, whether or not timers are set. -/
theorem Op.due_eq (h : l.Shield reach marked) (step : Op p reach guards l l') (unmarked : ¬ marked t) :
    l'.due t = l.due t := by
  cases step with
  | newCell | push | clock => rfl
  | settle => exact due_of_tasks (tasks_settle _ _ l) t
  | watch => exact due_of_tasks (tasks_watch _ _ l) t
  | mark u f _ same => exact due_setTask_same same t u l
  | countDown => exact due_of_tasks (tasks_countDown _ _ l) t
  | cancel c hc may =>
    have spares : Spares reach marked l (l.cancel c).2 := .cancel h hc
    by_cases inside : t < l.tasks.length
    · rw [Loop.due, Loop.due, spares.task t inside unmarked]
    · have step : Op p reach guards l (l.cancel c).2 := .cancel l c hc may
      have same := length_tasks_of_places step.places
      have out := Nat.le_of_not_lt inside
      rw [Loop.due, Loop.due, List.getElem?_eq_none out, List.getElem?_eq_none (same ▸ out)]

theorem Ops.due_eq (h : l.Shield reach marked) (steps : Ops p reach guards begun l l')
    (unmarked : ¬ marked t) : l'.due t = l.due t := by
  induction steps with
  | refl => rfl
  | tail before step ih => exact (step.due_eq (h.ops before) unmarked).trans (ih h)
  | @spawn _ _ l' before f ih =>
    refine Eq.trans ?_ (ih h)
    -- a task that is begun has nothing due yet, so the task may well be the one begun
    have tasks : (l'.spawn f).2.tasks = l'.tasks ++ [⟨l'.cells.length, [f], none, false, 0⟩] := rfl
    rw [Loop.due, Loop.due, tasks]
    by_cases inside : t < l'.tasks.length
    · rw [List.getElem?_append_left inside]
    · have out := Nat.le_of_not_lt inside
      rw [List.getElem?_append_right out, List.getElem?_eq_none out]
      cases t - l'.tasks.length <;> rfl

theorem timers_watch (c : CellId) (waker : Waker κ) (l : Loop φ ρ κ) :
    (l.watch c waker).timers = l.timers := by
  unfold Loop.watch
  split <;> rfl

theorem timers_cancel (c : CellId) (l : Loop φ ρ κ) : (l.cancel c).2.timers = l.timers :=
  cancel_keeps (motive := fun l' => l'.timers = l.timers)
    (fun l' c before => (clock_settle c _ l').1.trans before) (fun _ _ _ _ _ before => before)
    (fun _ _ _ before => before) c rfl

/-- Timers that cancel tasks are left alone by those who guard none. -/
theorem Op.alarms_eq (step : Op p reach guards l l') (calm : ¬ guards) :
    alarms l'.timers = alarms l.timers := by
  cases step with
  | newCell | push => rfl
  | settle c o => exact congrArg _ (clock_settle c o l).1
  | watch c waker => exact congrArg _ (timers_watch c waker l)
  | mark _ _ _ _ guarding => exact absurd guarding calm
  | countDown c ok =>
    have spares : Spares reach (fun _ => False) l (l.countDown c ok) := .countDown c ok l
    exact spares.alarms
  | cancel c => exact congrArg _ (timers_cancel c l)
  | clock _ _ _ _ _ _ still => exact (still.resolve_left calm).1

theorem Ops.alarms_eq (steps : Ops p reach guards begun l l') (calm : ¬ guards) :
    alarms l'.timers = alarms l.timers := by
  induction steps with
  | refl => rfl
  | tail _ step ih => exact (step.alarms_eq calm).trans ih
  | spawn _ _ ih => exact ih

theorem alarms_subset {timers timers' : List Timer} (h : timers' ⊆ timers) {e : TimerId × TaskId}
    (he : e ∈ alarms timers') : e ∈ alarms timers := by
  obtain ⟨timer, member, same⟩ := List.mem_filterMap.1 he
  exact List.mem_filterMap.2 ⟨timer, h member, same⟩

/-- There, and not the cell of a task. -/
def Far (t : TaskId) (l : Loop φ ρ κ) (c : CellId) : Prop :=
  c < l.cells.length ∧ l.kind? c ≠ some (.task t)

/-- Nobody knows of a task. -/
structure Apart (t : TaskId) (l : Loop φ ρ κ) : Prop where
  due : l.due t = false
  alarms : ∀ id, (id, t) ∉ alarms l.timers
  waits : ∀ u c, l.waits u = some c → l.Far t c
  members : ∀ c k, l.kind? c = some k → ∀ m ∈ k.members, l.Far t m

theorem Far.keep (h : l.Far t c) (longer : l.cells.length ≤ l'.cells.length)
    (kind : l'.kind? c = l.kind? c) : l'.Far t c :=
  ⟨Nat.lt_of_lt_of_le h.1 longer, kind ▸ h.2⟩

theorem Far.of_kind {k : Source} (h : l.kind? c = some k) (other : k ≠ .task t) : l.Far t c :=
  ⟨lt_of_kind? h, fun same => other (Option.some.inj (h.symm.trans same))⟩

namespace Apart

theorem shield (h : l.Apart t) : l.Shield (l.Far t) (· ≠ t) where
  inside _ far := far.1
  owner _ _ far kind same := far.2 (same ▸ kind)
  members c k _ kind := h.members c k kind
  waits u c _ waits := h.waits u c waits

/-- Operations keep a task apart that they do not reach and set no timer for. -/
theorem ops (h : l.Apart t) (steps : Ops p (l.Far t) guards begun l l')
    (alarms : ∀ id, (id, t) ∉ Loop.alarms l'.timers) : l'.Apart t where
  due := (steps.due_eq h.shield (fun other => other rfl)).trans h.due
  alarms := alarms
  waits u c waits := by
    have far := h.waits u c (steps.waits u ▸ waits)
    exact far.keep steps.length_cells (steps.kind? far.1)
  members c k kind m hm := by
    -- a group is an old one, or made of what the operations reach
    have far : l.Far t m := by
      by_cases old : c < l.cells.length
      · exact h.members c k (steps.kind? old ▸ kind) m hm
      · exact steps.members (Nat.le_of_not_lt old) kind m hm
    exact far.keep steps.length_cells (steps.kind? far.1)

theorem calm_ops (h : l.Apart t) (steps : Ops p (l.Far t) guards begun l l') (calm : ¬ guards) :
    l'.Apart t :=
  h.ops steps fun id => steps.alarms_eq calm ▸ h.alarms id

/-- A change that makes no cell. -/
theorem keep (h : l.Apart t) (due : l'.due t = l.due t) (timers : l'.timers ⊆ l.timers)
    (waits : ∀ u c, l'.waits u = some c → l.Far t c) (length : l'.cells.length = l.cells.length)
    (kinds : ∀ c, l'.kind? c = l.kind? c) : l'.Apart t where
  due := due.trans h.due
  alarms id member := h.alarms id (alarms_subset timers member)
  waits u c hc := (waits u c hc).keep (Nat.le_of_eq length.symm) (kinds c)
  members c k kind m hm := (h.members c k (kinds c ▸ kind) m hm).keep (Nat.le_of_eq length.symm) (kinds m)

theorem setTask (h : l.Apart t) (other : u ≠ t) {f : TaskState φ → TaskState φ}
    (waits : ∀ task c, (f task).waits = some c → task.waits = some c ∨ l.Far t c) :
    (l.setTask u f).Apart t := by
  refine h.keep (due_setTask_ne other f l) (List.Subset.refl _) (fun v c hc => ?_) rfl fun _ => rfl
  rw [waits_eq, Loop.setTask, List.getElem?_modify] at hc
  have before := h.waits v c
  rw [waits_eq] at before
  cases found : l.tasks[v]? with
  | none => simp [found] at hc
  | some task =>
    rw [found] at before hc
    by_cases same : u = v
    · simp only [same, if_pos] at hc
      exact (waits task c hc).elim before id
    · exact before (by simpa [same] using hc)

theorem settle (h : l.Apart t) (c : CellId) (o : Outcome ρ) : (l.settle c o).Apart t :=
  h.keep (due_of_tasks (tasks_settle c o l) t) ((clock_settle c o l).1 ▸ List.Subset.refl _)
    (fun u d waits => h.waits u d (waits_of_places (places_of_tasks (tasks_settle c o l)) u ▸ waits))
    (length_cells_settle c o l) fun d => kind?_settle c d o l

theorem watch (h : l.Apart t) (c : CellId) (waker : Waker κ) : (l.watch c waker).Apart t :=
  h.keep (due_of_tasks (tasks_watch c waker l) t) (timers_watch c waker l ▸ List.Subset.refl _)
    (fun u d waits => h.waits u d (waits_of_places (places_of_tasks (tasks_watch c waker l)) u ▸ waits))
    (length_cells_watch c waker l) fun d => kind?_watch c d waker l

theorem aside (h : l.Apart t) (tasks : l'.tasks = l.tasks) (cells : l'.cells = l.cells)
    (timers : l'.timers ⊆ l.timers) : l'.Apart t :=
  h.keep (due_of_tasks tasks t) timers
    (fun u c waits => h.waits u c (waits_of_places (places_of_tasks tasks) u ▸ waits))
    (congrArg _ cells) fun _ => kind?_of_cells cells

theorem cancel (h : l.Apart t) (far : l.Far t c) : (l.cancel c).2.Apart t := by
  have steps : Ops (fun _ => True) (l.Far t) False [] l (l.cancel c).2 := .single (.cancel l c far trivial)
  exact h.calm_ops steps id

/-- A change that leaves a task alone and makes groups of other tasks. -/
theorem spared (h : l.Apart t) (spares : Spares reach (· ≠ t) l l') (waits : ∀ u, l'.waits u = l.waits u)
    (longer : l.cells.length ≤ l'.cells.length)
    (kinds : ∀ c, c < l.cells.length → l'.kind? c = l.kind? c)
    (members : ∀ c k, l.cells.length ≤ c → l'.kind? c = some k → ∀ m ∈ k.members, l.Far t m) :
    l'.Apart t where
  due := by
    by_cases inside : t < l.tasks.length
    · rw [Loop.due, spares.task t inside (fun other => other rfl)]
      exact h.due
    · refine Bool.eq_false_iff.2 fun due => ?_
      obtain ⟨task, found, late⟩ := due_eq_true.1 due
      rw [spares.fresh t task (Nat.le_of_not_lt inside) (fun other => other rfl) found] at late
      cases late
  alarms id := spares.alarms ▸ h.alarms id
  waits u c hc := by
    have far := h.waits u c (waits u ▸ hc)
    exact far.keep longer (kinds c far.1)
  members c k kind m hm := by
    have far : l.Far t m := by
      by_cases old : c < l.cells.length
      · exact h.members c k (kinds c old ▸ kind) m hm
      · exact members c k (Nat.le_of_not_lt old) kind m hm
    exact far.keep longer (kinds m far.1)

/-- A timer goes off that is for another task, or for none. -/
theorem fire (h : l.Apart t) (far : ∀ u, u ≠ t → u < l.tasks.length → l.Far t (l.taskCell u))
    (id : TimerId) (ok : ρ) : (l.fire id ok).Apart t := by
  have stopped : (l.stopTimer id).Apart t := h.aside rfl rfl List.filter_sublist.subset
  rw [Loop.fire]
  cases found : l.timers.find? fun timer => timer.id = id with
  | none => exact h
  | some timer =>
    dsimp only
    split
    · exact stopped.settle _ _
    · next u alarm =>
      have other : u ≠ t := by
        rintro rfl
        exact h.alarms timer.id (mem_alarms.2 ⟨timer, List.mem_of_find?_eq_some found, rfl, alarm⟩)
      have given : ((l.stopTimer id).cancelTask u).Apart t := by
        by_cases inside : u < l.tasks.length
        · exact stopped.cancel (far u other inside)
        · rw [cancelTask_of_le (l := l.stopTimer id) (Nat.le_of_not_lt inside)]
          exact stopped
      exact given.aside rfl rfl (List.Subset.refl _)

end Apart
end LanguageClient.Schedule.Loop
