import LanguageClient.Proofs.Schedule.Ops

/-!
A task that waits is woken once, by the cell that it waits for and when that is settled.
-/

namespace LanguageClient.Schedule

variable {φ ρ κ : Type}

def Waker.task? : Waker κ → Option TaskId
  | .task t => some t
  | .member _ | .release _ | .call _ => none

def Job.resumed? : Job κ → Option TaskId
  | .resume t _ => some t
  | .member _ | .release _ | .call _ | .fire _ => none

theorem Waker.resumed?_job (waker : Waker κ) (c : CellId) :
    (waker.job c).resumed? = waker.task? := by
  cases waker <;> rfl

theorem Waker.task?_eq_none {waker : Waker κ} (h : waker.isTask = false) : waker.task? = none := by
  cases waker with
  | task => cases h
  | member => rfl
  | release => rfl
  | call => rfl

theorem Job.resumed?_eq_none {job : Job κ} (h : job.isResume = false) : job.resumed? = none := by
  cases job with
  | resume => cases h
  | member => rfl
  | release => rfl
  | call => rfl
  | fire => rfl

namespace Loop

/-- What a task waits for. -/
def waits (t : TaskId) (l : Loop φ ρ κ) : Option CellId := (l.places[t]?).bind (·.2.2)

/-- The tasks that the jobs at hand go on with. -/
def resumed (jobs : List (Job κ)) : List TaskId := jobs.filterMap Job.resumed?

theorem mem_resumed {jobs : List (Job κ)} {t : TaskId} :
    t ∈ resumed jobs ↔ ∃ waited, Job.resume t waited ∈ jobs := by
  simp only [resumed, List.mem_filterMap]
  constructor
  · rintro ⟨job, hj, same⟩
    cases job with
    | resume u waited =>
      cases same
      exact ⟨waited, hj⟩
    | member => cases same
    | release => cases same
    | call => cases same
    | fire => cases same
  · rintro ⟨waited, hj⟩
    exact ⟨_, hj, rfl⟩

theorem resumed_append (jobs more : List (Job κ)) :
    resumed (jobs ++ more) = resumed jobs ++ resumed more := List.filterMap_append

/-- Whoever waits for a cell is woken by it alone, and the running task waits for nothing. -/
structure Orderly (running : Option TaskId) (l : Loop φ ρ κ) : Prop where
  watching : ∀ (c : CellId) (cell : Cell ρ κ) t, l.cells[c]? = some cell → .task t ∈ cell.wakers →
    l.waits t = some c ∧ cell.outcome = none
  watchedOnce : ∀ (c : CellId) (cell : Cell ρ κ), l.cells[c]? = some cell →
    (cell.wakers.filterMap Waker.task?).Nodup
  resuming : ∀ t waited, .resume t waited ∈ l.ready → t < l.tasks.length ∧ l.waits t = waited ∧
    ∀ c, waited = some c → l.isSettled c = true
  resumedOnce : (resumed l.ready).Nodup
  running : ∀ t, running = some t → t < l.tasks.length ∧ l.waits t = none ∧ t ∉ resumed l.ready

theorem length_places (l : Loop φ ρ κ) : l.places.length = l.tasks.length := List.length_map _

theorem length_tasks_of_places {l l' : Loop φ ρ κ} (h : l'.places = l.places) :
    l'.tasks.length = l.tasks.length := by
  rw [← length_places, ← length_places, h]

theorem waits_of_places {l l' : Loop φ ρ κ} (h : l'.places = l.places) (t : TaskId) :
    l'.waits t = l.waits t := by
  rw [waits, waits, h]

theorem waits_eq (t : TaskId) (l : Loop φ ρ κ) :
    l.waits t = (l.tasks[t]?).bind (·.waits) := by
  rw [waits, places, List.getElem?_map]
  cases l.tasks[t]? <;> rfl

theorem waits_setTask (t u : TaskId) (f : TaskState φ → TaskState φ) (l : Loop φ ρ κ) :
    (l.setTask t f).waits u =
      if t = u then (l.tasks[u]?).bind fun task => (f task).waits else l.waits u := by
  rw [waits_eq, waits_eq, setTask, List.getElem?_modify]
  by_cases same : t = u
  · simp only [same, if_true]
    cases l.tasks[u]? <;> rfl
  · simp only [same, if_false]
    cases l.tasks[u]? <;> rfl

theorem waits_setTask_of_waits {f : TaskState φ → TaskState φ} (h : ∀ task, (f task).waits = task.waits)
    (t u : TaskId) (l : Loop φ ρ κ) : (l.setTask t f).waits u = l.waits u := by
  rw [waits_setTask, waits_eq]
  split
  · cases l.tasks[u]? <;> simp [h]
  · rfl

theorem length_tasks_setTask (t : TaskId) (f : TaskState φ → TaskState φ) (l : Loop φ ρ κ) :
    (l.setTask t f).tasks.length = l.tasks.length := List.length_modify _ _ _

theorem waits_lt {l : Loop φ ρ κ} {t : TaskId} {c : CellId} (h : l.waits t = some c) :
    t < l.tasks.length := by
  obtain ⟨place, found, -⟩ := Option.bind_eq_some_iff.1 h
  have := (List.getElem?_eq_some_iff.1 found).1
  rwa [length_places] at this

theorem isSettled_mono {may : Outcome ρ → Prop} {l l' : Loop φ ρ κ} (h : Settles may l l')
    {c : CellId} (hc : l.isSettled c = true) : l'.isSettled c = true := by
  obtain ⟨o, ho⟩ := Option.isSome_iff_exists.1 hc
  exact Option.isSome_iff_exists.2 ⟨o, h.outcome ho⟩

namespace Orderly

variable {running : Option TaskId} {l l' : Loop φ ρ κ}

/-- Nothing changes for those that wait if every cell keeps those it has, and no job joins the
queue to go on with a task. -/
theorem keep (h : l.Orderly running) (tasks : l'.tasks.length = l.tasks.length)
    (waits : ∀ t, l'.waits t = l.waits t)
    (cells : ∀ (c : CellId) cell', l'.cells[c]? = some cell' →
      cell'.wakers.filterMap Waker.task? = [] ∨
        ∃ cell : Cell ρ κ, l.cells[c]? = some cell ∧ cell'.outcome = cell.outcome ∧
          cell'.wakers.filterMap Waker.task? = cell.wakers.filterMap Waker.task?)
    (settled : ∀ c, l.isSettled c = true → l'.isSettled c = true)
    (ready : ∀ t waited, .resume t waited ∈ l'.ready → .resume t waited ∈ l.ready)
    (once : resumed l'.ready = resumed l.ready) : l'.Orderly running where
  watching c cell' t found member := by
    have inside : t ∈ cell'.wakers.filterMap Waker.task? := List.mem_filterMap.2 ⟨_, member, rfl⟩
    rcases cells c cell' found with none | ⟨cell, before, same, wakers⟩
    · rw [none] at inside
      cases inside
    · rw [wakers] at inside
      obtain ⟨waker, hw, ht⟩ := List.mem_filterMap.1 inside
      have named : waker = .task t := by
        cases waker with
        | task u => exact congrArg _ (Option.some.inj ht)
        | member => cases ht
        | release => cases ht
        | call => cases ht
      rw [waits, same]
      exact h.watching c cell t before (named ▸ hw)
  watchedOnce c cell' found := by
    rcases cells c cell' found with none | ⟨cell, before, -, wakers⟩
    · rw [none]
      exact List.nodup_nil
    · rw [wakers]
      exact h.watchedOnce c cell before
  resuming t waited member := by
    obtain ⟨inside, same, known⟩ := h.resuming t waited (ready t waited member)
    rw [tasks, waits]
    exact ⟨inside, same, fun c hc => settled c (known c hc)⟩
  resumedOnce := once ▸ h.resumedOnce
  running t ht := by
    rw [tasks, waits, once]
    exact h.running t ht

theorem keep_cells (h : l.Orderly running) (tasks : l'.tasks.length = l.tasks.length)
    (waits : ∀ t, l'.waits t = l.waits t)
    (cells : l'.cells = l.cells) {extra : List (Job κ)} (ready : l'.ready = l.ready ++ extra)
    (none : resumed extra = []) : l'.Orderly running := by
  refine h.keep tasks waits ?_ ?_ ?_ ?_
  · exact fun c cell found => .inr ⟨cell, cells ▸ found, rfl, rfl⟩
  · intro c hc
    rwa [isSettled, outcome?, cells]
  · intro t waited member
    rw [ready, List.mem_append] at member
    rcases member with member | member
    · exact member
    · have : t ∈ resumed extra := mem_resumed.2 ⟨waited, member⟩
      rw [none] at this
      cases this
  · rw [ready, resumed_append, none, List.append_nil]

theorem settle (h : l.Orderly running) (c : CellId) (o : Outcome ρ) :
    (l.settle c o).Orderly running := by
  unfold Loop.settle
  split
  · next source wakers found =>
    have hc : c < l.cells.length := (List.getElem?_eq_some_iff.1 found).1
    have unsettled : l.isSettled c = false := by simp [isSettled, outcome?, found]
    have cell (d : CellId) (cell' : Cell ρ κ)
        (hd : (l.cells.set c ⟨source, some o, []⟩)[d]? = some cell') :
        cell'.wakers = [] ∨ l.cells[d]? = some cell' := by
      by_cases same : c = d
      · subst same
        rw [List.getElem?_set_self hc] at hd
        cases hd
        exact .inl rfl
      · rw [List.getElem?_set_ne same] at hd
        exact .inr hd
    have woken (t : TaskId) : t ∈ resumed (wakers.map (Waker.job c)) ↔ .task t ∈ wakers := by
      simp only [resumed, List.filterMap_map, List.mem_filterMap, Function.comp_apply,
        Waker.resumed?_job]
      constructor
      · rintro ⟨waker, hw, ht⟩
        cases waker with
        | task u =>
          cases ht
          exact hw
        | member => cases ht
        | release => cases ht
        | call => cases ht
      · exact fun hw => ⟨_, hw, rfl⟩
    have apart (t : TaskId) (ht : t ∈ resumed l.ready) : .task t ∉ wakers := by
      intro hw
      obtain ⟨waited, hj⟩ := mem_resumed.1 ht
      obtain ⟨-, same, known⟩ := h.resuming t waited hj
      have waits := (h.watching c _ t found hw).1
      have settled := known c (same.symm.trans waits)
      rw [unsettled] at settled
      cases settled
    have mono (d : CellId) (hd : l.isSettled d = true) :
        isSettled d { l with cells := l.cells.set c ⟨source, some o, []⟩,
                             ready := l.ready ++ wakers.map (Waker.job c) } = true := by
      have step : Settles (fun _ => True) l (l.settle c o) := .settle trivial c l
      have known := isSettled_mono step hd
      rwa [Loop.settle, found] at known
    constructor
    · intro d cell' t found' member
      rcases cell d cell' found' with none | same
      · rw [none] at member
        cases member
      · exact h.watching d cell' t same member
    · intro d cell' found'
      rcases cell d cell' found' with none | same
      · rw [none]
        exact List.nodup_nil
      · exact h.watchedOnce d cell' same
    · intro t waited member
      rcases List.mem_append.1 member with member | member
      · obtain ⟨inside, same, known⟩ := h.resuming t waited member
        exact ⟨inside, same, fun d hd => mono d (known d hd)⟩
      · obtain ⟨waker, hw, job⟩ := List.mem_map.1 member
        cases waker with
        | task u =>
          cases job
          have waits := (h.watching c _ t found hw).1
          refine ⟨waits_lt waits, waits, fun d hd => ?_⟩
          cases hd
          simp [isSettled, outcome?, hc]
        | member => cases job
        | release => cases job
        | call => cases job
    · rw [resumed_append, List.nodup_append]
      refine ⟨h.resumedOnce, ?_, ?_⟩
      · have once := h.watchedOnce c _ found
        rw [resumed, List.filterMap_map]
        simpa only [Function.comp_def, Waker.resumed?_job] using once
      · rintro t ht u hu rfl
        exact apart t ht ((woken t).1 hu)
    · intro t ht
      obtain ⟨inside, waits, absent⟩ := h.running t ht
      refine ⟨inside, waits, ?_⟩
      rw [resumed_append, List.mem_append, not_or]
      refine ⟨absent, fun hw => ?_⟩
      have some := (h.watching c _ t found ((woken t).1 hw)).1
      have none : l.waits t = none := waits
      rw [some] at none
      cases none
  · exact h

theorem watch (h : l.Orderly running) (c : CellId) {waker : Waker κ} (hw : waker.isTask = false) :
    (l.watch c waker).Orderly running := by
  have places : (l.watch c waker).places = l.places := places_of_tasks (tasks_watch c waker l)
  have settled (d : CellId) (hd : l.isSettled d = true) : (l.watch c waker).isSettled d = true := by
    rwa [isSettled, outcome?_watch]
  revert places settled
  unfold Loop.watch
  split
  · next source wakers found =>
    intro places settled
    refine h.keep (length_tasks_of_places places) (waits_of_places places) ?_ settled
      (fun _ _ hj => hj) rfl
    intro d cell' hd
    have hc : c < l.cells.length := (List.getElem?_eq_some_iff.1 found).1
    by_cases same : c = d
    · subst same
      simp only [List.getElem?_set_self hc, Option.some.injEq] at hd
      cases hd
      refine .inr ⟨_, found, rfl, ?_⟩
      simp [Waker.task?_eq_none hw]
    · simp only [List.getElem?_set_ne same] at hd
      exact .inr ⟨cell', hd, rfl, rfl⟩
  · intro places _
    refine h.keep_cells (length_tasks_of_places places) (waits_of_places places) rfl
      (ready_push _ l) ?_
    have quiet : (waker.job c).isResume = false := by rw [Waker.isResume_job, hw]
    simp [resumed, Job.resumed?_eq_none quiet]

theorem mark (h : l.Orderly running) (t : TaskId) {f : TaskState φ → TaskState φ}
    (hf : ∀ task, (f task).place = task.place) : (l.setTask t f).Orderly running := by
  have places := places_setTask (t := t) hf l
  exact h.keep_cells (length_tasks_of_places places) (waits_of_places places) rfl
    (List.append_nil _).symm rfl

theorem setSource (h : l.Orderly running) (c : CellId) (source : Source) :
    (l.setSource c source).Orderly running := by
  refine h.keep rfl (fun _ => rfl) ?_ ?_ (fun _ _ hj => hj) rfl
  · intro d cell' hd
    simp only [Loop.setSource, List.getElem?_modify] at hd
    obtain ⟨cell, found, same⟩ := Option.map_eq_some_iff.1 hd
    refine .inr ⟨cell, found, ?_⟩
    by_cases hcd : c = d
    · simp only [hcd, if_true] at same
      subst same
      exact ⟨rfl, rfl⟩
    · simp only [hcd, if_false] at same
      subst same
      exact ⟨rfl, rfl⟩
  · intro d hd
    rwa [isSettled, outcome?_setSource]

theorem newCell (h : l.Orderly running) (source : Source) :
    (l.newCell source).2.Orderly running := by
  refine h.keep rfl (fun _ => rfl) ?_ ?_ (fun _ _ hj => hj) rfl
  · intro d cell' hd
    by_cases hl : d < l.cells.length
    · rw [Loop.newCell, List.getElem?_append_left hl] at hd
      exact .inr ⟨cell', hd, rfl, rfl⟩
    · rw [Loop.newCell, List.getElem?_append_right (Nat.le_of_not_lt hl)] at hd
      have := List.mem_of_getElem? hd
      rw [List.mem_singleton.1 this]
      exact .inl rfl
  · intro d hd
    rwa [isSettled, outcome?_newCell]

theorem push (h : l.Orderly running) {job : Job κ} (hj : job.isResume = false) :
    (l.push job).Orderly running := by
  refine h.keep_cells rfl (fun _ => rfl) rfl (ready_push job l) ?_
  simp [resumed, Job.resumed?_eq_none hj]

theorem countDown (h : l.Orderly running) (c : CellId) (ok : ρ) :
    (l.countDown c ok).Orderly running := by
  unfold Loop.countDown
  dsimp only
  split
  · split
    · exact h.setSource c _
    · exact (h.setSource c _).settle c _
  · split
    · exact h.setSource c _
    · exact (h.setSource c _).settle c _
  · exact h

theorem cancel (h : l.Orderly running) (c : CellId) : (l.cancel c).2.Orderly running := by
  refine cancel_keeps (motive := fun l => l.Orderly running) ?_ ?_ ?_ c h
  · exact fun l' c before => before.settle c _
  · exact fun l' t f same _ before => before.mark t same
  · exact fun l' c source before => before.setSource c source

theorem op {may : Outcome ρ → Prop} {reach : CellId → Prop} {guards : Prop}
    (h : l.Orderly running) (step : Op may reach guards l l') : l'.Orderly running := by
  cases step with
  | newCell source => exact h.newCell source
  | settle c o => exact h.settle c o
  | watch c waker hw => exact h.watch c hw
  | push job hj => exact h.push hj
  | mark t f hf _ _ => exact h.mark t hf
  | countDown c ok => exact h.countDown c ok
  | cancel c => exact h.cancel c
  | clock =>
    exact h.keep_cells rfl (fun _ => rfl) rfl (List.append_nil _).symm rfl

theorem places_spawn (f : φ) (l : Loop φ ρ κ) :
    (l.spawn f).2.places = l.places ++ [(l.cells.length, [f], none)] := by
  simp [places, Loop.spawn, Loop.newCell, Loop.push, TaskState.place]

theorem waits_spawn (f : φ) (t : TaskId) (l : Loop φ ρ κ) : (l.spawn f).2.waits t = l.waits t := by
  rw [Loop.waits, Loop.waits, places_spawn]
  by_cases ht : t < l.places.length
  · rw [List.getElem?_append_left ht]
  · rw [List.getElem?_append_right (Nat.le_of_not_lt ht), List.getElem?_eq_none (Nat.le_of_not_lt ht)]
    cases t - l.places.length with
    | zero => rfl
    | succ n => rfl

theorem spawn (h : l.Orderly running) (f : φ) : (l.spawn f).2.Orderly running := by
  have made := h.newCell (.task l.tasks.length)
  have tasks : (l.spawn f).2.tasks.length = l.tasks.length + 1 := by
    rw [← length_places, places_spawn, List.length_append, length_places]
    rfl
  have fresh : l.tasks.length ∉ resumed l.ready := by
    intro member
    obtain ⟨waited, hj⟩ := mem_resumed.1 member
    exact Nat.lt_irrefl _ (h.resuming _ _ hj).1
  have ready : (l.spawn f).2.ready = l.ready ++ [.resume l.tasks.length none] := rfl
  constructor
  · intro c cell t found member
    rw [waits_spawn]
    exact made.watching c cell t found member
  · exact made.watchedOnce
  · intro t waited member
    rw [waits_spawn, tasks]
    rcases List.mem_append.1 member with member | member
    · obtain ⟨inside, same, known⟩ := made.resuming t waited member
      exact ⟨Nat.lt_succ_of_lt inside, same, known⟩
    · cases List.mem_singleton.1 member
      refine ⟨Nat.lt_succ_self _, ?_, fun c hc => nomatch hc⟩
      cases hw : l.waits l.tasks.length with
      | none => rfl
      | some c => exact absurd (waits_lt hw) (Nat.lt_irrefl _)
  · rw [ready, resumed_append, List.nodup_append]
    refine ⟨h.resumedOnce, List.pairwise_singleton _ _, ?_⟩
    rintro t ht u hu rfl
    cases List.mem_singleton.1 hu
    exact fresh ht
  · intro t ht
    obtain ⟨inside, waits, absent⟩ := h.running t ht
    rw [waits_spawn, tasks, ready, resumed_append, List.mem_append, not_or]
    refine ⟨Nat.lt_succ_of_lt inside, waits, absent, ?_⟩
    intro member
    cases List.mem_singleton.1 member
    exact Nat.lt_irrefl _ inside

theorem ops {may : Outcome ρ → Prop} {reach : CellId → Prop} {guards : Prop} {begun : List φ}
    (h : l.Orderly running) (steps : Ops may reach guards begun l l') : l'.Orderly running := by
  induction steps with
  | refl => exact h
  | tail _ step ih => exact (ih h).op step
  | spawn _ f ih => exact (ih h).spawn f

/-- Nobody waits for anything at the start. -/
theorem start : (Loop.start : Loop φ ρ κ).Orderly none := by
  constructor
  all_goals simp [Loop.start, resumed]

theorem stop (h : l.Orderly running) : l.Orderly none :=
  ⟨h.watching, h.watchedOnce, h.resuming, h.resumedOnce, fun _ ht => nomatch ht⟩

theorem setStack (h : l.Orderly running) (t : TaskId) {f : TaskState φ → TaskState φ}
    (hf : ∀ task, (f task).waits = task.waits) : (l.setTask t f).Orderly running :=
  h.keep_cells (length_tasks_setTask t f l) (fun u => waits_setTask_of_waits hf t u l) rfl
    (List.append_nil _).symm rfl

/-- The first job leaves the queue. -/
theorem pop (h : l.Orderly none) {job : Job κ} {rest : List (Job κ)} (hr : l.ready = job :: rest) :
    Orderly none { l with ready := rest } where
  watching := h.watching
  watchedOnce := h.watchedOnce
  resuming t waited member := h.resuming t waited (hr ▸ List.mem_cons_of_mem _ member)
  resumedOnce := by
    have once := h.resumedOnce
    rw [hr] at once
    exact once.sublist ((List.sublist_cons_self job rest).filterMap _)
  running t ht := nomatch ht

/-- A task goes on that the first job was for. -/
theorem wake (h : l.Orderly none) {t : TaskId} {waited : Option CellId} {rest : List (Job κ)}
    (hr : l.ready = .resume t waited :: rest) {f : TaskState φ → TaskState φ}
    (hf : ∀ task, (f task).waits = none) :
    (setTask t f { l with ready := rest }).Orderly (some t) := by
  have popped := h.pop hr
  obtain ⟨inside, same, known⟩ := h.resuming t waited (hr ▸ List.mem_cons_self)
  have once := h.resumedOnce
  rw [hr] at once
  have absent : t ∉ resumed rest := (List.nodup_cons.1 once).1
  have waits (u : TaskId) (hu : u ≠ t) :
      (setTask t f { l with ready := rest }).waits u = l.waits u := by
    rw [waits_setTask, if_neg (Ne.symm hu)]
    rfl
  have unwatched (c : CellId) (cell : Cell ρ κ) (found : l.cells[c]? = some cell) :
      .task t ∉ cell.wakers := by
    intro member
    obtain ⟨waiting, unsettled⟩ := h.watching c cell t found member
    have settled := known c (same.symm.trans waiting)
    rw [isSettled, outcome?, found, Option.bind_some, unsettled] at settled
    cases settled
  constructor
  · intro c cell u found member
    have other : u ≠ t := by
      rintro rfl
      exact unwatched c cell found member
    rw [waits u other]
    exact h.watching c cell u found member
  · exact popped.watchedOnce
  · intro u waited' member
    have other : u ≠ t := by
      rintro rfl
      exact absent (mem_resumed.2 ⟨waited', member⟩)
    rw [waits u other, length_tasks_setTask]
    exact popped.resuming u waited' member
  · exact popped.resumedOnce
  · intro u hu
    cases hu
    refine ⟨(length_tasks_setTask t f _).symm ▸ inside, ?_, absent⟩
    rw [waits_setTask, if_pos rfl]
    show (l.tasks[t]?).bind _ = none
    cases l.tasks[t]? <;> simp [hf]

/-- The running task waits for a cell. -/
theorem suspend {t : TaskId} (h : l.Orderly (some t)) {c : CellId} (hc : c < l.cells.length)
    (unsettled : l.outcome? c = none) {f : TaskState φ → TaskState φ}
    (hf : ∀ task, (f task).waits = some c) : ((l.watch c (.task t)).setTask t f).Orderly none := by
  obtain ⟨inside, idle, absent⟩ := h.running t rfl
  obtain ⟨cell, found⟩ : ∃ cell, l.cells[c]? = some cell := ⟨_, List.getElem?_eq_getElem hc⟩
  obtain ⟨source, outcome, wakers⟩ := cell
  rw [outcome?, found, Option.bind_some] at unsettled
  cases unsettled
  have watched : l.watch c (.task t) =
      { l with cells := l.cells.set c ⟨source, none, wakers ++ [.task t]⟩ } := by
    rw [Loop.watch, found]
  rw [watched]
  have waits (u : TaskId) (hu : u ≠ t) :
      (setTask t f { l with cells := l.cells.set c ⟨source, none, wakers ++ [.task t]⟩ }).waits u =
        l.waits u := by
    rw [waits_setTask, if_neg (Ne.symm hu)]
    rfl
  have waiting : (setTask t f
      { l with cells := l.cells.set c ⟨source, none, wakers ++ [.task t]⟩ }).waits t = some c := by
    rw [waits_setTask, if_pos rfl]
    show (l.tasks[t]?).bind _ = some c
    rw [List.getElem?_eq_getElem inside]
    exact hf _
  have unwatched (d : CellId) (cell : Cell ρ κ) (found : l.cells[d]? = some cell) :
      .task t ∉ cell.wakers := by
    intro member
    have some := (h.watching d cell t found member).1
    rw [idle] at some
    cases some
  have cell (d : CellId) (cell' : Cell ρ κ)
      (hd : (l.cells.set c ⟨source, none, wakers ++ [.task t]⟩)[d]? = some cell') :
      (d = c ∧ cell' = ⟨source, none, wakers ++ [.task t]⟩) ∨ l.cells[d]? = some cell' := by
    by_cases same : c = d
    · subst same
      rw [List.getElem?_set_self hc] at hd
      cases hd
      exact .inl ⟨rfl, rfl⟩
    · rw [List.getElem?_set_ne same] at hd
      exact .inr hd
  constructor
  · intro d cell' u found' member
    rcases cell d cell' found' with ⟨rfl, rfl⟩ | before
    · rcases List.mem_append.1 member with old | new
      · have other : u ≠ t := by
          rintro rfl
          exact unwatched d _ found old
        rw [waits u other]
        exact ⟨(h.watching d _ u found old).1, rfl⟩
      · cases List.mem_singleton.1 new
        exact ⟨waiting, rfl⟩
    · have other : u ≠ t := by
        rintro rfl
        exact unwatched d cell' before member
      rw [waits u other]
      exact h.watching d cell' u before member
  · intro d cell' found'
    rcases cell d cell' found' with ⟨rfl, rfl⟩ | before
    · rw [List.filterMap_append, List.nodup_append]
      refine ⟨h.watchedOnce d _ found, List.pairwise_singleton _ _, ?_⟩
      rintro u hu v hv rfl
      cases List.mem_singleton.1 hv
      obtain ⟨waker, hw, ht⟩ := List.mem_filterMap.1 hu
      cases waker with
      | task v =>
        cases ht
        exact unwatched d _ found hw
      | member => cases ht
      | release => cases ht
      | call => cases ht
    · exact h.watchedOnce d cell' before
  · intro u waited member
    have other : u ≠ t := by
      rintro rfl
      exact absent (mem_resumed.2 ⟨waited, member⟩)
    obtain ⟨bound, same, known⟩ := h.resuming u waited member
    rw [waits u other, length_tasks_setTask]
    refine ⟨bound, same, fun d hd => ?_⟩
    have settled := known d hd
    rw [isSettled, outcome?] at settled ⊢
    by_cases hcd : c = d
    · subst hcd
      rw [found] at settled
      cases settled
    · simpa only [cells_setTask, List.getElem?_set_ne hcd] using settled
  · exact h.resumedOnce
  · intro u hu
    cases hu

/-- The running task lets the others go first. -/
theorem pause {t : TaskId} (h : l.Orderly (some t)) : (l.push (.resume t none)).Orderly none := by
  obtain ⟨inside, idle, absent⟩ := h.running t rfl
  constructor
  · exact h.watching
  · exact h.watchedOnce
  · intro u waited member
    rcases List.mem_append.1 member with member | member
    · exact h.resuming u waited member
    · cases List.mem_singleton.1 member
      exact ⟨inside, idle, fun _ hc => nomatch hc⟩
  · rw [ready_push, resumed_append, List.nodup_append]
    refine ⟨h.resumedOnce, List.pairwise_singleton _ _, ?_⟩
    rintro u hu v hv rfl
    cases List.mem_singleton.1 hv
    exact absent hu
  · exact fun u hu => nomatch hu

end Orderly

end Loop
end LanguageClient.Schedule
