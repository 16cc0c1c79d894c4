import LanguageClient.Proofs.World.Kept

/-!
What becomes of a task after a step of it: it ends a call, goes on at another place, or is left
waiting for a cell or for its turn.
-/

namespace LanguageClient

open Schedule

namespace World

variable {A : Licence} {R : CellId → Prop} {w w' : World} {t : TaskId}

/-- A change that shows in the loop alone, and in who runs. -/
structure Aside (w w' : World) : Prop where
  same : w' = { w with loop := w'.loop, current := w'.current }
  kept : ∀ A, Kept A w w'
  queue : w.loop.ready <+: w'.loop.ready

theorem Aside.trans {w'' : World} (h : Aside w w') (h' : Aside w' w'') : Aside w w'' where
  same := h'.same.trans (by rw [h.same])
  kept A := (h.kept A).trans (h'.kept A)
  queue := h.queue.trans h'.queue

theorem Aside.core (h : Aside w w') : w'.core = w.core := by
  rw [h.same]
  rfl

theorem aside_setTask {f : TaskState Frame → TaskState Frame}
    (h : ∀ task, (f task).cell = task.cell) (t : TaskId)
    (current : Option (TaskId × Outcome Result)) (w : World) :
    Aside w { w with loop := w.loop.setTask t f, current := current } where
  same := rfl
  kept _ := .setTask h t current w
  queue := List.prefix_rfl

theorem aside_watch (c : CellId) (t : TaskId) (w : World) :
    Aside w (w.onLoop (·.watch c (.task t))) where
  same := rfl
  kept A := by
    refine .of_loop w.current (Loop.length_cells_watch c _ _) (fun d => Loop.outcome?_watch c d _ _)
      (fun d => Loop.kind?_watch c d _ _) (by rw [Loop.tasks_watch]) fun d hd => ?_
    rcases hd.watch with old | new
    · exact old
    · cases new
  queue := Loop.ready_watch c _ _

theorem aside_cancel (c : CellId) (w : World) : Aside w (w.onLoop fun l => (l.cancel c).2) where
  same := rfl
  kept A := ((Keeps.refl w : Keeps A (fun _ => True) [] w w).cancel (c := c) trivial).kept
  queue := by
    have step : Loop.Op (ρ := Result) Calm (fun _ => True) False w.loop (w.loop.cancel c).2 :=
      .cancel w.loop c trivial calm_cancelled
    exact step.ready

/-- What comes of a task that is left waiting for a cell. -/
structure Suspended (t : TaskId) (c : CellId) (w w' : World) : Prop where
  aside : Aside w w'
  current : w'.current = w.current
  orderly : w'.loop.Orderly none
  piles : w'.loop.piles = w.loop.piles
  waits : ∀ u, u ≠ t → w'.loop.waits u = w.loop.waits u
  waiting : w'.loop.waits t = some c

/-- A cancellation that is due reaches the cell. -/
theorem Suspended.cancel {c : CellId} (h : Suspended t c w w') (d : CellId) :
    Suspended t c w (w'.onLoop fun l => (l.cancel d).2) := by
  have step : Loop.Op (ρ := Result) Calm (fun _ => True) False w'.loop (w'.loop.cancel d).2 :=
    .cancel w'.loop d trivial calm_cancelled
  have piles := (Loop.Ops.single step).piles
  rw [List.map_nil, List.append_nil] at piles
  refine ⟨h.aside.trans (aside_cancel d w'), h.current, h.orderly.cancel d, ?_, fun u hu => ?_, ?_⟩
  · exact piles.trans h.piles
  · exact (Loop.waits_of_places step.places u).trans (h.waits u hu)
  · exact (Loop.waits_of_places step.places t).trans h.waiting

theorem Suspended.mark {c : CellId} (h : Suspended t c w w') :
    Suspended t c w (w'.setTask t fun task => { task with cancelDue := false }) where
  aside := h.aside.trans (aside_setTask (fun _ => by rfl) t w'.current w')
  current := h.current
  orderly := h.orderly.mark t fun _ => by rfl
  piles := (Loop.piles_setTask (fun _ => by rfl) w'.loop).trans h.piles
  waits u hu := (Loop.waits_setTask_of_waits (fun _ => by rfl) t u w'.loop).trans (h.waits u hu)
  waiting := (Loop.waits_setTask_of_waits (fun _ => by rfl) t t w'.loop).trans h.waiting

/-- Has a task wait for a cell, whether or not a cancellation is due. -/
def watchCell (t : TaskId) (c : CellId) (w : World) : World :=
  (w.onLoop (·.watch c (.task t))).setTask t fun task => { task with waits := some c }

theorem suspend_eq (t : TaskId) (c : CellId) (w : World) :
    w.suspend t c = match (w.watchCell t c).loop.tasks[t]? with
      | some task =>
        if task.cancelDue then
          let (reached, l) := (w.watchCell t c).loop.cancel c
          let w := { w.watchCell t c with loop := l }
          if reached then w.setTask t fun task => { task with cancelDue := false } else w
        else w.watchCell t c
      | none => w.watchCell t c := rfl

theorem suspend_spec {c : CellId} (h : w.loop.Orderly (some t)) (inside : c < w.loop.cells.length)
    (unsettled : w.loop.outcome? c = none) : Suspended t c w (w.suspend t c) := by
  have running : t < w.loop.tasks.length := (h.running t rfl).1
  have watched : Suspended t c w (w.watchCell t c) := by
    refine ⟨(aside_watch c t w).trans (aside_setTask (fun _ => by rfl) t w.current _), rfl,
      h.suspend inside unsettled fun _ => by rfl, ?_, fun u hu => ?_, ?_⟩
    · refine (Loop.piles_setTask (fun _ => by rfl) _).trans ?_
      exact congrArg (List.map _) (Loop.tasks_watch c _ w.loop)
    · refine (Loop.waits_setTask t u _ _).trans ?_
      rw [if_neg (Ne.symm hu)]
      exact Loop.waits_of_places (Loop.places_of_tasks (Loop.tasks_watch c _ w.loop)) u
    · refine (Loop.waits_setTask t t _ _).trans ?_
      rw [if_pos rfl]
      show ((w.loop.watch c (.task t)).tasks[t]?).bind _ = some c
      rw [Loop.tasks_watch, List.getElem?_eq_getElem running]
      rfl
  rw [suspend_eq]
  split
  · split
    · have reached := watched.cancel c
      dsimp only
      split
      · exact reached.mark
      · exact reached
    · exact watched
  · exact watched

/-- What becomes of a task after a step of it. -/
def land (t : TaskId) (rest : List Frame) (step : Step) : World :=
  match step with
  | (.done o, w) => (w.setStack t rest).goOn t o
  | (.goto f, w) => (w.setStack t (f :: rest)).goOn t (.ok .nothing)
  | (.call inner next, w) => (w.setStack t (inner :: next :: rest)).goOn t (.ok .nothing)
  | (.pause f, w) => (w.setStack t (f :: rest)).onLoop (·.push (.resume t none))
  | (.await c f, w) =>
    match (w.setStack t (f :: rest)).loop.outcome? c with
    | some o => (w.setStack t (f :: rest)).goOn t o
    | none => (w.setStack t (f :: rest)).suspend t c

theorem land_await (rest : List Frame) (c : CellId) (f : Frame) :
    land t rest (.await c f, w) = match (w.setStack t (f :: rest)).loop.outcome? c with
      | some o => (w.setStack t (f :: rest)).goOn t o
      | none => (w.setStack t (f :: rest)).suspend t c := rfl

theorem stepTask_cons {o : Outcome Result} {f : Frame} {rest : List Frame}
    (h : w.stack t = f :: rest) :
    w.stepTask t o = land t rest ({ w with current := none }.resume t f o) := by
  have same : { w with current := none }.stack t = f :: rest := h
  rw [stepTask]
  dsimp only
  rw [same]
  dsimp only
  split <;> rename_i step <;> rw [step] <;> rfl

theorem stepTask_nil {o : Outcome Result} (h : w.stack t = []) :
    w.stepTask t o = { w with current := none }.onLoop fun l => l.settle (l.taskCell t) o := by
  have same : { w with current := none }.stack t = [] := h
  rw [stepTask]
  dsimp only
  rw [same]

/-- Who runs after a step, and what the task waits for that has made it. -/
def Next (t : TaskId) (w' : World) : Flow Frame Result → Prop
  | .done o => w'.current = some (t, o) ∧ w'.loop.waits t = none
  | .goto _ | .call _ _ => w'.current = some (t, .ok .nothing) ∧ w'.loop.waits t = none
  | .pause _ => w'.current = none ∧ w'.loop.waits t = none
  | .await c _ => (∃ o, w'.loop.outcome? c = some o ∧ w'.current = some (t, o) ∧
      w'.loop.waits t = none) ∨ (w'.current = none ∧ w'.loop.waits t = some c)

/-- What landing changes. -/
structure Landed (t : TaskId) (rest : List Frame) (flow : Flow Frame Result) (w w' : World) :
    Prop where
  aside : Aside w w'
  orderly : w'.loop.Orderly (w'.current.map (·.1))
  piles : w'.loop.piles = w.loop.piles.set t (flow.frames ++ rest)
  waits : ∀ u, u ≠ t → w'.loop.waits u = w.loop.waits u
  next : Next t w' flow
  same : w' = land t rest (flow, w)

theorem land_spec (rest : List Frame) {flow : Flow Frame Result} (h : w.loop.Orderly (some t))
    (idle : w.current = none)
    (inside : ∀ c g, flow = .await c g → c < w.loop.cells.length) :
    Landed t rest flow w (land t rest (flow, w)) := by
  have waits (stack : List Frame) (u : TaskId) : (w.setStack t stack).loop.waits u = w.loop.waits u :=
    Loop.waits_setTask_of_waits (fun _ => by rfl) t u w.loop
  have unwaited (stack : List Frame) : (w.setStack t stack).loop.waits t = none :=
    (waits stack t).trans (h.running t rfl).2.1
  have orderly (stack : List Frame) : (w.setStack t stack).loop.Orderly (some t) :=
    h.setStack t fun _ => by rfl
  have moved (stack : List Frame) (current : Option (TaskId × Outcome Result)) :
      Aside w { w.setStack t stack with current := current } :=
    aside_setTask (fun _ => by rfl) t current w
  have piles (stack : List Frame) : (w.setStack t stack).loop.piles = w.loop.piles.set t stack :=
    Loop.piles_setStack t stack w.loop
  have goes (stack : List Frame) (o : Outcome Result) (frames : stack = flow.frames ++ rest)
      (next : Next t ((w.setStack t stack).goOn t o) flow)
      (same : (w.setStack t stack).goOn t o = land t rest (flow, w)) :
      Landed t rest flow w ((w.setStack t stack).goOn t o) :=
    ⟨moved stack _, orderly stack, frames ▸ piles stack, fun u _ => waits stack u, next, same⟩
  cases flow with
  | done o => exact goes rest o rfl ⟨rfl, unwaited _⟩ rfl
  | goto f => exact goes (f :: rest) (.ok .nothing) rfl ⟨rfl, unwaited _⟩ rfl
  | call inner next =>
    exact goes (inner :: next :: rest) (.ok .nothing) rfl ⟨rfl, unwaited _⟩ rfl
  | pause f =>
    have pushed : Aside w ((w.setStack t (f :: rest)).onLoop (·.push (.resume t none))) := by
      refine ⟨rfl, fun A => ?_, List.prefix_append _ _⟩
      refine .of_loop w.current rfl (fun _ => rfl) (fun _ => rfl)
        (Loop.cells_setTask_tasks (fun _ => by rfl) w.loop) fun c hc => ?_
      rcases hc.push with old | new
      · exact old.setTask
      · cases new
    have current : ((w.setStack t (f :: rest)).onLoop (·.push (.resume t none))).current = none := idle
    refine ⟨pushed, ?_, piles _, fun u _ => waits _ u, ⟨current, unwaited _⟩, rfl⟩
    show Loop.Orderly (Option.map _ ((w.setStack t (f :: rest)).onLoop _).current) _
    rw [current]
    exact (orderly (f :: rest)).pause
  | await c f =>
    have landed := land_await rest c f (w := w) (t := t)
    cases settled : (w.setStack t (f :: rest)).loop.outcome? c with
    | some o =>
      rw [settled] at landed
      rw [landed]
      exact goes (f :: rest) o rfl (.inl ⟨o, settled, rfl, unwaited _⟩) landed.symm
    | none =>
      rw [settled] at landed
      rw [landed]
      have spec := suspend_spec (orderly (f :: rest)) (inside c f rfl) settled
      have current : ((w.setStack t (f :: rest)).suspend t c).current = none :=
        spec.current.trans idle
      refine ⟨(moved (f :: rest) w.current).trans spec.aside, ?_, spec.piles.trans (piles _),
        fun u hu => (spec.waits u hu).trans (waits _ u), .inr ⟨current, spec.waiting⟩, landed.symm⟩
      rw [current]
      exact spec.orderly

end World
end LanguageClient
