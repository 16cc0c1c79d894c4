import LanguageClient.Proofs.Client.Places

/-!
Whom a move of a client can give up: tasks that read from a backend or answer it, and the cell that
the task at work is told to give up. Everything else is left alone, unless a timer goes off.
-/

namespace LanguageClient

open Schedule

namespace Schedule.Loop

variable {φ ρ κ : Type}

theorem givenUp_of_kind {c : CellId} {k : Source} {l : Loop φ ρ κ} (h : l.kind? c = some k)
    (single : ∀ members, k ≠ .group members 0 false) : l.givenUp c = false := by
  unfold givenUp
  unfold kind? at h
  cases found : l.cells[c]? with
  | none => rfl
  | some cell =>
    rw [found] at h
    have same : cell.source.kind = k := Option.some.inj h
    subst same
    dsimp only
    cases source : cell.source with
    | group members =>
      rw [source] at single
      exact absurd rfl (single members)
    | plain => rfl
    | task => rfl
    | countdown => rfl

end Schedule.Loop

namespace World

variable {may : Frame → Prop} {R : CellId → Prop} {t u : TaskId} {c : CellId} {w w' w₂ : World}
variable {f : Frame} {rest begun : List Frame} {o : Outcome Result} {flow : Flow Frame Result}

/-- The cells that may be given up: of tasks that somebody may give up, those that such a task waits
for, and one that the task at work is about to give up. -/
def Near (w : World) (c : CellId) : Prop :=
  (∃ u, w.Refers true u ∧ (c = w.loop.taskCell u ∨ w.loop.waits u = some c)) ∨
    ∃ t o f rest, w.current = some (t, o) ∧ w.stack t = f :: rest ∧ c ∈ f.starts

theorem names_of_starts (h : c ∈ f.starts) : c ∈ f.names := by
  cases f with
  | wait p =>
    cases p with
    | start d timeout => exact h
    | guarded => cases h
    | released => cases h
  | _ => cases h

namespace Client

/-- What may be given up is a task's, or plain. -/
theorem near_kind (h : w.Client) (sound : w.Sound) (near : w.Near c) :
    (∃ u, w.Refers true u ∧ c = w.loop.taskCell u ∧ w.loop.kind? c = some (.task u)) ∨
      w.loop.kind? c = some .plain := by
  rcases near with ⟨u, refers, rfl | waits⟩ | ⟨t, o, f, rest, -, top, hc⟩
  · exact .inl ⟨u, refers, rfl, sound.cells u (sound.refers true u refers)⟩
  · exact .inr (h.plain u c (.inl (h.errands u refers)) waits)
  · exact .inr (sound.names t f (top ▸ List.mem_cons_self) c (names_of_starts hc))

theorem near_inside (h : w.Client) (sound : w.Sound) (near : w.Near c) :
    c < w.loop.cells.length := by
  rcases h.near_kind sound near with ⟨u, -, -, kind⟩ | kind <;> exact Loop.lt_of_kind? kind

theorem shield (h : w.Client) (sound : w.Sound) : w.loop.Shield w.Near (w.Refers true) where
  inside _ := h.near_inside sound
  owner c t near kind := by
    rcases h.near_kind sound near with ⟨u, refers, -, known⟩ | known
    · rw [kind] at known
      cases known
      exact refers
    · rw [kind] at known
      cases known
  members c k near kind := by
    rcases h.near_kind sound near with ⟨u, -, -, known⟩ | known
    · rw [kind] at known
      cases known
      exact fun _ hm => nomatch hm
    · rw [kind] at known
      cases known
      exact fun _ hm => nomatch hm
  waits t c refers waits := .inl ⟨t, refers, .inr waits⟩

theorem covers (h : w.Client) (sound : w.Sound)
    (still : w.current = none → ∀ id rest, w.loop.ready ≠ .fire id :: rest) : w.Covers w.Near where
  inside _ := h.near_inside sound
  refers t refers := .inl ⟨t, refers, .inl rfl⟩
  starts t o f rest runs top c hc := .inr ⟨t, o, f, rest, runs, top, hc⟩
  lates t o f rest runs top u hu := by
    have client := h.places t f (top ▸ List.mem_cons_self)
    cases f with
    | roster => cases client
    | _ => cases hu
  alarms idle id rest ready := absurd ready (still idle id rest)

end Client

/-- A timer goes off. -/
def Fires (w w' : World) (id : TimerId) : Prop :=
  w.current = none ∧ ∃ rest, w.loop.ready = .fire id :: rest ∧
    w' = w.onLoop fun l => ({ l with ready := rest }).fire id .nothing

/-- A move of a client gives up only what is near, unless a timer goes off. -/
theorem Client.goes {m : Moment} (h : m.world.Client) (goes : m.Goes w') (sound : m.world.Sound)
    (tame : ∀ a, m.act = some a → a.isTame = true) :
    (∃ id, m.world.Fires w' id) ∨ Moves m.Begins m.world.Near m.world w' := by
  cases goes with
  | step w =>
    by_cases fires : w.current = none ∧ ∃ id rest, w.loop.ready = .fire id :: rest
    · obtain ⟨idle, id, rest, ready⟩ := fires
      refine .inl ⟨id, idle, rest, ready, ?_⟩
      rw [step, idle, ready]
      rfl
    · refine .inr (step_moves sound (h.covers sound fun idle id rest ready => ?_))
      exact fires ⟨idle, id, rest, ready⟩
  | take idle a =>
    refine .inr (take_moves (sound.calm idle) idle (fun k owner same => ?_) (fun c same => ⟨c, ?_, rfl⟩)
      fun t same => ?_)
    · have bad := tame a rfl
      rw [same] at bad
      cases bad
    · rw [same]
    · have bad := tame a rfl
      rw [same] at bad
      cases bad
  | tick idle => exact .inr (tick_moves (sound.calm idle) idle)
  | wait idle _ => exact .inr (waitUntil_moves (sound.calm idle) idle _)

theorem length_tasks_setTask (t : TaskId) (f : TaskState Frame → TaskState Frame) (w : World) :
    (w.setTask t f).loop.tasks.length = w.loop.tasks.length := Loop.length_tasks_setTask t f w.loop

theorem giveUp_spares (plain : w.loop.kind? c = some .plain) :
    Loop.Spares (· = c) (fun _ => False) w.loop (w.giveUp c).2.loop := by
  have made : Loop.Spares (· = c) (fun _ => False) w.loop
      ((w.loop.newCell .plain).2.watch c (.release w.loop.cells.length)) :=
    (Loop.Spares.newCell rfl w.loop).trans (p := Calm) (.watch c _ _)
      (.of_eq fun d => Loop.outcome?_watch c d _ _)
  have kind : ((w.loop.newCell .plain).2.watch c (.release w.loop.cells.length)).kind? c =
      some .plain :=
    (Loop.kind?_watch _ _ _ _).trans ((Loop.kind?_newCell (Loop.lt_of_kind? plain)).trans plain)
  exact made.trans (Loop.Spares.cancel_plain kind) (p := Calm) (.cancel calm_cancelled c _)

theorem tasks_watchCell (t : TaskId) (c : CellId) (stack : List Frame) (w : World) :
    ((w.setStack t stack).watchCell t c).loop.tasks[t]? =
      (w.loop.tasks[t]?).map fun task => { task with stack := stack, waits := some c } := by
  have watched := Loop.tasks_watch c (.task t) (w.setStack t stack).loop
  simp only [watchCell, setTask, onLoop, Loop.setTask, List.getElem?_modify_eq, watched]
  simp only [setStack, setTask, onLoop, Loop.setTask, List.getElem?_modify_eq]
  cases w.loop.tasks[t]? <;> rfl

/-- A task that lands passes a cancellation on that is due, to a plain cell that it waits for. -/
theorem land_spares (rest : List Frame) {flow : Flow Frame Result}
    (plain : ∀ task c g, w.loop.tasks[t]? = some task → task.cancelDue = true → flow = .await c g →
      w.loop.kind? c = some .plain) :
    Loop.Spares (fun c => w.loop.kind? c = some .plain ∧
      (land t rest (flow, w)).loop.waits t = some c) (· = t) w.loop
      (land t rest (flow, w)).loop := by
  have moved {reach : CellId → Prop} (stack : List Frame) :
      Loop.Spares reach (· = t) w.loop (w.setStack t stack).loop :=
    Loop.Spares.setTask (by rfl) _ _
  cases flow with
  | done => exact moved _
  | goto => exact moved _
  | call => exact moved _
  | pause => exact (moved _).trans (p := Calm) (.push _ _) (.of_eq fun _ => rfl)
  | await c g =>
    rw [land_await]
    split
    · exact moved _
    · let w₁ : World := (w.setStack t (g :: rest)).watchCell t c
      have watched {reach : CellId → Prop} : Loop.Spares reach (· = t) w.loop w₁.loop :=
        ((moved _).trans (p := Calm) (.watch c _ _) (.of_eq fun d => Loop.outcome?_watch c d _ _)).trans
          (p := Calm) (.setTask (by rfl) _ _) (.of_eq fun _ => rfl)
      rw [suspend_eq]
      split
      · next task found =>
        split
        · next due =>
          have found' : w₁.loop.tasks[t]? = some task := found
          rw [tasks_watchCell] at found
          obtain ⟨task', before, rfl⟩ := Option.map_eq_some_iff.1 found
          have kind := plain task' c g before due rfl
          have step : Loop.Op (ρ := Result) Calm (fun _ => True) False w₁.loop (w₁.loop.cancel c).2 :=
            .cancel _ c trivial calm_cancelled
          have waits : (w₁.loop.cancel c).2.waits t = some c := by
            rw [Loop.waits_of_places step.places, Loop.waits_eq, found']
            rfl
          have given : Loop.Spares (· = c) (· = t) w.loop (w₁.loop.cancel c).2 :=
            watched.trans (Loop.Spares.cancel_plain ((Loop.kind?_watch _ _ _ _).trans kind))
              (p := Calm) (.cancel calm_cancelled c _)
          dsimp only
          split
          · have marked := given.trans (p := Calm)
              (Loop.Spares.setTask (by rfl)
                (fun task => { task with cancelDue := false }) _) (.of_eq fun _ => rfl)
            refine marked.mono (fun d hd => ?_) fun _ same => same
            subst hd
            exact ⟨kind, (Loop.waits_setTask_of_waits (fun _ => by rfl) t t _).trans waits⟩
          · refine given.mono (fun d hd => ?_) fun _ same => same
            subst hd
            exact ⟨kind, waits⟩
        · exact watched
      · exact watched

/-- A task that no cancellation is due for just lands. -/
theorem land_calm (rest : List Frame) (flow : Flow Frame Result) {task : TaskState Frame}
    (found : w.loop.tasks[t]? = some task) (calm : task.cancelDue = false)
    (unwaited : task.waits = none) :
    ∃ task', (land t rest (flow, w)).loop.tasks[t]? = some task' ∧ task'.cancelDue = false ∧
      task'.cancels = task.cancels ∧
      ∀ c, task'.waits = some c → (land t rest (flow, w)).loop.outcome? c = none := by
  have moved (stack : List Frame) : (w.setStack t stack).loop.tasks[t]? =
      some { task with stack := stack } := by
    simp only [setStack, setTask, onLoop, Loop.setTask, List.getElem?_modify_eq, found]
    rfl
  have stays (stack : List Frame) {w' : World} (same : w'.loop.tasks[t]? =
      some { task with stack := stack }) : ∃ task', w'.loop.tasks[t]? = some task' ∧
      task'.cancelDue = false ∧ task'.cancels = task.cancels ∧
      ∀ c, task'.waits = some c → w'.loop.outcome? c = none := by
    refine ⟨_, same, calm, rfl, fun c waits => ?_⟩
    rw [unwaited] at waits
    cases waits
  cases flow with
  | done => exact stays _ (moved _)
  | goto => exact stays _ (moved _)
  | call => exact stays _ (moved _)
  | pause => exact stays _ (moved _)
  | await c g =>
    rw [land_await]
    split
    · exact stays _ (moved _)
    · next unsettled =>
      have watched : ((w.setStack t (g :: rest)).watchCell t c).loop.tasks[t]? =
          some { task with stack := g :: rest, waits := some c } := by
        rw [tasks_watchCell, found]
        rfl
      have same : (w.setStack t (g :: rest)).suspend t c = (w.setStack t (g :: rest)).watchCell t c := by
        rw [suspend_eq, watched]
        dsimp only
        rw [calm]
        rfl
      rw [same]
      refine ⟨_, watched, calm, rfl, fun d waits => ?_⟩
      cases waits
      exact (Loop.outcome?_watch c c _ _).trans unsettled

/-- What a wait does to the loop: to the timers, to the task, and to a cell that it gives up. -/
inductive Times (t : TaskId) (l : Loop Frame Result Notice) (w' : World) :
    Wait → Outcome Result → Flow Frame Result → Prop
  | spares {p : Wait} {o : Outcome Result} {flow : Flow Frame Result}
    (other : ∀ id n, p ≠ .guarded id n) (stays : ∀ id n, .wait (.guarded id n) ∉ flow.frames)
    (loop : Loop.Spares (· ∈ (Frame.wait p).starts) (fun _ => False) l w'.loop) :
    Times t l w' p o flow
  | sets {c : CellId} {span : Int} {r : Result} {due : Time}
    (timers : w'.loop.timers = l.timers ++ [⟨l.nextTimer, due, .expire t⟩])
    (next : w'.loop.nextTimer = l.nextTimer + 1) (expired : w'.loop.expired = l.expired)
    (tasks : w'.loop.tasks = l.tasks) (cells : w'.loop.cells = l.cells) :
    Times t l w' (.start c (.after span)) (.ok r)
      (.await c (.wait (.guarded l.nextTimer (w'.cancels t))))
  | takes {id : TimerId} {n : Nat} {o o' : Outcome Result}
    (tasks : ∃ m : Nat → Nat, w'.loop.tasks = l.tasks.modify t fun task =>
      { task with cancels := m task.cancels })
    (cells : w'.loop.cells = l.cells) (next : w'.loop.nextTimer = l.nextTimer)
    (h : (id ∈ l.expired ∧ w'.loop.timers = l.timers ∧
        w'.loop.expired = l.expired.filter (· ≠ id)) ∨
      (id ∉ l.expired ∧ w'.loop.expired = l.expired ∧
        w'.loop.timers = l.timers.filter fun timer => timer.id ≠ id)) :
    Times t l w' (.guarded id n) o (.done o')

theorem resumeWait_times (p : Wait) (o : Outcome Result)
    (plain : ∀ c ∈ (Frame.wait p).starts, w.loop.kind? c = some .plain) :
    Times t w.loop (w.resumeWait t p o).2 p o (w.resumeWait t p o).1 := by
  have leaves {p : Wait} {o : Outcome Result} {flow : Flow Frame Result}
      (other : ∀ id n, p ≠ .guarded id n) (stays : ∀ id n, .wait (.guarded id n) ∉ flow.frames) :
      Times t w.loop w p o flow := .spares other stays (.refl _)
  cases p with
  | start c timeout =>
    have other : ∀ id n, Wait.start c timeout ≠ .guarded id n := by simp
    cases o with
    | error e => exact leaves other fun _ _ => by simp [resumeWait, Flow.frames]
    | ok r =>
      cases timeout with
      | never => exact leaves other fun _ _ => by simp [resumeWait, startWait, Flow.frames]
      | after span =>
        simp only [resumeWait, startWait]
        split
        · refine @Times.sets _ _ _ _ _ _ (w.loop.now + span.toNat) ?_ ?_ ?_ ?_
            (Loop.cells_setTimer span _ w.loop)
          all_goals
            simp only [guardTask, Loop.setTimer]
            split <;> rfl
        · split
          · exact leaves other fun _ _ => by simp [Flow.frames]
          · have given := giveUp_spares (plain c (List.mem_singleton_self c))
            exact .spares other (fun _ _ => by simp [Flow.frames])
              (given.mono (fun d hd => List.mem_singleton.2 hd) fun _ bad => bad)
  | guarded id n =>
    have open_ : w.resumeWait t (.guarded id n) o = w.endWait t id n o := by cases o <;> rfl
    rw [open_, endWait, unguard]
    by_cases ran : w.loop.expired.contains id = true
    · rw [if_pos ran]
      have late : id ∈ w.loop.expired := by simpa using ran
      dsimp only
      split <;> exact .takes ⟨(· - 1), rfl⟩ rfl rfl (.inl ⟨late, rfl, rfl⟩)
    · rw [if_neg ran]
      have same : w.loop.tasks = w.loop.tasks.modify t fun task =>
          { task with cancels := (fun n => n) task.cancels } := (List.modify_id t w.loop.tasks).symm
      exact .takes ⟨fun n => n, same⟩ rfl rfl (.inr ⟨by simpa using ran, rfl, rfl⟩)
  | released c =>
    have other : ∀ id n, Wait.released c ≠ .guarded id n := by simp
    cases o with
    | error e => exact leaves other fun _ _ => by simp [resumeWait, Flow.frames]
    | ok r =>
      rw [resumeWait]
      split <;> exact leaves other fun _ _ => by simp [Flow.frames]

/-- A wait leaves other tasks alone. -/
theorem Times.leaves {l : Loop Frame Result Notice} {p : Wait} (h : Times t l w' p o flow) :
    Loop.Leaves (· ∈ (Frame.wait p).starts) (· = t) l w'.loop := by
  cases h with
  | spares _ _ loop => exact loop.toLeaves.mono (fun _ hd => hd) fun _ bad => bad.elim
  | sets _ _ _ tasks cells => exact .of_eq tasks cells
  | takes tasks cells =>
    obtain ⟨m, tasks⟩ := tasks
    refine .of_same (fun u hu => ?_) (fun c before after => ?_) (Loop.givenUp_of_cells cells)
      (by rw [tasks, List.length_modify])
    · rw [tasks]
      simp [Ne.symm hu]
    · rw [Loop.outcome?, cells, ← Loop.outcome?, before] at after
      cases after

theorem Times.task {l : Loop Frame Result Notice} {p : Wait} (h : Times t l w' p o flow)
    (inside : t < l.tasks.length) {task : TaskState Frame} (found : w'.loop.tasks[t]? = some task) :
    ∃ n, l.tasks[t]? = some { task with cancels := n } := by
  cases h with
  | spares _ _ loop => exact ⟨task.cancels, (loop.task t inside fun bad => bad) ▸ found⟩
  | sets _ _ _ tasks => exact ⟨task.cancels, tasks ▸ found⟩
  | takes tasks =>
    obtain ⟨m, tasks⟩ := tasks
    rw [tasks, List.getElem?_modify_eq] at found
    obtain ⟨task', before, rfl⟩ := Option.map_eq_some_iff.1 found
    exact ⟨task'.cancels, before⟩

/-- The task that a move is about. -/
def Mover (w w' : World) (t : TaskId) : Prop :=
  ∃ o, w.current = some (t, o) ∨ w'.current = some (t, o)

/-- What a move may cancel: what is near, the cell of a task, and what the task at work comes to wait
for. -/
def Touched (w w' : World) (c : CellId) : Prop :=
  w.Near c ∨ (∃ t, w'.loop.kind? c = some (.task t)) ∨
    (w'.loop.kind? c = some .plain ∧ ∃ t, Mover w w' t ∧ w'.loop.waits t = some c)

/-- The tasks that a move may mark. -/
def Marked (w w' : World) (t : TaskId) : Prop := w.Refers true t ∨ Mover w w' t

/-- A move that lets no timer go off. -/
inductive Mild (w w' : World) : Prop
  | plain (loop : Loop.Spares (Touched w w') (Marked w w') w.loop w'.loop)
    (other : ∀ t o p rest, w.current = some (t, o) → w.stack t ≠ .wait p :: rest)
  | waits {t : TaskId} {p : Wait} {o : Outcome Result} {rest begun : List Frame}
    {flow : Flow Frame Result} {w₂ : World} (strides : Strides w.Near w w' t (.wait p) o rest begun flow w₂)
    (times : Times t w.loop w₂ p o flow) (landed : Loop.Spares (Touched w w') (· = t) w₂.loop w'.loop)
    (loop : Loop.Leaves (Touched w w') (Marked w w') w.loop w'.loop)

theorem Mild.leaves (h : Mild w w') :
    Loop.Leaves (Touched w w') (Marked w w') w.loop w'.loop := by
  cases h with
  | plain loop => exact loop.toLeaves
  | waits _ _ _ leaves => exact leaves

/-- A step that is no wait's gives up only what is near. -/
theorem Client.steps (h : w.Client) (sound : w.Sound) (s : Strides w.Near w w' t f o rest begun flow w₂)
    (other : ∀ p, f ≠ .wait p) : Loop.Spares w.Near (w.Refers true) w.loop w₂.loop := by
  have client := h.places t f (s.top ▸ List.mem_cons_self)
  have calm : ¬ (Answers { w with current := none } f).guards := by
    cases f with
    | wait p => exact absurd rfl (other p)
    | roster => cases client
    | _ => exact Bool.false_ne_true
  exact .ops (h.shield sound) calm s.turn.keeps.ops

theorem Client.mild (h : w.Client) (sound : w.Sound) (m : Moves may w.Near w w')
    (due : ∀ t o task, w.current = some (t, o) → w.loop.tasks[t]? = some task →
      task.cancelDue = true → Errand (w.stack t)) :
    (w.current = none ∧ w'.current = none ∧ ∃ id rest, w.loop.ready = .fire id :: rest ∧
      w'.loop = ({ w.loop with ready := rest }).fire id .nothing) ∨ Mild w w' := by
  cases m.move with
  | @rests begun l allowed idle idle' core piles waits pops queue calms refers =>
    rcases calms with ⟨id, rest, ready, same⟩ | spares
    · exact .inl ⟨idle, idle', id, rest, ready, same⟩
    · refine .inr (.plain ((spares _ (h.shield sound)).mono (fun _ near => .inl near) fun _ => .inl) ?_)
      simp [idle]
  | @ends t o ends _ _ _ _ _ _ same =>
    have inside := sound.cells t (sound.running ends.1)
    refine .inr (.plain ?_ fun u o' p rest runs top => ?_)
    · subst same
      exact .settle (fun _ => .inr (.inl ⟨t, (Loop.kind?_settle _ _ _ _).trans inside⟩)) w.loop
    · rw [ends.1] at runs
      cases runs
      rw [ends.2] at top
      cases top
  | @wakes t waited o idle ready going runs _ _ _ _ same =>
    refine .inr (.plain ?_ (by simp [idle]))
    generalize left : w'.loop.ready = queue at same
    subst same
    have popped {reach : CellId → Prop} {marked : TaskId → Prop} :
        Loop.Spares reach marked w.loop { w.loop with ready := queue } :=
      .of_leaves (.of_eq rfl rfl) rfl rfl rfl
    exact popped.trans (p := Calm) (.setTask (.inr ⟨o, .inr rfl⟩) _ _) (.of_eq fun _ => rfl)
  | @goes t o f rest begun flow w₀ w₂ runs top taken steps turn lands =>
    subst taken
    have strides : Strides w.Near w w' t f o rest begun flow w₂ := ⟨runs, top, steps, turn, lands⟩
    have mover : Mover w w' t := ⟨o, .inl runs⟩
    have settles : Loop.Settles Calm w₂.loop w'.loop := (lands.aside.kept .none).settles
    have landed (plain : ∀ task c g, w₂.loop.tasks[t]? = some task → task.cancelDue = true →
        flow = .await c g → w₂.loop.kind? c = some .plain) :
        Loop.Spares (Touched w w') (· = t) w₂.loop w'.loop := by
      have spares := land_spares rest plain
      rw [← lands.same] at spares
      refine spares.mono (fun c ⟨kind, waits⟩ => .inr (.inr ⟨?_, t, mover, waits⟩)) fun _ same => same
      exact ((lands.aside.kept .none).kind c (Loop.lt_of_kind? kind)).trans kind
    have marks : ∀ u, u = t → Marked w w' u := fun u same => .inr (same ▸ mover)
    have linked : Linked (f :: rest) := top ▸ h.linked t
    by_cases wait : ∃ p, f = .wait p
    · obtain ⟨p, rfl⟩ := wait
      have times : Times t w.loop w₂ p o flow := by
        have known := resumeWait_times (t := t) (w := { w with current := none }) p o fun c hc =>
          sound.names t _ (top ▸ List.mem_cons_self) c (names_of_starts hc)
        have steps' : { w with current := none }.resumeWait t p o = (flow, w₂) := steps
        rwa [steps'] at known
      have landed := landed fun task c g found late _ => by
        obtain ⟨n, before⟩ := times.task (sound.running runs) found
        rcases (top ▸ due t o _ runs before late : Errand _).top linked with serves | drains
        · cases serves
        · cases drains
      refine .inr (.waits strides times landed ((times.leaves.mono (fun c hc => .inl ?_) marks).trans
        (landed.toLeaves.mono (fun _ touched => touched) marks) settles))
      exact .inr ⟨t, o, _, rest, runs, top, hc⟩
    · have stepped := h.steps sound strides fun p same => wait ⟨p, same⟩
      have landed := landed fun task c g found late same => by
        subst same
        have errand : Errand (f :: rest) := by
          rw [← top]
          by_cases refers : w.Refers true t
          · exact h.errands t refers
          · exact due t o task runs (stepped.task t (sound.running runs) refers ▸ found) late
        exact h.plain_await sound strides (.inl (errand.goes (h.leads strides)))
      refine .inr (.plain ((stepped.mono (fun _ near => .inl near) fun _ => .inl).trans
        (landed.mono (fun _ touched => touched) marks) settles) fun u o' p rest' runs' top' => ?_)
      rw [runs] at runs'
      cases runs'
      rw [top] at top'
      exact wait ⟨p, (List.cons_eq_cons.1 top').1⟩

end World
end LanguageClient
