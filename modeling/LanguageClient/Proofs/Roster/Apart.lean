import LanguageClient.Proofs.Client.Near
import LanguageClient.Proofs.Schedule.Apart

/-!
Nobody but who has called knows of the task of a call before its turn: as long as it is not cancelled from
outside, no cancellation comes to it.
-/

namespace LanguageClient

open Schedule

namespace World

variable {may : Frame → Prop} {R : CellId → Prop} {t u : TaskId} {w w' w₂ : World}
variable {f : Frame} {rest begun : List Frame} {o : Outcome Result} {flow : Flow Frame Result}

/-- Nobody knows of a task, and nobody will have it given up. -/
structure Apart (w : World) (t : TaskId) : Prop where
  loop : w.loop.Apart t
  refers : ∀ drops, ¬ w.Refers drops t
  lates : ∀ u, ∀ f ∈ w.stack u, t ∉ f.lates

theorem Unused.apart (h : w.Unused) (t : TaskId) : w.Apart t where
  loop := by
    rw [h.loop]
    exact ⟨rfl, fun _ => List.not_mem_nil, fun _ _ => nofun, fun _ _ => nofun⟩
  refers drops := h.refers drops t
  lates u f hf := by
    rw [h.stack u] at hf
    cases hf

theorem far_taskCell (sound : w.Sound) (inside : u < w.loop.tasks.length) (other : u ≠ t) :
    w.loop.Far t (w.loop.taskCell u) :=
  .of_kind (sound.cells u inside) fun same => other (Source.task.inj same)

theorem far_of_names (sound : w.Sound) (hf : f ∈ w.stack u) {c : CellId} (hc : c ∈ f.names) :
    w.loop.Far t c :=
  .of_kind (sound.names u f hf c hc) nofun

theorem Apart.covers (h : w.Apart t) (sound : w.Sound) : w.Covers (w.loop.Far t) where
  inside _ far := far.1
  refers u refers := far_taskCell sound (sound.refers true u refers) fun same => h.refers true (same ▸ refers)
  starts u o f rest _ top c hc := far_of_names sound (top ▸ List.mem_cons_self) (names_of_starts hc)
  lates u o f rest _ top v hv := by
    have there : f ∈ w.stack u := top ▸ List.mem_cons_self
    exact far_taskCell sound (sound.lates u f there v hv) fun same => h.lates u f there (same ▸ hv)
  alarms _ _ _ _ timer member _ u alarm inside := by
    refine far_taskCell sound inside fun same => ?_
    exact h.loop.alarms timer.id (Loop.mem_alarms.2 ⟨timer, member, rfl, same ▸ alarm⟩)

/-- A task that lands leaves another one apart. -/
theorem apart_land (h : w.loop.Apart t) (other : u ≠ t) (rest : List Frame)
    (far : ∀ c g, flow = .await c g → w.loop.Far t c) : (land u rest (flow, w)).loop.Apart t := by
  have moved (stack : List Frame) : (w.setStack u stack).loop.Apart t :=
    h.setTask other fun _ _ waits => .inl waits
  cases flow with
  | done | goto | call => exact moved _
  | pause => exact (moved _).aside rfl rfl (List.Subset.refl _)
  | await c g =>
    rw [land_await]
    split
    · exact moved _
    · have far : (w.setStack u (g :: rest)).loop.Far t c := far c g rfl
      have near : (((w.setStack u (g :: rest)).onLoop (·.watch c (.task u))).loop).Far t c :=
        far.keep (Nat.le_of_eq (Loop.length_cells_watch c _ _).symm) (Loop.kind?_watch c c _ _)
      have watched : ((w.setStack u (g :: rest)).watchCell u c).loop.Apart t := by
        refine ((moved (g :: rest)).watch c (.task u)).setTask other fun task d waits => ?_
        cases waits
        exact .inr near
      rw [suspend_eq]
      split
      · split
        · have given : (((w.setStack u (g :: rest)).watchCell u c).loop.cancel c).2.Apart t :=
            watched.cancel near
          dsimp only
          split
          · exact given.setTask other fun _ _ waits => .inl waits
          · exact given
        · exact watched
      · exact watched

/-- Stops that take too long are given up without setting a timer. -/
theorem stopsOver_alarms {stops : List (TaskId × SessionId)} (timer : Option TimerId) (o : Outcome Result)
    (inside : ∀ stop ∈ stops, w.loop.taskCell stop.1 < w.loop.cells.length) {e : TimerId × TaskId}
    (he : e ∈ Loop.alarms (w.resumeRoster (.stopsOver stops timer) o).2.loop.timers) :
    e ∈ Loop.alarms w.loop.timers := by
  cases o with
  | error =>
    cases timer with
    | none => exact he
    | some => exact Loop.alarms_subset List.filter_sublist.subset he
  | ok r =>
    have kills (w : World) (inside : ∀ stop ∈ stops, w.loop.taskCell stop.1 < w.loop.cells.length) :
        Loop.alarms (w.killLate stops).2.loop.timers = Loop.alarms w.loop.timers := by
      have follows : Frame.pass.Follows .pass := ⟨⟨rfl, id, fun _ _ h => h⟩, fun _ _ h => h⟩
      have turn : Turn (· < w.loop.cells.length) w .pass (.ok r) [] (w.killLate stops) :=
        killLate_turn (.refl w) (fun _ hc => hc) inside follows rfl
      exact turn.keeps.ops.alarms_eq Bool.false_ne_true
    cases timer with
    | none => exact kills w inside ▸ he
    | some id =>
      have before : e ∈ Loop.alarms (w.loop.stopTimer id).timers :=
        kills (w.onLoop (·.stopTimer id)) inside ▸ he
      exact Loop.alarms_subset List.filter_sublist.subset before

/-- A task sets a timer for nobody but itself. -/
theorem Strides.alarms (strides : Strides R w w' u f o rest begun flow w₂) (sound : w.Sound)
    {id : TimerId} (h : (id, t) ∈ Loop.alarms w₂.loop.timers) (other : u ≠ t) :
    (id, t) ∈ Loop.alarms w.loop.timers := by
  have there : f ∈ w.stack u := strides.top ▸ List.mem_cons_self
  have steps := strides.steps
  -- timers for tasks are set where a wait with a limit or a round of stops goes on, and nowhere else
  by_cases guards : f.guards = true
  · cases f with
    | wait p =>
      have times : Times u w.loop w₂ p o flow := by
        have known := resumeWait_times (t := u) (w := { w with current := none }) p o fun c hc =>
          sound.names u _ there c (names_of_starts hc)
        have steps : { w with current := none }.resumeWait u p o = (flow, w₂) := steps
        rwa [steps] at known
      cases times with
      | spares _ _ loop => exact loop.alarms ▸ h
      | sets timers =>
        rw [timers] at h
        obtain ⟨timer, member, named, alarm⟩ := Loop.mem_alarms.1 h
        rcases List.mem_append.1 member with old | new
        · exact Loop.mem_alarms.2 ⟨timer, old, named, alarm⟩
        · cases List.mem_singleton.1 new
          exact absurd (Alarm.expire.inj alarm) other
      | takes _ _ _ which =>
        rcases which with ⟨-, timers, -⟩ | ⟨-, -, timers⟩
        · exact timers ▸ h
        · rw [timers] at h
          exact Loop.alarms_subset List.filter_sublist.subset h
    | roster p =>
      cases p with
      | stopsOver stops timer =>
        have steps : { w with current := none }.resumeRoster (.stopsOver stops timer) o = (flow, w₂) := steps
        have inside (stop : TaskId × SessionId) (hs : stop ∈ stops) :
            w.loop.taskCell stop.1 < w.loop.cells.length :=
          sound.inside (sound.lates u _ there stop.1 (List.mem_map_of_mem hs))
        have ends := stopsOver_alarms (w := { w with current := none }) timer o inside (e := (id, t))
        rw [steps] at ends
        exact ends h
      | _ => cases guards
    | _ => cases guards
  · exact (strides.turn.keeps.ops.alarms_eq guards) ▸ h

namespace Apart

variable {m : Moment}

section Move

variable (h : w.Apart t) (sound : w.Sound) (moves : Moves may (w.loop.Far t) w w')
variable (still : ∀ o, w.current ≠ some (t, o)) (asleep : ∀ o, w'.current ≠ some (t, o))

include h sound still in
/-- A step of another task. -/
theorem goes (strides : Strides (w.loop.Far t) w w' u f o rest begun flow w₂) : w'.loop.Apart t := by
  have other : u ≠ t := fun same => still o (same ▸ strides.runs)
  have ops := strides.turn.keeps.ops
  have stepped : w₂.loop.Apart t :=
    h.loop.ops ops fun id alarm => h.loop.alarms id (strides.alarms sound alarm other)
  have kept {c : CellId} (far : w.loop.Far t c) : w₂.loop.Far t c :=
    far.keep ops.length_cells (ops.kind? far.1)
  rw [strides.lands.same]
  refine apart_land stepped other rest fun c g same => ?_
  -- it waits for a cell that it names, for a task that it keeps track of, or for what it has just made
  rcases strides.turn.awaits.cell c g same with named | ⟨drops, v, known, rfl⟩ | made
  · exact kept (far_of_names sound (strides.top ▸ List.mem_cons_self) named)
  · refine kept (far_taskCell sound (sound.refers drops v known.aside) fun same => ?_)
    exact h.refers drops (same ▸ known.aside)
  · refine ⟨made.inside, fun same => ?_⟩
    exact (made.members _ same).1 t rfl

include h sound moves still asleep in
theorem loop_move : w'.loop.Apart t := by
  have moved := moves.moved
  cases moves.move with
  | rests _ _ _ _ _ waits _ _ calms _ _ _ members =>
    rcases calms with ⟨id, rest, -, same⟩ | spares
    · rw [same]
      have popped : ({ w.loop with ready := rest } : Loop Frame Result Notice).Apart t :=
        h.loop.aside rfl rfl (List.Subset.refl _)
      exact popped.fire (fun u other inside => far_taskCell sound inside other) id .nothing
    · exact h.loop.spared (spares _ h.loop.shield) waits moved.cells moved.kind members
  | ends _ _ _ _ _ _ _ same =>
    rw [same]
    exact h.loop.settle _ _
  | @wakes u waited o _ _ _ runs _ _ _ _ same =>
    rw [same]
    have popped : ({ w.loop with ready := w'.loop.ready } : Loop Frame Result Notice).Apart t :=
      h.loop.aside rfl rfl (List.Subset.refl _)
    exact popped.setTask (fun here => asleep o (here ▸ runs)) fun _ _ waits => nomatch waits
  | @goes u o f rest begun flow w₀ w₂ runs top taken steps turn lands =>
    subst taken
    exact h.goes sound still ⟨runs, top, steps, turn, lands⟩

end Move

/-- A task stays apart that does not run, unless somebody cancels it. -/
theorem next (h : m.world.Apart t) (sound : m.world.Sound) (goes : m.Goes w')
    (listens : ∀ a, m.act = some a → ∀ k owner, a ≠ .listen k owner)
    (spared : t < m.world.loop.tasks.length → m.act ≠ some (.cancel t))
    (still : ∀ o, m.world.current ≠ some (t, o)) (asleep : ∀ o, w'.current ≠ some (t, o))
    (called : m.world.loop.tasks.length ≤ t → w'.loop.tasks.length ≤ t ∨ ∃ c, m.act = some (.call c)) :
    w'.Apart t := by
  have moves := goes.covered sound (h.covers sound) listens fun u act inside =>
    far_taskCell sound inside fun same => spared (same ▸ inside) (same ▸ act)
  refine ⟨h.loop_move sound moves still asleep, fun drops refers => ?_, fun u f hf late => ?_⟩
  · rcases moves.moved.refers drops t refers with old | ⟨new, inside⟩
    · exact h.refers drops old
    · -- a task that is new is known to who has begun it, unless a call from outside has
      obtain ⟨c, act⟩ := (called new).resolve_left (Nat.not_le.2 inside)
      cases goes with
      | take =>
        cases act
        exact h.refers drops refers.aside
      | _ => cases act
  · rcases sound.frame_cases moves.move hf with old | ⟨c, -, rfl⟩ |
      ⟨v, o, g, rest, begun, flow, w₂, runs, -, turn, lands, step | begun⟩
    · exact h.lates u f old late
    · rw [(frame_first c).2] at late
      cases late
    · have count : w₂.loop.tasks.length = m.world.loop.tasks.length + begun.length :=
        length_tasks_of_ops turn.keeps.ops
      have bounds := turn.change.lates f step t late
      rcases called bounds.1 with out | ⟨c, act⟩
      · have grown := (lands.aside.kept .none).tasks
        exact absurd (Nat.lt_of_lt_of_le (count ▸ bounds.2) grown) (Nat.not_lt.2 out)
      · cases goes with
        | take idle =>
          rw [idle] at runs
          cases runs
        | _ => cases act
    · rw [(turn.change.firsts f begun).2] at late
      cases late

end Apart
end World
end LanguageClient
