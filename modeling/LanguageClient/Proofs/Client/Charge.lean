import LanguageClient.Proofs.Client.Release

/-!
The stop that takes charge of a session: the one that is heard while nobody has asked the session to
stop. It comes to its end without an error, and at that moment nothing is left of the session. It may
have waited for the task that sees to a process which has gone unasked, and then that task has cleared
the session away.
-/

namespace LanguageClient

open Schedule

/-- A call to stop is heard by a session that nobody has asked to stop. -/
def Moment.TakesCharge (m : Moment) (t : TaskId) : Prop :=
  ∃ timeout o rest, m.Runs t (.session 0 (.stop timeout)) o rest ∧
    (m.world.session 0).stopping = false

namespace World

variable {may : Frame → Prop} {R : CellId → Prop} {t u : TaskId} {w w' : World}
variable {o : Outcome Result} {ms : List Moment} {m : Moment}
variable {root : Option Root} {command : List String} {timeout : Timeout} {capacity : Int}
variable {watchers : List Session.Watcher} {plans : List Backend.Plan}

/-- A session has no connection, or it has ended. -/
def Unwired (w : World) : Prop :=
  (w.session 0).connection = none ∨ (w.connection 0).closed = true

/-- A task has cleared a session away. For a process it answers only at its own end, unless there was a
connection: a launch that comes later has to see to its process itself. -/
structure Cleared (w : World) (t : TaskId) : Prop where
  inside : t < w.loop.tasks.length
  returned : ∃ r, w.Returned t (.ok r)
  shut : (w.session 0).bus.closed = true
  unwired : w.Unwired
  vacant : (∃ o, w.Ends t o) ∨ (w.session 0).connection = some 0 → w.Vacant 0

/-- How far a task has come that clears a session away. -/
inductive Clearing (w : World) (t : TaskId) : Prop
  | reaps {p : Session.Stage} (last : (w.stack t).getLast? = some (.session 0 p)) (reaps : p.reaps = true)
  | turns {o : Outcome Result} (runs : w.current = some (t, o)) (stack : w.stack t = [.session 0 .release])
    (vacant : w.Vacant 0)
  | closes (last : (w.stack t).getLast? = some (.session 0 .released))
    (above : w.stack t ≠ [.session 0 .released]) (connected : (w.session 0).connection = some 0)
    (vacant : w.Vacant 0)
  | closed {o : Outcome Result} (runs : w.current = some (t, o))
    (stack : w.stack t = [.session 0 .released]) (vacant : w.Vacant 0) (unwired : w.Unwired)
  | cleared (cleared : w.Cleared t)

/-- How far a stop has come that waits for the task which clears the session away. -/
inductive Joining (w : World) (t u : TaskId) : Prop
  | waits (stack : w.stack t = [.pass]) (waits : w.loop.waits t = some (w.loop.taskCell u))
  | runs {r : Result} (stack : w.stack t = [.pass]) (runs : w.current = some (t, .ok r))
    (cleared : w.Cleared u)
  | cleared (cleared : w.Cleared t)

/-- How far a stop has come that takes charge of a session. -/
inductive Charged (w : World) (t : TaskId) : Prop
  | hears {timeout : Timeout} {o : Outcome Result} (runs : w.current = some (t, o))
    (stack : w.stack t = [.session 0 (.stop timeout)]) (going : (w.session 0).stopping = false)
  | clears (stopped : (w.session 0).state = .stopped) (clearing : w.Clearing t)
  | joins {u : TaskId} (stopped : (w.session 0).state = .stopped)
    (reaper : (w.session 0).reaper = some u) (joining : w.Joining t u)

/-- Nobody gives up a task that waits for another one. -/
theorem Alone.not_due (h : w.Alone) (stack : w.stack t = [.pass]) : ¬ w.loop.due t = true := by
  intro late
  have busy : ¬ Errand (w.stack t) := by
    rw [stack]
    exact fun errand => nomatch errand _ rfl
  obtain ⟨task, found, late⟩ := Loop.due_eq_true.1 late
  obtain ⟨⟨id, n, ⟨rest, top⟩, -⟩, -⟩ := (h.guarded.minds t busy).due task found late
  rw [stack] at top
  cases top

/-- A task that has nowhere to go on any more has cleared the session away. -/
theorem Clearing.cleared_of_empty (h : w.Clearing t) (empty : w.stack t = []) : w.Cleared t := by
  cases h with
  | reaps last | closes last =>
    rw [empty] at last
    cases last
  | turns _ stack | closed _ stack =>
    rw [empty] at stack
    cases stack
  | cleared cleared => exact cleared

/-- What the end of a task tells that clears a session away. -/
theorem Clearing.of_settled (h : w.Clearing t) (sound : w.Sound)
    (settled : w.loop.outcome? (w.loop.taskCell t) = some o) : w.Cleared t ∧ ∃ r, o = .ok r := by
  have cleared := h.cleared_of_empty (sound.over_of_done (Option.isSome_iff_exists.2 ⟨o, settled⟩))
  obtain ⟨r, returned⟩ := cleared.returned
  exact ⟨cleared, r, (sound.returned_unique returned settled).symm⟩

theorem Clearing.inside (h : w.Clearing t) (sound : w.Sound) : t < w.loop.tasks.length := by
  cases h with
  | reaps last | closes last => exact lt_of_stack (List.mem_of_getLast? last)
  | turns runs | closed runs => exact sound.running runs
  | cleared cleared => exact cleared.inside

section Moves

variable (course : Course ms m.world) (moves : Moves may R m.world w') (sound' : w'.Sound)

include course moves in
theorem Unwired.later (h : m.world.Unwired) (past : m.world.Over) : w'.Unwired :=
  h.imp (course.standing.still_unconnected course.alone moves.move past) moves.move.still_closed

include course moves in
/-- A session that has a connection keeps its process. -/
theorem Vacant.later (h : m.world.Vacant 0) (connected : (m.world.session 0).connection = some 0) :
    w'.Vacant 0 := by
  have found := course.alone.spawned_of_connected connected
  exact moves.vacant_later h ((course.alone.backend_later moves.move found).trans found.symm)

include course moves sound' in
theorem Cleared.next (h : m.world.Cleared t) (past : m.world.Over) : w'.Cleared t := by
  obtain ⟨r, returned⟩ := h.returned
  have settled := returned.later moves h.inside
  refine ⟨Nat.lt_of_lt_of_le h.inside moves.moved.tasks, ⟨r, .inr settled⟩,
    course.alone.client.still_shut moves.move h.shut, h.unwired.later course moves past, ?_⟩
  rintro (⟨o, ends⟩ | connected)
  · exact absurd settled (sound'.unsettled_of_ends ends)
  · cases before : (m.world.session 0).connection with
    | none =>
      rw [course.standing.still_unconnected course.alone moves.move past before] at connected
      cases connected
    | some k =>
      have same := course.alone.own before
      subst same
      exact Vacant.later course moves (h.vacant (.inr before)) before

include course moves in
theorem Clearing.reaps_on {p : Session.Stage} (last : (m.world.stack t).getLast? = some (.session 0 p))
    (reaps : p.reaps = true) : w'.Clearing t := by
  have client := course.alone.client
  rcases course.alone.sound.last_cases moves.move last with last | ⟨o, begun, flow, w₂, strides, stack⟩
  · exact .reaps last reaps
  · have fits := course.knowing.fits course.alone strides (.inl rfl)
    cases (strides.conducts client).proceeds (closes_of_reaps reaps) fits with
    | reaps _ last after => exact .reaps (stack ▸ last) after
    | vacates _ flow_ vacant =>
      subst flow_
      refine .turns strides.lands.next.1 stack ?_
      rcases vacant with vacant | vacant
      · exact strides.vacant_later client moves (closes_of_reaps reaps) vacant
      · rw [strides.lands.aside.same]
        exact vacant
    | releases same | released same =>
      subst same
      cases reaps

include course moves in
/-- Once the process has gone, the connection is ended if there is one. -/
theorem Clearing.turns_on (past : m.world.Over) (runs : m.world.current = some (t, o))
    (stack : m.world.stack t = [.session 0 .release]) (vacant : m.world.Vacant 0) : w'.Clearing t := by
  have sound := course.alone.sound
  have client := course.alone.client
  obtain ⟨begun, flow, w₂, strides⟩ := sound.strides_of_runs moves.move ⟨runs, stack⟩
  have stack := strides.stack sound
  have vacant := strides.vacant_later client moves rfl vacant
  have fits := course.knowing.fits course.alone strides (.inl rfl)
  cases (strides.conducts client).proceeds rfl fits with
  | reaps before | vacates before => cases before
  | released same => cases same
  | releases _ flow_ =>
    rcases flow_ with ⟨rfl, none⟩ | ⟨k, rfl, connected⟩
    · exact .closed strides.lands.next.1 stack vacant
        (.inl (course.standing.still_unconnected course.alone moves.move past none))
    · have same := course.alone.own connected
      subst same
      refine .closes ?_ ?_ (course.alone.still_connected moves.move connected) vacant
      · rw [stack]
        rfl
      · rw [stack]
        exact fun same => nomatch same

include course moves in
/-- The end of the connection is waited for, and when the task goes on it has been reached. -/
theorem Clearing.closes_on (last : (m.world.stack t).getLast? = some (.session 0 .released))
    (above : m.world.stack t ≠ [.session 0 .released])
    (connected : (m.world.session 0).connection = some 0) (vacant : m.world.Vacant 0) :
    w'.Clearing t := by
  have sound := course.alone.sound
  have vacant := Vacant.later course moves vacant connected
  by_cases single : w'.stack t = [.session 0 .released]
  · cases sound.fate moves.move t with
    | stays same | wakes _ same => exact absurd (same.symm.trans single) above
    | ends ends =>
      rw [ends.2] at last
      cases last
    | begins new =>
      rw [stack_of_le new] at last
      cases last
    | @goes f o rest begun flow w₂ strides stack =>
      rw [strides.top] at last above
      cases rest with
      | nil => exact absurd (congrArg (fun g => [g]) (Option.some.inj last)) above
      | cons g rest =>
        have same := stack.symm.trans single
        cases flow with
        | done =>
          cases same
          have fits := course.knowing.fits course.alone strides (.inr List.mem_cons_self)
          exact .closed strides.lands.next.1 single vacant
            (.inr (Duties.closed_of_done course.standing course.alone strides fits))
        | _ => cases same
  · have last := (sound.last_cases moves.move last).resolve_right
      fun ⟨_, _, _, _, strides, _⟩ => above strides.top
    exact .closes last single (course.alone.still_connected moves.move connected) vacant

include course moves in
theorem Clearing.closed_on (past : m.world.Over) (runs : m.world.current = some (t, o))
    (stack : m.world.stack t = [.session 0 .released]) (vacant : m.world.Vacant 0)
    (unwired : m.world.Unwired) : w'.Cleared t := by
  have sound := course.alone.sound
  have client := course.alone.client
  obtain ⟨begun, flow, w₂, strides⟩ := sound.strides_of_runs moves.move ⟨runs, stack⟩
  have fits := course.knowing.fits course.alone strides (.inl rfl)
  cases (strides.conducts client).proceeds rfl fits with
  | reaps before | vacates before => cases before
  | releases same => cases same
  | released _ core flow_ =>
    subst flow_
    refine ⟨Nat.lt_of_lt_of_le (sound.running runs) moves.moved.tasks,
      ⟨_, .inl ⟨strides.lands.next.1, strides.stack sound⟩⟩, ?_, unwired.later course moves past,
      fun _ => strides.vacant_later client moves rfl vacant⟩
    rw [← bus_core, strides.lands.aside.core, core, Core.session_setSession_self course.alone.inside]
    rfl

include course moves sound' in
/-- A task that clears a session away goes on with that: it waits until the process has gone, then until
the connection has ended, and then shuts the events. -/
theorem Clearing.next (h : m.world.Clearing t) (past : m.world.Over) : w'.Clearing t := by
  cases h with
  | reaps last reaps => exact reaps_on course moves last reaps
  | turns runs stack vacant => exact turns_on course moves past runs stack vacant
  | closes last above connected vacant => exact closes_on course moves last above connected vacant
  | closed runs stack vacant unwired =>
    exact .cleared (closed_on course moves past runs stack vacant unwired)
  | cleared cleared => exact .cleared (cleared.next course moves sound' past)

include course moves sound' in
/-- A stop that waits for another task hears of its end, and then the session has been cleared away. -/
theorem Joining.next (h : m.world.Joining t u) (reaper : (m.world.session 0).reaper = some u)
    (clearing : m.world.Clearing u) : w'.Joining t u := by
  have sound := course.alone.sound
  obtain ⟨stopped, dead⟩ := course.standing.reaped u reaper
  cases h with
  | cleared cleared => exact .cleared (cleared.next course moves sound' (.inl stopped))
  | waits stack waits =>
    cases sound.fate moves.move t with
    | stays same waits' =>
      refine .waits (same.trans stack) (waits'.trans (waits.trans ?_))
      rw [moves.moved.taskCell u (clearing.inside sound)]
    | wakes _ same before _ runs outcome =>
      -- What the stop hears is what the other task has come to.
      rw [if_neg (course.alone.not_due stack), ← before, waits] at outcome
      rcases outcome with ⟨none, -⟩ | ⟨c, known, settled⟩
      · cases none
      · cases known
        obtain ⟨cleared, r, rfl⟩ := clearing.of_settled sound settled
        exact .runs (same.trans stack) runs (cleared.next course moves sound' (.inl stopped))
    | ends ends =>
      rw [ends.2] at stack
      cases stack
    | begins new =>
      rw [stack_of_le new] at stack
      cases stack
    | goes strides =>
      have none := (sound.orderly.running t (by rw [strides.runs]; rfl)).2.1
      rw [waits] at none
      cases none
  | runs stack runs cleared =>
    obtain ⟨begun, flow, w₂, strides⟩ := sound.strides_of_runs moves.move ⟨runs, stack⟩
    have cleared := cleared.next course moves sound' (.inl stopped)
    have connected := course.alone.still_connected moves.move (course.alone.connected_of_closed dead)
    cases course.alone.client.leads strides with
    | passes =>
      exact .cleared ⟨Nat.lt_of_lt_of_le (sound.running runs) moves.moved.tasks,
        ⟨_, .inl ⟨strides.lands.next.1, strides.stack sound⟩⟩, cleared.shut, cleared.unwired,
        fun _ => cleared.vacant (.inr connected)⟩

include course moves sound' in
/-- The stop that takes charge either clears the session away, or waits for the task that does. -/
theorem Charged.next (h : m.world.Charged t)
    (clearing : ∀ u, (m.world.session 0).reaper = some u → m.world.Clearing u) : w'.Charged t := by
  have alone := course.alone
  have kept (stopped : (m.world.session 0).state = .stopped) := alone.client.stopped moves.move stopped
  cases h with
  | clears stopped h => exact .clears (kept stopped) (h.next course moves sound' (.inl stopped))
  | joins stopped reaper joining =>
    exact .joins (kept stopped) (course.standing.still_reaped alone moves.move reaper)
      (joining.next course moves sound' reaper (clearing _ reaper))
  | hears runs stack going =>
    obtain ⟨begun, flow, w₂, strides⟩ := alone.sound.strides_of_runs moves.move ⟨runs, stack⟩
    have stack := strides.stack alone.sound
    have fits := course.knowing.fits alone strides (.inl rfl)
    cases (strides.conducts alone.client).halts fits with
    | stands asked =>
      rw [going] at asked
      cases asked
    | @joins u reaper _ flow_ =>
      subst flow_
      have stopped := (course.standing.reaped u reaper).1
      have same := moves.moved.taskCell u ((clearing u reaper).inside alone.sound)
      refine .joins (kept stopped) (course.standing.still_reaped alone moves.move reaper) ?_
      rcases strides.lands.next with ⟨o, settled, runs, -⟩ | ⟨-, waits⟩
      · have clearing := (clearing u reaper).next course moves sound' (.inl stopped)
        rw [← same] at settled
        obtain ⟨cleared, r, rfl⟩ := clearing.of_settled sound' settled
        exact .runs stack runs cleared
      · exact .waits stack (waits.trans (congrArg some same.symm))
    | stops core flow_ =>
      refine .clears ?_ ?_
      · rw [← state_core, strides.lands.aside.core, core, Core.session_setSession_self alone.inside]
        rfl
      · rcases flow_ with ⟨grace, rfl⟩ | ⟨k, rfl⟩
        · exact .reaps (p := .shutdown grace) (congrArg List.getLast? stack) rfl
        · exact .reaps (p := .shutdownAnswered _) (congrArg List.getLast? stack) rfl

end Moves

section Histories

variable (path : Path (ofNew root command timeout capacity watchers plans) ms w)
variable (use : ∀ a ∈ acts ms, a.isUse 0 = true)

include path use in
/-- The task that sees to a process which has gone unasked clears the session away. -/
theorem Path.reaper_clears (reaper : (w.session 0).reaper = some u) : w.Clearing u := by
  refine path.keeps (I := fun ms w => (∀ a ∈ acts ms, a.isUse 0 = true) →
      ∀ u, (w.session 0).reaper = some u → w.Clearing u) (fun _ _ same => nomatch same)
    (fun ms m w' path ih goes use u reaper => ?_) use u reaper
  obtain ⟨before, course, moves⟩ := path.course_within use List.prefix_rfl goes
  have sound' := ((path.next goes).course use).alone.sound
  rcases course.alone.reaper_cases moves.move with same | loses
  · rw [same] at reaper
    exact (ih before u reaper).next course moves sound' (.inl (course.standing.reaped u reaper).1)
  · rw [loses.reaper course.alone] at reaper
    cases reaper
    exact .reaps (p := .shutdown Session.killGrace) (congrArg List.getLast? loses.begun) rfl

include path use in
theorem Path.charged (member : m ∈ ms) (charge : m.TakesCharge t) : w.Charged t := by
  refine path.onward (I := fun _ w => w.Charged t) member (fun _ => ?_)
    fun before m w' path within goes h => ?_
  · obtain ⟨before, w', path, goes, within⟩ := path.moment member
    obtain ⟨-, course, -⟩ := path.course_within use within goes
    obtain ⟨timeout, o, rest, ⟨runs, top⟩, going⟩ := charge
    exact .hears runs (course.calls.uses t _ (top ▸ List.mem_cons_self) rfl).1 going
  · obtain ⟨use', course, moves⟩ := path.course_within use within goes
    have sound' := ((path.next goes).course fun a ha => use a ((within.filterMap _).subset ha)).alone.sound
    exact h.next course moves sound' fun u reaper => path.reaper_clears use' reaper

include path use in
/-- The stop that takes charge of a session comes to its end without an error, and at that moment nothing
is left of the session: it has stopped, no process of it runs, and neither its connection nor its events
are open. -/
theorem released_of_charge (member : m ∈ ms) (charge : m.TakesCharge t) (ends : w.Ends t o) :
    (∃ r, o = .ok r) ∧ w.Released := by
  have course := path.course use
  obtain ⟨stopped, cleared⟩ : (w.session 0).state = .stopped ∧ w.Cleared t := by
    cases path.charged use member charge with
    | hears _ stack =>
      rw [ends.2] at stack
      cases stack
    | clears stopped clearing => exact ⟨stopped, clearing.cleared_of_empty ends.2⟩
    | joins stopped _ joining =>
      refine ⟨stopped, ?_⟩
      cases joining with
      | waits stack | runs stack =>
        rw [ends.2] at stack
        cases stack
      | cleared cleared => exact cleared
  refine ⟨?_, course.released_of_vacant stopped (cleared.vacant (.inl ⟨o, ends⟩)) cleared.unwired
    cleared.shut⟩
  obtain ⟨r, ends' | settled⟩ := cleared.returned
  · cases ends.1.symm.trans ends'.1
    exact ⟨r, rfl⟩
  · exact absurd settled (course.alone.sound.unsettled_of_ends ends)

/-- A process goes on without its output, and a stop waits until another task has made it go. -/
example :
    let ready := ((ofNew none ["backend"] .never 8 [] [.standard]).take (.call (.startSession 0))).settle 60
    let bereft := (ready.take (.backend 0 .endOutput)).settle 20
    let asked := (bereft.take (.call (.stopSession 0 Session.stopTimeout))).settle 20
    let past := asked.tick.settle 40
    (bereft.session 0).stopping = false ∧ asked.loop.taskDone 3 = false ∧ (asked.backend 0).exitCode = none ∧
      (past.backend 0).exitCode = some (-15) ∧ past.loop.taskDone 3 = true := by
  decide +kernel

end Histories

end World
end LanguageClient
