import LanguageClient.Proofs.Client.Calls
import LanguageClient.Proofs.Roster.Downfall
import LanguageClient.Proofs.Workspace.Ranges

/-!
What it means to stop every session: the roster is empty at once, each session that stood on it is stopped
by a task of its own, and when the time for that is over every one of them has come to its end or its
process has ended or been told to end at once.
-/

namespace LanguageClient

open Schedule

namespace World

variable {w w' : World} {b b' : BackendId} {s : SessionId} {t u : TaskId} {o : Outcome Result}
variable {stops : List (TaskId × SessionId)}

/-- A process has ended, or has been told to end at once. -/
def Struck (b : BackendId) (w : World) : Prop := w.Exited b ∨ .kill ∈ (w.backend b).log

namespace Struck

variable (h : w.Struck b)

include h

theorem of_backends (same : w'.backends = w.backends) : w'.Struck b := by
  have here : w'.backend b = w.backend b := congrArg (fun bs : List Backend => bs.getD b default) same
  rw [Struck, Exited, here]
  exact h

theorem setBackend (b' : BackendId) {f : Backend → Backend}
    (exits : ∀ x, x.exitCode.isSome = true → (f x).exitCode.isSome = true)
    (logs : ∀ x, x.log ⊆ (f x).log) : (w.setBackend b' f).Struck b := by
  rcases backend_setBackend b' b f w with same | ⟨-, same⟩
  · rw [Struck, Exited, same]
    exact h
  · rw [Struck, Exited, same]
    exact h.imp (exits _) fun told => logs _ told

theorem releaseAll (cs : List CellId) : (w.releaseAll cs).Struck b :=
  h.of_backends (backends_releaseAll cs w)

theorem endOutput (b' : BackendId) : (w.endOutput b').Struck b := by
  have finished := h.setBackend b' (f := fun x => { x with output := x.output.finish })
    (fun _ exited => exited) fun _ => List.Subset.refl _
  exact (finished.setBackend b' (f := fun x => { x with readers := [] })
    (fun _ exited => exited) fun _ => List.Subset.refl _).releaseAll _

theorem exit (b' : BackendId) (code : Int) (endsOutput : Bool) : (w.exit b' code endsOutput).Struck b := by
  unfold World.exit
  dsimp only
  have gone := (h.setBackend b' (f := fun x => { x.note (.exit code) with exitCode := some code, waiters := [] })
    (fun _ _ => rfl) fun _ => List.subset_append_left _ _).releaseAll (w.backend b').waiters
  split
  · exact h
  · split
    · exact gone.endOutput b'
    · exact gone

theorem undergo (b' : BackendId) (r : Backend.Reaction) (code : Int) : (w.undergo b' r code).2.Struck b := by
  cases r with
  | leave | gone => exact h.exit b' _ true
  | stay => exact h

theorem killBackend (b' : BackendId) : (w.killBackend b').Struck b := by
  unfold World.killBackend
  dsimp only
  split
  · exact h
  · exact (h.setBackend b' (f := (·.note .kill)) (fun _ exited => exited)
      fun _ => List.subset_append_left _ _).undergo b' _ _

theorem killSession (s : SessionId) : (w.killSession s).Struck b := by
  unfold World.killSession
  split
  · exact h.killBackend _
  · exact h

end Struck

/-- A process that is to be killed has been struck then. -/
theorem struck_killBackend (inside : b < w.backends.length) : (w.killBackend b).Struck b := by
  unfold killBackend
  dsimp only
  split
  · next exited => exact .inl exited
  · have told : (w.setBackend b (·.note .kill)).Struck b := by
      right
      rw [backend_setBackend_self inside]
      exact List.mem_append_right _ (List.mem_singleton_self _)
    exact told.undergo b _ _

theorem struck_killSession (found : (w.session s).backend = some b) (inside : b < w.backends.length) :
    (w.killSession s).Struck b := by
  rw [killSession, found]
  exact struck_killBackend inside

theorem steady_session (s : SessionId) : Steady fun w => w.session s where
  loop _ _ := rfl
  current _ _ := rfl
  backends _ _ := rfl
  plans _ _ := rfl
  connections _ _ := rfl
  sights _ _ := rfl

/-- Stops that are late leave no process of theirs that has not been struck. -/
theorem struck_kills (member : (u, s) ∈ stops) (found : (w.session s).backend = some b)
    (inside : b < w.backends.length) :
    (stops.foldl (fun w stop => (w.killSession stop.2).onLoop (·.cancelTask stop.1)) w).Struck b := by
  have kept (stops : List (TaskId × SessionId)) {w : World} (h : w.Struck b) :
      (stops.foldl (fun w stop => (w.killSession stop.2).onLoop (·.cancelTask stop.1)) w).Struck b := by
    induction stops generalizing w with
    | nil => exact h
    | cons stop rest ih => exact ih ((h.killSession stop.2).of_backends rfl)
  induction stops generalizing w with
  | nil => cases member
  | cons stop rest ih =>
    rcases List.mem_cons.1 member with rfl | later
    · exact kept rest ((struck_killSession found inside).of_backends rfl)
    · have core := (quiet_killSession (A := .none) (R := fun _ => False) stop.2 w).core
      have count : (w.killSession stop.2).backends.length = w.backends.length := by
        simpa [World.core] using congrArg (fun x : Core => x.inboxes.length) core
      refine ih later ?_ (count.symm ▸ inside)
      exact (congrArg Session.backend ((steady_session s).killSession stop.2 w)).trans found

theorem struck_killLate (member : (u, s) ∈ stops) (late : w.loop.taskDone u = false)
    (found : (w.session s).backend = some b) (inside : b < w.backends.length) :
    (w.killLate stops).2.Struck b := by
  have late' : (u, s) ∈ stops.filter fun stop => !w.loop.taskDone stop.1 :=
    List.mem_filter.2 ⟨member, by simp [late]⟩
  have struck := struck_kills late' found inside
  unfold killLate
  dsimp only
  split
  · exact struck
  · exact struck.of_backends rfl

end World

namespace Moment

variable {m : Moment} {w' : World} {t u : TaskId} {s : SessionId} {f : Frame} {o : Outcome Result}
variable {rest : List Frame} {limit : Timeout} {stops : List (TaskId × SessionId)}

/-- All sessions are taken off the roster, and each is stopped by a task that begins at this moment. -/
structure StopsAll (m : Moment) (t : TaskId) (limit : Timeout) (stops : List (TaskId × SessionId)) : Prop where
  runs : ∃ r, m.Runs t (.roster (.stopAll limit)) (.ok r) []
  sessions : stops.map (·.2) = m.world.roster.sessions.map (·.2)
  begin : ∀ u s, (u, s) ∈ stops →
    m.world.loop.tasks.length ≤ u ∧ m.world.step.stack u = [.session s (.stop limit)]
  empty : m.world.step.roster.sessions = [] ∧ m.world.step.roster.lastStarted = none

/-- The time for stops is over: whoever is late is struck. -/
structure CallsTime (m : Moment) (t : TaskId) (stops : List (TaskId × SessionId)) : Prop where
  runs : ∃ timer r, m.Runs t (.roster (.stopsOver stops timer)) (.ok r) []
  struck : ∀ u s, (u, s) ∈ stops → m.world.loop.taskDone u = true ∨
    ∀ b, (m.world.session s).backend = some b → b < m.world.backends.length → m.world.step.Struck b

theorem Goes.of_runs (goes : m.Goes w') (runs : m.Runs t f o rest) : w' = m.world.step := by
  cases goes with
  | step => rfl
  | take idle | tick idle | wait idle =>
    cases idle.symm.trans runs.1

end Moment

namespace World

variable {may : Frame → Prop} {R : CellId → Prop} {w w' w₂ first : World} {t u : TaskId} {s : SessionId}
variable {limit : Timeout} {stops : List (TaskId × SessionId)} {timer : Option TimerId} {r : Result}
variable {begun : List Frame} {flow : Flow Frame Result} {m : Moment} {ms : List Moment}
variable {o o' : Outcome Result}

theorem stopAll_cases (limit : Timeout) (w : World) :
    (w.stopAll limit).2.roster = { w.roster with sessions := [], lastStarted := none } ∧
      ((w.roster.sessions = [] ∧ (w.stopAll limit).1 = .done (.ok .nothing)) ∨
        ∃ c stops timer, (w.stopAll limit).1 = .await c (.roster (.stopsOver stops timer))) := by
  unfold stopAll
  dsimp only
  split
  · next empty => exact ⟨rfl, .inl ⟨List.isEmpty_iff.1 empty, rfl⟩⟩
  · refine ⟨?_, .inr ⟨_, _, _, rfl⟩⟩
    exact steady_roster.spawnStops (w.setRoster fun r => { r with sessions := [], lastStarted := none })
      limit w.roster.sessions

/-- Whoever stops all sessions has none left, or waits for their stops. -/
theorem Strides.stopsAll (strides : Strides R m.world w' t (.roster (.stopAll limit)) (.ok r) [] begun flow w₂)
    (sound : m.world.Sound) (goes : m.Goes w') :
    (flow = .done (.ok .nothing) ∧ m.StopsAll t limit []) ∨
      ∃ c stops timer, flow = .await c (.roster (.stopsOver stops timer)) ∧ m.StopsAll t limit stops := by
  have runs : m.Runs t (.roster (.stopAll limit)) (.ok r) [] := ⟨strides.runs, strides.top⟩
  have after := goes.of_runs runs
  have steps : { m.world with current := none }.stopAll limit = (flow, w₂) := strides.steps
  obtain ⟨roster, which⟩ := stopAll_cases limit { m.world with current := none }
  rw [steps] at roster which
  have empty : m.world.step.roster.sessions = [] ∧ m.world.step.roster.lastStarted = none := by
    have same : m.world.step.roster = w₂.roster := by
      rw [← after, strides.lands.aside.same]
      rfl
    rw [same, roster]
    exact ⟨rfl, rfl⟩
  rcases which with ⟨none, rfl⟩ | ⟨c, stops, timer, rfl⟩
  · refine .inl ⟨rfl, ⟨_, runs⟩, ?_, nofun, empty⟩
    rw [show m.world.roster.sessions = [] from none]
    rfl
  · obtain ⟨begun_, stops_⟩ : begun = m.world.roster.sessions.map (fun e => .session e.2 (.stop limit)) ∧
        stops = (m.world.roster.sessions.map (·.2)).mapIdx fun i s => (m.world.loop.tasks.length + i, s) := by
      have change := strides.turn.change
      generalize w₂.core = x at change
      cases change with
      | quiet frames => cases (frames _ (List.mem_singleton_self _)).plain
      | stopsAll stops_ => exact ⟨rfl, stops_⟩
    subst begun_
    refine .inr ⟨c, stops, timer, rfl, ⟨_, runs⟩, ?_, fun u s member => ?_, empty⟩
    · rw [stops_]
      exact List.ext_getElem (by simp) fun i _ _ => by simp
    · rw [stops_] at member
      obtain ⟨i, inside, same⟩ := List.mem_mapIdx.1 member
      cases same
      refine ⟨Nat.le_add_right _ i, ?_⟩
      rw [← after]
      refine strides.task_begun sound ?_
      rw [List.length_map] at inside
      rw [List.getElem?_map, List.getElem?_eq_getElem inside, List.getElem_map]
      rfl

/-- Whoever has waited for stops strikes those that are late, and waits for them once more. -/
theorem Strides.callsTime
    (strides : Strides R m.world w' t (.roster (.stopsOver stops timer)) (.ok r) [] begun flow w₂)
    (goes : m.Goes w') : m.CallsTime t stops ∧
      (flow = .done (.ok .nothing) ∨ ∃ c, flow = .await c .pass) := by
  have runs : m.Runs t (.roster (.stopsOver stops timer)) (.ok r) [] := ⟨strides.runs, strides.top⟩
  have after := goes.of_runs runs
  obtain ⟨w₀, loop, kept, steps⟩ : ∃ w₀ : World, (∀ u, w₀.loop.taskDone u = m.world.loop.taskDone u) ∧
      (w₀.sessions = m.world.sessions ∧ w₀.backends = m.world.backends) ∧ w₀.killLate stops = (flow, w₂) := by
    have steps : { m.world with current := none }.resumeRoster (.stopsOver stops timer) (.ok r) = (flow, w₂) :=
      strides.steps
    cases timer with
    | none => exact ⟨{ m.world with current := none }, fun _ => rfl, ⟨rfl, rfl⟩, steps⟩
    | some id =>
      exact ⟨onLoop (·.stopTimer id) { m.world with current := none }, fun _ => rfl, ⟨rfl, rfl⟩, steps⟩
  refine ⟨⟨⟨timer, r, runs⟩, fun u s member => ?_⟩, ?_⟩
  · cases done : m.world.loop.taskDone u with
    | true => exact .inl rfl
    | false =>
      refine .inr fun b found inside => ?_
      have found : (w₀.session s).backend = some b := by rwa [session, kept.1]
      have struck := struck_killLate member ((loop u).trans done) found (kept.2 ▸ inside)
      rw [steps] at struck
      rw [← after]
      refine struck.of_backends ?_
      rw [strides.lands.aside.same]
  · have flow_ := congrArg Prod.fst steps
    unfold killLate at flow_
    dsimp only at flow_
    split at flow_
    · exact .inl flow_.symm
    · exact .inr ⟨_, flow_.symm⟩

/-- How far the stop of all sessions has come. -/
inductive Halting (ms : List Moment) (w : World) (t : TaskId) (limit : Timeout) : Prop
  | called (stack : w.stack t = [.roster (.stopAll limit)])
  | waits {stops : List (TaskId × SessionId)} {timer : Option TimerId}
    (stack : w.stack t = [.roster (.stopsOver stops timer)]) (began : ∃ m ∈ ms, m.StopsAll t limit stops)
  | joins {stops : List (TaskId × SessionId)} (stack : w.stack t = [.pass])
    (began : ∃ m ∈ ms, m.StopsAll t limit stops) (struck : ∃ m ∈ ms, m.CallsTime t stops)
  | ended {stops : List (TaskId × SessionId)} {r : Result} (inside : t < w.loop.tasks.length)
    (returned : w.Returned t (.ok r)) (began : ∃ m ∈ ms, m.StopsAll t limit stops)
    (struck : stops = [] ∨ ∃ m ∈ ms, m.CallsTime t stops)
  | failed {e : Failure} (inside : t < w.loop.tasks.length) (returned : w.Returned t (.error e))

theorem Halting.next (h : Halting ms m.world t limit) (sound : m.world.Sound) (goes : m.Goes w')
    (moves : Moves may R m.world w') : Halting (ms ++ [m]) w' t limit := by
  have later {P : Moment → Prop} (h : ∃ m ∈ ms, P m) : ∃ m' ∈ ms ++ [m], P m' :=
    let ⟨m', member, holds⟩ := h
    ⟨m', List.mem_append_left _ member, holds⟩
  have now {P : Moment → Prop} (h : P m) : ∃ m' ∈ ms ++ [m], P m' :=
    ⟨m, List.mem_append_right _ (List.mem_singleton_self m), h⟩
  have within (inside : t < m.world.loop.tasks.length) : t < w'.loop.tasks.length :=
    Nat.lt_of_lt_of_le inside moves.moved.tasks
  cases h with
  | called stack =>
    have inside := within (lt_of_stack (stack ▸ List.mem_singleton_self _))
    rcases sound.single_cases moves.move stack with same | ⟨o, begun, flow, w₂, strides, after⟩
    · exact .called same
    · cases o with
      | error e =>
        have steps : { m.world with current := none }.fail e = (flow, w₂) := strides.steps
        cases steps
        exact .failed inside (.inl ⟨strides.lands.next.1, after⟩)
      | ok r =>
        rcases strides.stopsAll sound goes with ⟨rfl, began⟩ | ⟨c, stops, timer, rfl, began⟩
        · exact .ended inside (.inl ⟨strides.lands.next.1, after⟩) (now began) (.inl rfl)
        · exact .waits after (now began)
  | @waits stops timer stack began =>
    have inside := within (lt_of_stack (stack ▸ List.mem_singleton_self _))
    rcases sound.single_cases moves.move stack with same | ⟨o, begun, flow, w₂, strides, after⟩
    · exact .waits same (later began)
    · cases o with
      | error e =>
        have steps : { m.world with current := none }.resumeRoster (.stopsOver stops timer) (.error e) =
            (flow, w₂) := strides.steps
        obtain ⟨w₀, -, fails⟩ := stopsOver_spec (R := R) stops timer (.error e) { m.world with current := none }
        cases fails.symm.trans steps
        exact .failed inside (.inl ⟨strides.lands.next.1, after⟩)
      | ok r =>
        obtain ⟨struck, rfl | ⟨c, rfl⟩⟩ := strides.callsTime goes
        · exact .ended inside (.inl ⟨strides.lands.next.1, after⟩) (later began) (.inr (now struck))
        · exact .joins after (later began) (now struck)
  | joins stack began struck =>
    have inside := within (lt_of_stack (stack ▸ List.mem_singleton_self _))
    rcases sound.single_cases moves.move stack with same | ⟨o, begun, flow, w₂, strides, after⟩
    · exact .joins same (later began) (later struck)
    · have steps : (Flow.done o, { m.world with current := none }) = (flow, w₂) := strides.steps
      cases steps
      cases o with
      | error e => exact .failed inside (.inl ⟨strides.lands.next.1, after⟩)
      | ok r => exact .ended inside (.inl ⟨strides.lands.next.1, after⟩) (later began) (.inr (later struck))
  | ended inside returned began struck =>
    exact .ended (within inside) (.inr (returned.later moves inside)) (later began) (struck.imp_right later)
  | failed inside returned => exact .failed (within inside) (.inr (returned.later moves inside))

theorem Path.halting (path : Path first ms w) (sound : first.Sound)
    (listens : ∀ a ∈ acts ms, ∀ k owner, a ≠ .listen k owner) (called : Called ms t (.stopAll limit)) :
    Halting ms w t limit := by
  refine path.keeps (I := fun ms w => (∀ a ∈ acts ms, ∀ k owner, a ≠ .listen k owner) →
      Called ms t (.stopAll limit) → Halting ms w t limit)
    (fun _ ⟨_, member, _⟩ => nomatch member) (fun ms m w' path ih goes listens called => ?_) listens called
  rw [acts_next] at listens
  have before (a : Act) (ha : a ∈ acts ms) := listens a (List.mem_append_left _ ha)
  have sound := path.sound sound before
  rcases called_next.1 called with old | ⟨act, rfl⟩
  · exact (ih before old).next sound goes (goes.kept sound fun a act =>
      listens a (List.mem_append_right _ (by simp [act])))
  · exact .called (goes.call act).2.1

variable {config : Config} {settings : Settings} {roots : List Root} {launcher : Roster.Launcher}
variable {ws : Workspace} {shell : Shell} {plans : List Backend.Plan}

/-- When the stop of all sessions has come to its end the roster has been emptied, and every session that
stood on it has got a stop of its own. When the time was over each of these had come to its end, or the
process of its session had ended or was told to end at once. -/
theorem stopAll_strikes_late (made : Workspace.make config settings roots launcher = .ok ws)
    (path : Path (start ws shell plans) ms w) (listens : ∀ a ∈ acts ms, ∀ k owner, a ≠ .listen k owner)
    (called : Called ms t (.stopAll limit)) (done : w.loop.outcome? (w.loop.taskCell t) = some (.ok r)) :
    ∃ stops, (∃ m ∈ ms, m.StopsAll t limit stops) ∧ (stops = [] ∨ ∃ m ∈ ms, m.CallsTime t stops) := by
  obtain ⟨-, -, -, reports⟩ := Workspace.of_make made
  have unused : (start ws shell plans).Unused := unused_start reports
  have sound := path.sound unused.sound listens
  have empty : w.stack t = [] := sound.over_of_done (Option.isSome_iff_exists.2 ⟨_, done⟩)
  cases path.halting unused.sound listens called with
  | called stack | waits stack | joins stack =>
    rw [empty] at stack
    cases stack
  | ended _ _ began struck => exact ⟨_, began, struck⟩
  | failed _ returned => cases sound.returned_unique returned done

end World
end LanguageClient
