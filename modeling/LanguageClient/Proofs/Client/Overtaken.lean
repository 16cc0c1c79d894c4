import LanguageClient.Proofs.Client.Release

/-!
A start that a stop overtakes ends without an error: it reports nothing, and it goes on only to see to
the end of its process. It fails only if it still waits for a process and there is none to be had, and
whatever it fails with is a failure to launch.
-/

namespace LanguageClient

open Schedule

namespace Session.Stage

/-- Stages of a start that has a process. -/
def attends : Stage → Bool
  | .initializeAnswered | .initializedSent | .flushed => true
  | _ => false

end Session.Stage

/-- A start hears that there is no process to be had for it. -/
def Moment.Refuses (m : Moment) (t : TaskId) (b : BackendId) (reason : String) : Prop :=
  ∃ o rest, m.Runs t (.session 0 (.launched b)) o rest ∧
    (m.world.backend b).plan.spawnError = some reason

namespace World

variable {may : Frame → Prop} {R : CellId → Prop} {t u : TaskId} {w w' w₂ first : World}
variable {f g : Frame} {rest begun : List Frame} {o : Outcome Result} {flow : Flow Frame Result}
variable {s : SessionId} {p : Session.Stage} {e : Failure} {ms : List Moment} {m : Moment} {b : BackendId}
variable {root : Option Root} {command : List String} {timeout limit : Timeout} {capacity : Int}
variable {watchers : List Session.Watcher} {plans : List Backend.Plan} {r : Result}

/-- Of a session that has been asked to stop the process goes again, if there is one. -/
theorem launched_of_stopping (asked : (w.session s).stopping = true) :
    (w.launched s b).1 = .goto (.session s (.shutdown (.after 0))) ∨
      ∃ reason, (w.backend b).plan.spawnError = some reason ∧
        (w.launched s b).1 = .done (.error (.launch (w.session s).key reason)) := by
  unfold launched
  split
  · next reason refused => exact .inr ⟨reason, refused, rfl⟩
  · have still : (((w.beginBackend b).setSession s fun x => { x with backend := some b }).session s).stopping =
        true := by
      rcases session_setSession s s (fun x => { x with backend := some b }) (w.beginBackend b) with
        same | ⟨-, same⟩ <;>
      · rw [same]
        exact asked
    dsimp only
    rw [if_pos still]
    exact .inl rfl

/-- A start that has a process goes on, if it has been stopped, to its end or to the end of the process. -/
theorem Conduct.attends (h : Conduct w w' 0 p o flow) (fits : Fits ms w (.session 0 p :: rest) o)
    (asked : (w.session 0).stopping = true) (past : p.opens = true → (w.session 0).state = .stopped)
    (stage : p.attends = true ∨ p.ends = true) : (∃ r, flow = .done (.ok r)) ∨
      ∃ q, flow.frames.getLast? = some (.session 0 q) ∧ (q.attends = true ∨ q.ends = true) := by
  have never {p : Session.Stage} {q : Prop} (stage : p.attends = true ∨ p.ends = true)
      (attends : p.attends = false) (ends : p.ends = false) : q := by
    rw [attends, ends] at stage
    rcases stage with same | same <;> cases same
  cases h with
  | fails none =>
    rw [fits.caught] at none
    cases none
  | refused stages =>
    rcases stages with ⟨rfl, -⟩ | ⟨b, rfl⟩ | ⟨e, rfl⟩ <;> exact never stage rfl rfl
  | greets => exact .inr ⟨_, rfl, .inl rfl⟩
  | @gives _ e' _ stages flow_ =>
    rcases flow_ with ⟨unexpected, -⟩ | ⟨-, -, rfl⟩
    · have expected : isExpected e' = true := by
        rcases stages with rfl | rfl
        · exact Replied.expected fits
        · exact Sent.expected fits
      rw [expected] at unexpected
      cases unexpected
    · exact .inl ⟨_, rfl⟩
  | abandons _ _ going =>
    rw [asked] at going
    cases going
  | overtaken | solitary | started | released => exact .inl ⟨_, rfl⟩
  | drops starting | readies starting =>
    rw [past rfl] at starting
    cases starting
  | unconnected _ stages =>
    rcases stages with ⟨-, rfl⟩ | ⟨-, rfl⟩ | ⟨_, rfl, -⟩
    · exact .inr ⟨_, rfl, .inl rfl⟩
    · exact .inr ⟨_, rfl, .inr rfl⟩
    · exact never stage rfl rfl
  | takes stages => rcases stages with rfl | ⟨c, rfl⟩ <;> exact never stage rfl rfl
  | turns stages => rcases stages with rfl | ⟨rfl, -⟩ <;> exact never stage rfl rfl
  | insists | vacates | exits | releases => exact .inr ⟨_, rfl, .inr rfl⟩
  | watches _ _ stages =>
    rcases stages with ⟨-, rfl, -⟩ | ⟨-, rfl, -⟩ | ⟨-, rfl, -⟩ <;> exact .inr ⟨_, rfl, .inr rfl⟩
  | _ => exact never stage rfl rfl

/-- How far a start has come that has a process and that a stop has overtaken. -/
inductive Overtaken (w : World) (t : TaskId) : Prop
  | goes {p : Session.Stage} (asked : (w.session 0).stopping = true)
    (last : (w.stack t).getLast? = some (.session 0 p)) (stage : p.attends = true ∨ p.ends = true)
  | ended {r : Result} (inside : t < w.loop.tasks.length) (returned : w.Returned t (.ok r))

/-- How far a start has come that a stop has overtaken while it waits for its process. -/
inductive Spawning (ms : List Moment) (w : World) (t : TaskId) (b : BackendId) (root : Option Root) : Prop
  | waits (asked : (w.session 0).stopping = true)
    (last : (w.stack t).getLast? = some (.session 0 (.launched b)))
  | goes (h : w.Overtaken t)
  | refused {m : Moment} {reason : String} (member : m ∈ ms) (refuses : m.Refuses t b reason)
    (inside : t < w.loop.tasks.length)
    (returned : w.Returned t (.error (.launch (Session.keyOf root) reason)))

/-- A start that has been overtaken while it opens the session finds it stopped. -/
theorem Standing.stopped_of_asked (h : w.Standing) (asked : (w.session 0).stopping = true)
    (stack : w.stack t = [.session 0 p]) (opens : p.opens = true) (kept : ∀ e, p ≠ .abandoned e) :
    (w.session 0).state = .stopped := by
  refine (h.given asked).resolve_right ?_
  rintro ⟨u, e, given⟩
  have same := h.single u t ⟨_, given, rfl⟩ ⟨p, stack ▸ List.mem_singleton_self _, opens⟩
  rw [same, stack] at given
  cases List.mem_singleton.1 given
  exact kept e rfl

section Moves

variable (course : Course ms m.world) (moves : Moves may R m.world w')

include course moves in
theorem Overtaken.next (h : m.world.Overtaken t) : w'.Overtaken t := by
  have client := course.alone.client
  have later {u : TaskId} (inside : u < m.world.loop.tasks.length) : u < w'.loop.tasks.length :=
    Nat.lt_of_lt_of_le inside moves.moved.tasks
  cases h with
  | ended inside returned => exact .ended (later inside) (.inr (returned.later moves inside))
  | @goes p asked last stage =>
    have asked' := client.stopping moves.move asked
    rcases course.alone.sound.last_cases moves.move last with
      last' | ⟨o, begun, flow, w₂, strides, stack⟩
    · exact .goes asked' last' stage
    · have fits := course.knowing.fits course.alone strides (.inl rfl)
      have past (opens : p.opens = true) : (m.world.session 0).state = .stopped :=
        course.standing.stopped_of_asked asked strides.top opens fun e same => by
          subst same
          rcases stage with bad | bad <;> cases bad
      rcases (strides.conducts client).attends fits asked past stage with ⟨r, rfl⟩ | ⟨q, last', stage'⟩
      · exact .ended (later (lt_of_stack (strides.top ▸ List.mem_cons_self)))
          (.inl ⟨strides.lands.next.1, stack⟩)
      · exact .goes asked' (stack ▸ last') stage'

include course moves in
theorem Spawning.next (rooted : (m.world.session 0).root = root) (h : Spawning ms m.world t b root) :
    Spawning (ms ++ [m]) w' t b root := by
  have client := course.alone.client
  have later {u : TaskId} (inside : u < m.world.loop.tasks.length) : u < w'.loop.tasks.length :=
    Nat.lt_of_lt_of_le inside moves.moved.tasks
  cases h with
  | goes h => exact .goes (h.next course moves)
  | refused member refuses inside returned =>
    exact .refused (List.mem_append_left _ member) refuses (later inside)
      (.inr (returned.later moves inside))
  | waits asked last =>
    have asked' := client.stopping moves.move asked
    rcases course.alone.sound.last_cases moves.move last with
      last' | ⟨o, begun, flow, w₂, strides, stack⟩
    · exact .waits asked' last'
    · obtain ⟨r, rfl⟩ : ∃ r, o = .ok r := course.knowing.fits course.alone strides (.inl rfl)
      have steps : { m.world with current := none }.launched 0 b = (flow, w₂) := strides.steps
      have flow_ := launched_of_stopping (w := { m.world with current := none }) (b := b) asked
      rw [steps] at flow_
      rcases flow_ with rfl | ⟨reason, refused, rfl⟩
      · exact .goes (.goes asked' (congrArg List.getLast? stack) (.inr rfl))
      · refine .refused (List.mem_append_right _ (List.mem_singleton_self m))
          ⟨_, _, ⟨strides.runs, strides.top⟩, refused⟩
          (later (lt_of_stack (strides.top ▸ List.mem_cons_self))) (.inl ⟨?_, stack⟩)
        rw [← rooted]
        exact strides.lands.next.1

end Moves

/-- The connection of a session that is still being started and has given nothing up is open. -/
theorem Course.open_of_starting (course : Course ms w) (starting : (w.session 0).state = .starting)
    (stack : w.stack t = [.session 0 p]) (opens : p.opens = true) (kept : ∀ e, p ≠ .abandoned e) :
    (w.connection 0).closed = false := by
  refine Bool.eq_false_iff.2 fun dead => ?_
  rcases course.standing.closed dead with stopped | asked
  · rw [starting] at stopped
    cases stopped
  · have stopped := course.standing.stopped_of_asked asked stack opens kept
    rw [starting] at stopped
    cases stopped

/-- A step of a start that comes to an error is a failure to launch. -/
theorem Course.launch_of_fails (course : Course ms w) (computable : ∃ path, (w.session 0).path = .ok path)
    (strides : Strides R w w' t (.session 0 p) o rest begun (.done (.error e)) w₂)
    (bottom : p.starts = true ∨ p.ends = true) (early : p = .start → (w.session 0).state = .unstarted) :
    ∃ key reason, e = .launch key reason := by
  have fits := course.knowing.fits course.alone strides (.inl rfl)
  have conduct := strides.conducts course.alone.client
  cases conduct.errs fits computable with
  | late again => exact absurd (early rfl) again
  | spent => exact ⟨_, _, rfl⟩
  | unsent notifies =>
    rcases notifies with ⟨method, params, rfl⟩ | ⟨method, rfl⟩ <;>
      rcases bottom with same | same <;> cases same
  | dropped connected dead =>
    have own := course.alone.own connected
    subst own
    have starting : (w.session 0).state = .starting := by
      generalize flow_ : Flow.done (.error (w.ended 0)) = flow at conduct
      cases conduct with
      | drops starting => exact starting
      | fails none =>
        rw [fits.caught] at none
        cases none
      | gives _ gives =>
        rcases gives with ⟨unexpected, -⟩ | ⟨-, -, rfl⟩
        · rw [Sent.expected fits] at unexpected
          cases unexpected
        · cases flow_
      | takes stages => rcases stages with same | ⟨c, same⟩ <;> cases same
      | _ => cases flow_
    obtain ⟨rfl, -⟩ := course.standing.top course.alone strides
    rw [course.open_of_starting starting strides.top rfl nofun] at dead
    cases dead

section Histories

variable (path : Path (ofNew root command timeout capacity watchers plans) ms w)
variable (use : ∀ a ∈ acts ms, a.isUse 0 = true)

include path use in
theorem Path.linked (member : m ∈ ms) : Linked (m.world.stack t) := by
  obtain ⟨before, w', path, goes, within⟩ := path.moment member
  exact (path.course_within use within goes).2.1.alone.client.linked t

include path use in
/-- A start that a stop has overtaken comes to its end without an error, unless it waits for a process
then and there is none to be had. -/
theorem quiet_of_overtaken (member : m ∈ ms) (asked : (m.world.session 0).stopping = true)
    (stands : .session 0 p ∈ m.world.stack t) (waits : p.attends = true ∨ ∃ b, p = .launched b)
    (done : w.loop.outcome? (w.loop.taskCell t) = some o) : (∃ r, o = .ok r) ∨
      ∃ b reason, p = .launched b ∧ (∃ m' ∈ ms, m'.Refuses t b reason) ∧
        o = .error (.launch (Session.keyOf root) reason) := by
  have linked := path.linked use (t := t) member
  have sound := (path.course use).alone.sound
  have empty : w.stack t = [] := sound.over_of_done (Option.isSome_iff_exists.2 ⟨o, done⟩)
  have well (h : w.Overtaken t) : ∃ r, o = .ok r := by
    cases h with
    | goes _ last =>
      rw [empty] at last
      cases last
    | ended _ returned => exact ⟨_, (sound.returned_unique returned done).symm⟩
  rcases waits with attends | ⟨b, rfl⟩
  · have last := linked.last stands (by cases p <;> first | rfl | cases attends)
    refine .inl (well ?_)
    exact path.onward (I := fun _ w => w.Overtaken t) member
      (fun _ => .goes asked last (.inl attends)) fun before m' w' path within goes h =>
        let ⟨_, course, moves⟩ := path.course_within use within goes
        h.next course moves
  · have last := linked.last stands rfl
    have spawning : Spawning ms w t b root := path.onward (I := fun ms w => Spawning ms w t b root) member
      (fun _ => .waits asked last) fun before m' w' path within goes h =>
        let ⟨use', course, moves⟩ := path.course_within use within goes
        h.next course moves (path.root_kept use')
    cases spawning with
    | waits _ last =>
      rw [empty] at last
      cases last
    | goes h => exact .inl (well h)
    | refused member refuses _ returned =>
      exact .inr ⟨b, _, rfl, ⟨_, member, refuses⟩, (sound.returned_unique returned done).symm⟩

/-- A backend that never answers the greeting has gone when its start returns. -/
example :
    let greeted := ((ofNew none ["backend"] .never 8 []
      [{ Backend.Plan.standard with onInitialize := .silence }]).take (.call (.startSession 0))).settle 60
    let past := (greeted.take (.call (.stopSession 0 Session.stopTimeout))).settle 60
    (greeted.session 0).state = .starting ∧ (past.backend 0).exitCode = some (-15) ∧
      (past.loop.outcome? (past.loop.taskCell 0)).map Except.toOption = some (some .nothing) := by
  decide +kernel

/-- No process is to be had, and the start that has been stopped meanwhile says so. -/
example :
    let waiting := ((ofNew none ["backend"] .never 8 []
      [{ Backend.Plan.standard with spawnDelay := 1, spawnError := some "no" }]).take
        (.call (.startSession 0))).settle 60
    let past := ((waiting.take (.call (.stopSession 0 Session.stopTimeout))).settle 60).tick.settle 60
    (waiting.session 0).state = .starting ∧
      (past.loop.outcome? (past.loop.taskCell 0)).map Except.toOption = some none := by
  decide +kernel

include path use in
/-- What a session that is started once, and not after a stop, fails to start with is a failure to
launch. -/
theorem launch_failure_of_start (once : (acts ms).countP Act.starts ≤ 1)
    (order : (acts ms).Pairwise fun a b => a.stops = true → b.starts = false)
    (computable : ∀ r, root = some r → ∃ p, r.path = .ok p) (called : Called ms t (.startSession 0))
    (returned : w.Returned t (.error e)) : ∃ key reason, e = .launch key reason := by
  refine path.keeps (I := fun ms w => (∀ a ∈ acts ms, a.isUse 0 = true) →
      (acts ms).countP Act.starts ≤ 1 →
      (acts ms).Pairwise (fun a b => a.stops = true → b.starts = false) →
      Called ms t (.startSession 0) → w.Returned t (.error e) → ∃ key reason, e = .launch key reason)
    (fun _ _ _ ⟨_, member, _⟩ => nomatch member)
    (fun ms m w' path ih goes use once order called returned => ?_) use once order called returned
  obtain ⟨before, course, moves⟩ := path.course_within use List.prefix_rfl goes
  have sound' := ((path.next goes).course use).alone.sound
  rw [acts_next] at once order
  have once' := Nat.le_trans (List.countP_append ▸ Nat.le_add_right _ _) once
  have order' := (List.pairwise_append.1 order).1
  have old := called.of_returned goes sound' returned
  rcases course.alone.sound.returned_cases moves sound' (course.calls.inside t _ old) returned with
    past | ⟨f, o, begun, w₂, strides⟩
  · exact ih before once' order' old past
  · obtain ⟨p, rfl, bottom⟩ := course.calls.bottom t old f (by rw [strides.top]; rfl)
    exact course.launch_of_fails (path.computable before computable) strides bottom fun same =>
      path.early before once' order' (same ▸ strides.top ▸ List.mem_cons_self)

end Histories

end World
end LanguageClient
