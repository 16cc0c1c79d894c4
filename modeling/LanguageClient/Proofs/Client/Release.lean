import LanguageClient.Proofs.Client.Course

/-!
A session that is over gives back what it has taken: once its calls have come to their end no process
runs any more, and neither its connection nor its events are open.
-/

namespace LanguageClient

open Schedule

theorem Session.path_of_startFolder {x : Session} {e : Failure} (h : World.startFolder x = .error e) :
    x.path = .error e := by
  unfold World.startFolder at h
  unfold path
  split at h
  · cases h
  · next r =>
    rw [r]
    cases known : Root.path _ with
    | error e' =>
      rw [known] at h
      cases h
      exact congrArg (Except.map Value.text) known
    | ok path =>
      rw [known] at h
      cases h

theorem Session.path_of_initializeParams {x : Session} {e : Failure}
    (h : x.initializeParams = .error e) : x.path = .error e := by
  unfold initializeParams at h
  cases known : x.path with
  | error e' =>
    rw [known] at h
    cases h
    rfl
  | ok path =>
    rw [known] at h
    cases h

/-- A step of a session's task fails. -/
def Moment.Fails (m : Moment) (s : SessionId) (p : Session.Stage) (e : Failure) : Prop :=
  ∃ t o rest, m.Runs t (.session s p) o rest ∧
    ({ m.world with current := none }.resume t (.session s p) o).1 = .done (.error e)

namespace World

variable {may : Frame → Prop} {R : CellId → Prop} {t u : TaskId} {w w' w₂ first : World}
variable {f g : Frame} {rest begun : List Frame} {o : Outcome Result} {flow : Flow Frame Result}
variable {p : Session.Stage} {e : Failure} {ms : List Moment} {m : Moment} {c : Call}
variable {root : Option Root} {command : List String} {timeout limit : Timeout} {capacity : Int}
variable {watchers : List Session.Watcher} {plans : List Backend.Plan}

/-- How a stage of a session fails. -/
inductive Errs (w w' : World) : Session.Stage → Failure → Prop
  | late {state : SessionState} (again : (w.session 0).state ≠ .unstarted) :
    Errs w w' .start (.badTransition state .starting)
  | spent {p : Session.Stage} {key reason : String}
    (core : w'.core = w.core.setSession 0 Session.spent) : Errs w w' p (.launch key reason)
  | dropped {k : ConnectionId} (connected : (w.session 0).connection = some k)
    (dead : (w.connection k).closed = true) : Errs w w' .initializedSent (w.ended k)
  | unsent {p : Session.Stage} {e : Failure}
    (notifies : (∃ method params, p = .notify method params) ∨ ∃ method, p = .notified method)
    (other : ∀ state target, e ≠ .badTransition state target) : Errs w w' p e

theorem Conduct.errs (h : Conduct w w' 0 p o (.done (.error e)))
    (fits : Fits ms w (.session 0 p :: rest) o) (computable : ∃ path, (w.session 0).path = .ok path) :
    Errs w w' p e := by
  obtain ⟨path, computable⟩ := computable
  cases h with
  | fails none =>
    rw [fits.caught] at none
    cases none
  | late again => exact .late again
  | stumbles _ failed =>
    rw [Session.path_of_startFolder failed] at computable
    cases computable
  | refused _ core => exact .spent core
  | lost _ failed =>
    rw [Session.path_of_initializeParams failed] at computable
    cases computable
  | @gives _ e' _ stages flow_ =>
    have expected : isExpected e' = true := by
      rcases stages with rfl | rfl
      · exact Replied.expected fits
      · exact Sent.expected fits
    rcases flow_ with ⟨unexpected, -⟩ | ⟨-, -, same⟩
    · rw [expected] at unexpected
      cases unexpected
    · cases same
  | drops _ connected dead => exact .dropped connected dead
  | takes _ _ flow_ => rcases flow_ with same | same | ⟨c, -, same⟩ <;> cases same
  | refuses => exact .unsent (.inl ⟨_, _, rfl⟩) nofun
  | untold => exact .unsent (.inr ⟨_, rfl⟩) nofun
  | launches _ flow_ => rcases flow_ with same | ⟨c, -, same⟩ <;> cases same

/-- A session keeps the root that it has been made for. -/
theorem Client.root_kept (client : w.Client) (m : Move may R w w') :
    (w'.session 0).root = (w.session 0).root := by
  rw [← root_core, ← root_core]
  rcases client.shifts m 0 with same | ⟨t, f, o, rest, begun, flow, w₂, strides, shifts⟩
  · rw [same]
  · generalize w'.core.session 0 = x at shifts
    cases shifts <;> rfl

theorem Path.root_kept (path : Path (ofNew root command timeout capacity watchers plans) ms w)
    (use : ∀ a ∈ acts ms, a.isUse 0 = true) : (w.session 0).root = root := by
  refine path.keeps (I := fun ms w => (∀ a ∈ acts ms, a.isUse 0 = true) → (w.session 0).root = root)
    (fun _ => rfl) (fun ms m w' path same goes use => ?_) use
  obtain ⟨before, course, moves⟩ := path.course_within use List.prefix_rfl goes
  exact (course.alone.client.root_kept moves.move).trans (same before)

/-- A session is started by one task if it is started once. -/
theorem Called.single (once : (acts ms).countP Act.starts ≤ 1)
    (h : Called ms t (.startSession 0)) (h' : Called ms u (.startSession 0)) : t = u := by
  obtain ⟨m, member, act, rfl⟩ := h
  obtain ⟨m', member', act', rfl⟩ := h'
  rw [acts, List.countP_filterMap, List.countP_eq_length_filter] at once
  generalize starters : ms.filter _ = l at once
  have mem : m ∈ l := starters ▸ List.mem_filter.2 ⟨member, by rw [act]; rfl⟩
  have mem' : m' ∈ l := starters ▸ List.mem_filter.2 ⟨member', by rw [act']; rfl⟩
  cases l with
  | nil => cases mem
  | cons x more =>
    cases more with
    | nil => rw [List.mem_singleton.1 mem, List.mem_singleton.1 mem']
    | cons => simp at once

/-- What is called later is a later task. -/
theorem Path.ordered (path : Path (ofNew root command timeout capacity watchers plans) ms w)
    (use : ∀ a ∈ acts ms, a.isUse 0 = true)
    (order : (acts ms).Pairwise fun a b => a.stops = true → b.starts = false)
    (starts : Called ms t (.startSession 0)) (stops : Called ms u (.stopSession 0 limit)) : t < u := by
  refine path.keeps (I := fun ms _ => (∀ a ∈ acts ms, a.isUse 0 = true) →
      (acts ms).Pairwise (fun a b => a.stops = true → b.starts = false) →
      Called ms t (.startSession 0) → Called ms u (.stopSession 0 limit) → t < u)
    (fun _ _ ⟨_, member, _⟩ => nomatch member) (fun ms m w' path ih goes use order starts stops => ?_)
    use order starts stops
  rw [acts_next] at use order
  obtain ⟨order, -, across⟩ := List.pairwise_append.1 order
  have before (a : Act) (ha : a ∈ acts ms) := use a (List.mem_append_left _ ha)
  rcases called_next.1 starts with starts | ⟨act, task⟩
  · rcases called_next.1 stops with stops | ⟨-, rfl⟩
    · exact ih before order starts stops
    · exact (path.course before).calls.inside t _ starts
  · rcases called_next.1 stops with stops | ⟨act', -⟩
    · have late := across _ stops.act (.call (.startSession 0)) (by simp [act]) rfl
      cases late
    · rw [act] at act'
      cases act'

/-- A session that is started once, and not after a stop, is as it was made until then. -/
theorem Path.early (path : Path (ofNew root command timeout capacity watchers plans) ms w)
    (use : ∀ a ∈ acts ms, a.isUse 0 = true) (once : (acts ms).countP Act.starts ≤ 1)
    (order : (acts ms).Pairwise fun a b => a.stops = true → b.starts = false)
    (waits : .session 0 .start ∈ w.stack t) : (w.session 0).state = .unstarted := by
  refine path.keeps (I := fun ms w => (∀ a ∈ acts ms, a.isUse 0 = true) →
      (acts ms).countP Act.starts ≤ 1 →
      (acts ms).Pairwise (fun a b => a.stops = true → b.starts = false) →
      ∀ t, .session 0 .start ∈ w.stack t → (w.session 0).state = .unstarted)
    (fun _ _ _ t waits => absurd waits (stack_ofNew root command timeout capacity watchers plans t _))
    (fun ms m w' path ih goes use once order t waits => ?_) use once order t waits
  obtain ⟨before, course, moves⟩ := path.course_within use List.prefix_rfl goes
  have alone := course.alone
  have course' := (path.next goes).course use
  have sooner {u : TaskId} {limit : Timeout} (stops : Called ms u (.stopSession 0 limit))
      (called : Called (ms ++ [m]) t (.startSession 0)) : t < u :=
    (path.next goes).ordered use order called (stops.later m)
  obtain ⟨-, c, called, same⟩ := course'.calls.uses t _ waits rfl
  cases eq_start_of_frame same
  have unstarted : (m.world.session 0).state = .unstarted := by
    rcases alone.client.use_cases alone.sound moves.move rfl waits with ⟨there, -⟩ | ⟨-, new, -⟩
    · refine ih before ?_ ?_ t there
      · rw [acts_next, List.countP_append] at once
        exact Nat.le_trans (Nat.le_add_right _ _) once
      · rw [acts_next] at order
        exact (List.pairwise_append.1 order).1
    · refine Decidable.byContradiction fun touched => ?_
      rcases course.calls.touched touched with ⟨u, starts⟩ | ⟨u, limit, stops⟩
      · have inside := course.calls.inside u _ starts
        rw [(starts.later m).single once called] at inside
        exact absurd inside (Nat.not_lt.2 new)
      · exact absurd (Nat.lt_trans (sooner stops called) (course.calls.inside u _ stops)) (Nat.not_lt.2 new)
  refine (course.standing.unstarted_cases alone moves.move unstarted).resolve_right ?_
  rintro ⟨u, f, o, rest, begun, flow, w₂, strides, which⟩
  have top : f ∈ m.world.stack u := strides.top ▸ List.mem_cons_self
  rcases which with rfl | ⟨limit, rfl⟩
  · have starts := course.calls.start_called top
    rw [← (starts.later m).single once called] at waits
    exact course.calls.gone alone moves starts rfl (.inr ⟨o, strides.runs⟩) waits
  · have lt := sooner (course.calls.stop_called top) called
    rcases alone.client.use_cases alone.sound moves.move rfl waits with ⟨there, -⟩ | ⟨-, new, -⟩
    · exact (course.queued.inTurn t u _ _ lt there rfl top rfl).1 o strides.runs
    · exact absurd (Nat.lt_trans lt (lt_of_stack top)) (Nat.not_lt.2 new)

theorem Path.computable (path : Path (ofNew root command timeout capacity watchers plans) ms w)
    (use : ∀ a ∈ acts ms, a.isUse 0 = true) (computable : ∀ r, root = some r → ∃ p, r.path = .ok p) :
    ∃ p, (w.session 0).path = .ok p := by
  unfold Session.path
  rw [path.root_kept use]
  cases root with
  | none => exact ⟨.null, rfl⟩
  | some r =>
    obtain ⟨p, known⟩ := computable r rfl
    exact ⟨.text p, congrArg (Except.map Value.text) known⟩

/-- A start that fails leaves nothing to start any more. -/
theorem Errs.finishes (h : Errs w w₂ p e) (course : Course ms w) (moves : Moves may R w w')
    (once : (acts ms).countP Act.starts ≤ 1) (called : Called ms t (.startSession 0))
    (strides : Strides R w w' t (.session 0 p) o rest begun flow w₂)
    (bottom : p.starts = true ∨ p.ends = true) : w'.Over := by
  have client := course.alone.client
  cases h with
  | late again =>
    cases state : (w.session 0).state with
    | stopped => exact client.still_over moves.move (.inl state)
    | unstarted => exact absurd state again
    | _ =>
      obtain ⟨u, called', gone⟩ := course.calls.started (by simp [state])
      rw [called'.single once called, strides.top] at gone
      exact absurd List.mem_cons_self gone
  | spent core =>
    left
    rw [← state_core, strides.lands.aside.core, core, Core.session_setSession_self course.alone.inside]
    rfl
  | dropped connected dead =>
    rw [course.alone.own connected] at dead
    exact client.still_over moves.move (course.standing.closed dead)
  | unsent notifies =>
    rcases notifies with ⟨method, params, rfl⟩ | ⟨method, rfl⟩ <;>
      rcases bottom with same | same <;> cases same

/-- A call that has returned has been made before. -/
theorem Called.of_returned (h : Called (ms ++ [m]) t c) (goes : m.Goes w') (sound : w'.Sound)
    (returned : w'.Returned t o) : Called ms t c := by
  refine (called_next.1 h).resolve_right ?_
  rintro ⟨act, rfl⟩
  have empty := sound.stack_of_returned returned
  rw [(goes.call act).2.1] at empty
  cases empty

theorem Path.failed (path : Path (ofNew root command timeout capacity watchers plans) ms w)
    (use : ∀ a ∈ acts ms, a.isUse 0 = true) (once : (acts ms).countP Act.starts ≤ 1)
    (computable : ∀ r, root = some r → ∃ p, r.path = .ok p) (called : Called ms t (.startSession 0))
    (fails : w.Returned t (.error e)) : w.Over := by
  refine path.keeps (I := fun ms w => (∀ a ∈ acts ms, a.isUse 0 = true) →
      (acts ms).countP Act.starts ≤ 1 → Called ms t (.startSession 0) →
      w.Returned t (.error e) → w.Over)
    (fun _ _ ⟨_, member, _⟩ => nomatch member)
    (fun ms m w' path ih goes use once called fails => ?_) use once called fails
  obtain ⟨before, course, moves⟩ := path.course_within use List.prefix_rfl goes
  have sound' := ((path.next goes).course use).alone.sound
  have once' : (acts ms).countP Act.starts ≤ 1 := by
    rw [acts_next, List.countP_append] at once
    exact Nat.le_trans (Nat.le_add_right _ _) once
  have old := called.of_returned goes sound' fails
  rcases course.alone.sound.returned_cases moves sound' (course.calls.inside t _ old) fails with
    past | ⟨f, o, begun, w₂, strides⟩
  · exact course.alone.client.still_over moves.move (ih before once' old past)
  · obtain ⟨p, rfl, bottom⟩ := course.calls.bottom t old f (by rw [strides.top]; rfl)
    have fits := course.knowing.fits course.alone strides (.inl rfl)
    exact ((strides.conducts course.alone.client).errs fits (path.computable before computable)).finishes
      course moves once' old strides bottom

/-- Every call has come to its end, and so has the task that sees to a process that has gone unasked. -/
def Finished (ms : List Moment) (w : World) : Prop :=
  (∀ t c, Called ms t c → w.loop.taskDone t = true) ∧
    ∀ t, (w.session 0).reaper = some t → w.loop.taskDone t = true

/-- A session that is over and has given back all that it had. -/
structure Released (w : World) : Prop where
  stopped : (w.session 0).state = .stopped
  ended : ∀ b, (w.backend b).isAlive = false
  closed : ∀ x ∈ w.connections, x.closed = true ∧ x.pending = []
  shut : (w.session 0).bus.closed = true
  outbox : (w.session 0).outbox = []

theorem Alone.connected_of_mem (h : w.Alone) {x : Connection} (hx : x ∈ w.connections) :
    x = w.connection 0 ∧ (w.session 0).connection = some 0 := by
  rcases h.lone.connections with ⟨-, none⟩ | ⟨connected, single, -⟩
  · rw [List.map_eq_nil_iff.1 none] at hx
    cases hx
  · refine ⟨?_, (connected_core 0 w).symm.trans connected⟩
    obtain ⟨y, same⟩ := List.length_eq_one_iff.1 ((List.length_map _).symm.trans single)
    rw [same] at hx
    rw [connection, same]
    exact List.mem_singleton.1 hx

theorem Standing.ended (h : w.Standing) (alone : w.Alone) (vacant : w.Vacant 0) (b : BackendId) :
    (w.backend b).isAlive = false := by
  rw [Backend.isAlive, Bool.and_eq_false_iff]
  cases b with
  | zero =>
    cases spawned : (w.backend 0).spawned with
    | false => exact .inl rfl
    | true => exact .inr (Option.isNone_eq_false_iff.2 (vacant 0 (h.spawned spawned)))
  | succ b =>
    left
    have out : w.backends.length ≤ b + 1 :=
      Nat.le_trans (Nat.le_trans (Nat.le_of_eq (List.length_map _).symm) alone.lone.backends)
        (Nat.le_add_left 1 b)
    rw [backend, List.getD_eq_getElem?_getD, List.getElem?_eq_none out]
    rfl

/-- Nothing is left of a session that has stopped when its process has gone, its connection has ended and
its events are over. -/
theorem Course.released_of_vacant (h : Course ms w) (stopped : (w.session 0).state = .stopped)
    (vacant : w.Vacant 0) (closed : (w.session 0).connection = none ∨ (w.connection 0).closed = true)
    (shut : (w.session 0).bus.closed = true) : w.Released where
  stopped := stopped
  ended := h.standing.ended h.alone vacant
  closed x hx := by
    obtain ⟨rfl, connected⟩ := h.alone.connected_of_mem hx
    have closed : (w.connection 0).closed = true := closed.resolve_left fun none => by
      rw [connected] at none
      cases none
    exact ⟨closed, h.standing.pending closed⟩
  shut := shut
  outbox := h.standing.outbox (by rw [stopped]; rfl)

/-- A session that is over has been released once no task of it is left. -/
theorem Course.released (h : Course ms w) (past : w.Over) (finished : Finished ms w) : w.Released := by
  have gone (t : TaskId) (p : Session.Stage) : .session 0 p ∉ w.stack t := by
    intro stands
    have done : w.loop.taskDone t = true := by
      rcases h.calls.tasks t p stands with ⟨c, called⟩ | reaper
      · exact finished.1 t c called
      · exact finished.2 t reaper
    rw [h.alone.sound.over_of_done done] at stands
    cases stands
  refine h.released_of_vacant ?_ ?_ ?_ ?_
  · rcases past with stopped | stopping
    · exact stopped
    · refine (h.standing.given stopping).resolve_right ?_
      rintro ⟨t, e, stands⟩
      exact gone t _ stands
  · refine (h.duties.vacant past).resolve_right ?_
    rintro ⟨t, p, stands, -⟩
    exact gone t p stands
  · rcases h.duties.closed past with none | closed | ⟨t, p, stands, -⟩
    · exact .inl none
    · exact .inr closed
    · exact absurd stands (gone t p)
  · refine (h.duties.shut past).resolve_right ?_
    rintro ⟨t, p, stands, -⟩
    exact gone t p stands

section Moments

variable (path : Path (ofNew root command timeout capacity watchers plans) ms w)
variable (use : ∀ a ∈ acts ms, a.isUse 0 = true)

include path use in
/-- A session moves only to states that may come next. -/
theorem Path.transition (member : m ∈ ms) (goes : m.Goes w') :
    (w'.session 0).state = (m.world.session 0).state ∨
      (w'.session 0).state ∈ (m.world.session 0).state.next := by
  obtain ⟨before, -, path, -, within⟩ := path.moment member
  obtain ⟨-, course, moves⟩ := path.course_within use within goes
  exact course.alone.client.transition moves.move

end Moments

end World
end LanguageClient
