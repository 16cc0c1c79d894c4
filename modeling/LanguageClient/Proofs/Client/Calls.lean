import LanguageClient.Proofs.Client.Duties
import LanguageClient.Proofs.World.Calls

/-!
The calls that are made of a session and their tasks: where they begin, in which order, and what they
leave of the session.
-/

namespace LanguageClient

open Schedule

namespace Act

def starts : Act → Bool
  | .call (.startSession _) => true
  | _ => false

def stops : Act → Bool
  | .call (.stopSession ..) => true
  | _ => false

end Act

namespace World

variable {may : Frame → Prop} {R : CellId → Prop} {t u : TaskId} {w w' w₂ : World}
variable {f g : Frame} {rest begun : List Frame} {o : Outcome Result} {flow : Flow Frame Result}
variable {k : ConnectionId} {s : SessionId} {p : Session.Stage} {q : Connection.Stage}
variable {ms : List Moment} {m : Moment} {c : Call}

/-- Nothing leads to where calls of a session begin. -/
theorem Leads.unused (h : Leads t w w' f o flow) (hg : g ∈ flow.frames) : g.isUse s = false := by
  have one {g' : Frame} (unused : g'.isUse s = false) (hg : g ∈ [g']) : g.isUse s = false :=
    List.mem_singleton.1 hg ▸ unused
  have two {g' g'' : Frame} (unused : g'.isUse s = false) (unused' : g''.isUse s = false)
      (hg : g ∈ [g', g'']) : g.isUse s = false := by
    rcases List.mem_cons.1 hg with rfl | last
    · exact unused
    · exact one unused' last
  cases h with
  | waits | guards | givesUp | stalls | flows | notes | closes | stopsReader | arrives | joins
  | stops | turns | insists | vacates | exits => exact one rfl hg
  | requests | written | answers | connects | greets | abandons | readies | tells | asks
  | dismisses | releases => exact two rfl rfl hg
  | serves _ _ flow_ => rcases flow_ with rfl | ⟨c, -, rfl⟩ <;> exact one rfl hg
  | stopsAnswers _ flow_ => rcases flow_ with rfl | ⟨c, rfl⟩ <;> exact one rfl hg
  | launches _ flow_ => rcases flow_ with rfl | ⟨c, -, rfl⟩ <;> exact one rfl hg
  | unconnected _ stages =>
    rcases stages with ⟨-, rfl⟩ | ⟨-, rfl⟩ | ⟨timeout, -, rfl⟩ <;> exact one rfl hg
  | takes _ next flow_ =>
    rcases flow_ with rfl | rfl | ⟨c, -, rfl⟩
    · cases hg
    · rcases next with rfl | ⟨c, rfl⟩ <;> exact one rfl hg
    · rcases next with rfl | ⟨c, rfl⟩ <;> exact one rfl hg
  | watches _ _ stages =>
    rcases stages with ⟨-, rfl, -⟩ | ⟨-, rfl, -⟩ | ⟨-, rfl, -⟩ <;> exact two rfl rfl hg
  | _ => cases hg

/-- What a call to stop does: nothing if the session has been asked before, else it waits for the task that
sees to the process already, or sees to the end of the session itself. -/
inductive Halts (w w' : World) (timeout : Timeout) (flow : Flow Frame Result) : Prop
  | stands (asked : (w.session 0).stopping = true) (flow_ : flow = .done (.ok .nothing))
  | joins {u : TaskId} (reaper : (w.session 0).reaper = some u)
    (core : w'.core = w.core.setSession 0 fun x => { x with stopping := true })
    (flow_ : flow = .await (w.loop.taskCell u) .pass)
  | stops (core : w'.core = w.core.setSession 0 fun x =>
      { x.moveToStopped with outbox := [], stopping := true })
    (flow_ : (∃ grace, flow = .goto (.session 0 (.shutdown grace))) ∨
      ∃ k, flow = .call (.connection k (.request "shutdown" .null timeout))
        (.session 0 (.shutdownAnswered timeout)))

theorem Conduct.halts {timeout : Timeout} (h : Conduct w w' 0 (.stop timeout) o flow)
    (fits : Fits ms w (.session 0 (.stop timeout) :: rest) o) : Halts w w' timeout flow := by
  cases h with
  | fails none =>
    rw [fits.caught] at none
    cases none
  | stands asked => exact .stands asked rfl
  | joins _ reaper core => exact .joins reaper core rfl
  | stops _ core => exact .stops core (.inl ⟨_, rfl⟩)
  | asks _ _ _ core => exact .stops core (.inr ⟨_, rfl⟩)
  | refused stages => rcases stages with ⟨same, -⟩ | ⟨b, same⟩ | ⟨e, same⟩ <;> cases same
  | gives stages => rcases stages with same | same <;> cases same
  | abandons stages => rcases stages with same | same <;> cases same
  | unconnected _ stages => rcases stages with ⟨same, -⟩ | ⟨same, -⟩ | ⟨_, same, -⟩ <;> cases same
  | takes stages => rcases stages with same | ⟨c, same⟩ <;> cases same
  | turns stages => rcases stages with same | ⟨same, -⟩ <;> cases same
  | insists stages => rcases stages with ⟨_, _, same, -⟩ | ⟨same, -⟩ <;> cases same
  | vacates stages => rcases stages with ⟨_, same⟩ | same | same <;> cases same
  | exits stages => rcases stages with same | same | same <;> cases same
  | watches _ _ stages => rcases stages with ⟨same, -⟩ | ⟨same, -⟩ | ⟨same, -⟩ <;> cases same

/-- A task that has only been called goes on later, or has just been called. -/
theorem Client.use_cases (client : w.Client) (sound : w.Sound) (move : Move may R w w')
    (use : f.isUse 0 = true) (hf : f ∈ w'.stack t) :
    (f ∈ w.stack t ∧ w'.stack t = w.stack t ∧ ∀ o, w.current ≠ some (t, o)) ∨
      (w'.stack t = [f] ∧ w.loop.tasks.length ≤ t ∧ may f) := by
  cases sound.fate move t with
  | stays stack _ before => exact .inl ⟨stack ▸ hf, stack, before⟩
  | ends _ stack =>
    rw [stack] at hf
    cases hf
  | wakes idle stack => exact .inl ⟨stack ▸ hf, stack, fun o => by simp [idle]⟩
  | @begins g new stack _ _ source =>
    rw [stack] at hf
    cases List.mem_singleton.1 hf
    rcases source with ⟨-, allowed⟩ | ⟨u, f', o, rest, begun, flow, w₂, strides, found⟩
    · exact .inr ⟨stack, new, allowed⟩
    · rcases strides.turn.change.opened (client.places u f' (strides.top ▸ List.mem_cons_self)) _
        (List.mem_of_getElem? found) with serves | ⟨s, grace, same⟩
      · cases f with
        | connection => cases use
        | _ => cases serves
      · subst same
        cases use
  | @goes f' o rest begun flow w₂ strides stack =>
    rw [stack] at hf
    rcases List.mem_append.1 hf with new | below
    · rw [(client.leads strides).unused new] at use
      cases use
    · have linked : Linked (f' :: rest) := strides.top ▸ client.linked t
      obtain ⟨r, calls⟩ := linked.calls _ below
      rcases Frame.isUse_cases use with rfl | ⟨_, _, rfl⟩ | ⟨_, rfl⟩ <;> cases calls

theorem eq_start_of_frame (h : Frame.session s .start = c.frame) : c = .startSession s := by
  cases c <;> cases h
  rfl

theorem eq_stop_of_frame {timeout : Timeout} (h : Frame.session s (.stop timeout) = c.frame) :
    c = .stopSession s timeout := by
  cases c <;> cases h
  rfl

/-- What starts a session comes to its end at stages of its start, or sees to the end of the process. -/
theorem Leads.bottom (h : Leads t w w' (.session 0 p) o flow) (bottom : p.starts = true ∨ p.ends = true) :
    ∀ f ∈ flow.frames.getLast?, ∃ q, f = .session 0 q ∧ (q.starts = true ∨ q.ends = true) := by
  have last {q : Session.Stage} (hq : q.starts = true ∨ q.ends = true) :
      ∀ f ∈ (some (Frame.session 0 q)), ∃ q, f = .session 0 q ∧ (q.starts = true ∨ q.ends = true) := by
    rintro _ ⟨⟩
    exact ⟨q, rfl, hq⟩
  cases h with
  | launches _ flow_ => rcases flow_ with rfl | ⟨c, -, rfl⟩ <;> exact last (.inl rfl)
  | connects | greets | abandons | readies => exact last (.inl rfl)
  | arrives | insists | vacates | exits | releases => exact last (.inr rfl)
  | unconnected _ stages =>
    rcases stages with ⟨rfl, rfl⟩ | ⟨rfl, rfl⟩ | ⟨timeout, rfl, rfl⟩
    · exact last (.inl rfl)
    · exact last (.inr rfl)
    · rcases bottom with starts | ends
      · cases starts
      · cases ends
  | watches _ _ stages =>
    rcases stages with ⟨-, rfl, -⟩ | ⟨-, rfl, -⟩ | ⟨-, rfl, -⟩ <;> exact last (.inr rfl)
  | takes stages =>
    rcases stages with rfl | ⟨c, rfl⟩ <;> rcases bottom with starts | ends <;> contradiction
  | turns stages =>
    rcases stages with rfl | ⟨rfl, -⟩ <;> rcases bottom with starts | ends <;> contradiction
  | tells | joins | stops | asks | dismisses => rcases bottom with starts | ends <;> contradiction
  | _ => exact fun _ hf => nomatch hf

/-- Tasks that see to a process begin when the connection is lost. -/
theorem Alone.loses_of_begun (h : w.Alone) (strides : Strides R w w' t f o rest begun flow w₂)
    (hp : .session s p ∈ begun) :
    w.Loses w' ∧ begun = [.session 0 (.shutdown Session.killGrace)] := by
  have client := h.client.places t f (strides.top ▸ List.mem_cons_self)
  have change := strides.turn.change
  cases f with
  | connection k q => exact (h.loses_of_change strides).resolve_right fun other => other.2.2 s p hp
  | relay | roster | workspace => cases client
  | wait | pass =>
    generalize w₂.core = x at change
    cases change with
    | quiet _ begun_ =>
      cases serves_of_errand (begun_ _ hp).errand (client_of_succeeds (begun_ _ hp).succeeds client)
  | session k q =>
    dsimp only at change
    generalize w₂.core = x at change
    cases change with
    | quiet _ begun_ =>
      cases serves_of_errand (begun_ _ hp).errand (client_of_succeeds (begun_ _ hp).succeeds client)
    | connects => cases List.mem_singleton.1 hp
    | _ => cases hp

/-- Only a start or a stop moves a session from where it was made. -/
theorem Standing.unstarted_cases (h : w.Standing) (alone : w.Alone) (move : Move may R w w')
    (before : (w.session 0).state = .unstarted) : (w'.session 0).state = .unstarted ∨
      ∃ u f o rest begun flow w₂, Strides R w w' u f o rest begun flow w₂ ∧
        (f = .session 0 .start ∨ ∃ timeout, f = .session 0 (.stop timeout)) := by
  have unopened {v : TaskId} (opening : w.Opening v) : False := by
    rcases h.opened v opening with same | same <;>
    · rw [before] at same
      cases same
  rw [← state_core] at before ⊢
  rcases alone.client.shifts move 0 with same | ⟨u, f, o, rest, begun, flow, w₂, strides, shifts⟩
  · exact .inl (same ▸ before)
  · have top : f ∈ w.stack u := strides.top ▸ List.mem_cons_self
    generalize w'.core.session 0 = x at shifts
    cases shifts with
    | starts => exact .inr ⟨_, _, _, _, _, _, _, strides, .inl rfl⟩
    | @fails p =>
      rcases (strides.conducts alone.client).failed with ⟨rfl, -⟩ | ⟨b, rfl⟩ | ⟨e, rfl⟩
      · exact .inr ⟨_, _, _, _, _, _, _, strides, .inl rfl⟩
      · exact (unopened ⟨_, top, rfl⟩).elim
      · exact (unopened ⟨_, top, rfl⟩).elim
    | readies => exact (unopened ⟨_, top, rfl⟩).elim
    | stops => exact .inr ⟨_, _, _, _, _, _, _, strides, .inr ⟨_, rfl⟩⟩
    | loses =>
      have connected := h.wired u _ _ top
      rw [(h.fresh ((state_core 0 w).symm.trans before)).2.2] at connected
      cases connected
    | _ => exact .inl before

/-- What the calls that have been made have to do with where tasks stand and with the session. -/
structure Calls (ms : List Moment) (w : World) : Prop where
  inside : ∀ t c, Called ms t c → t < w.loop.tasks.length
  uses : ∀ t f, f ∈ w.stack t → f.isUse 0 = true → w.stack t = [f] ∧ ∃ c, Called ms t c ∧ f = c.frame
  tasks : ∀ t p, .session 0 p ∈ w.stack t → (∃ c, Called ms t c) ∨ (w.session 0).reaper = some t
  touched : (w.session 0).state ≠ .unstarted → (∃ t, Called ms t (.startSession 0)) ∨
    ∃ t timeout, Called ms t (.stopSession 0 timeout)
  started : (w.session 0).state = .starting ∨ (w.session 0).state = .ready →
    ∃ t, Called ms t (.startSession 0) ∧ .session 0 .start ∉ w.stack t
  stopped : ∀ t timeout, Called ms t (.stopSession 0 timeout) →
    w.Over ∨ .session 0 (.stop timeout) ∈ w.stack t
  bottom : ∀ t, Called ms t (.startSession 0) → ∀ f ∈ (w.stack t).getLast?,
    ∃ p, f = .session 0 p ∧ (p.starts = true ∨ p.ends = true)

namespace Calls

section Moves

variable (h : Calls ms m.world) (standing : m.world.Standing) (alone : m.world.Alone)
variable (goes : m.Goes w') (moves : Moves m.Begins R m.world w')

include h goes moves in
theorem inside_move (called : Called (ms ++ [m]) t c) : t < w'.loop.tasks.length := by
  rcases called_next.1 called with old | ⟨act, rfl⟩
  · exact Nat.lt_of_lt_of_le (h.inside t c old) moves.moved.tasks
  · rw [(goes.call act).2.2]
    exact Nat.lt_succ_self _

include h alone goes moves in
theorem uses_move (hf : f ∈ w'.stack t) (use : f.isUse 0 = true) :
    w'.stack t = [f] ∧ ∃ c, Called (ms ++ [m]) t c ∧ f = c.frame := by
  rcases alone.client.use_cases alone.sound moves.move use hf with ⟨old, stack, -⟩ | ⟨stack, new, begins⟩
  · obtain ⟨single, c, called, same⟩ := h.uses t f old use
    exact ⟨stack.trans single, c, called.later m, same⟩
  · obtain ⟨c, act, same, task⟩ := goes.fresh begins new stack
    exact ⟨stack, c, called_next.2 (.inr ⟨act, task⟩), same⟩

include h standing alone goes moves in
theorem tasks_move (hp : .session 0 p ∈ w'.stack t) :
    (∃ c, Called (ms ++ [m]) t c) ∨ (w'.session 0).reaper = some t := by
  have old {p : Session.Stage} (before : .session 0 p ∈ m.world.stack t) :
      (∃ c, Called (ms ++ [m]) t c) ∨ (w'.session 0).reaper = some t := by
    rcases h.tasks t _ before with ⟨c, called⟩ | reaper
    · exact .inl ⟨c, called.later m⟩
    · exact .inr (standing.still_reaped alone moves.move reaper)
  cases alone.sound.fate moves.move t with
  | stays stack => exact old (stack ▸ hp)
  | ends _ stack =>
    rw [stack] at hp
    cases hp
  | wakes _ stack => exact old (stack ▸ hp)
  | @begins g new stack _ _ source =>
    rw [stack] at hp
    cases List.mem_singleton.1 hp
    rcases source with ⟨-, begins⟩ | ⟨u, f, o, rest, begun, flow, w₂, strides, found⟩
    · obtain ⟨c, act, -, task⟩ := goes.fresh begins new stack
      exact .inl ⟨c, called_next.2 (.inr ⟨act, task⟩)⟩
    · right
      obtain ⟨loses, single⟩ := alone.loses_of_begun strides (List.mem_of_getElem? found)
      rw [loses.reaper alone]
      subst single
      have first := (List.getElem?_eq_some_iff.1 found).1
      have zero : t - m.world.loop.tasks.length = 0 := Nat.lt_one_iff.1 first
      exact congrArg some (Nat.le_antisymm new (Nat.sub_eq_zero_iff_le.1 zero))
  | @goes f o rest begun flow w₂ strides stack =>
    rw [stack] at hp
    rcases List.mem_append.1 hp with there | below
    · obtain ⟨q, rfl⟩ := (alone.client.leads strides).stage there
      exact old (strides.top ▸ List.mem_cons_self)
    · exact old (strides.top ▸ List.mem_cons_of_mem f below)

include h in
theorem start_called (hf : .session 0 .start ∈ m.world.stack t) : Called ms t (.startSession 0) := by
  obtain ⟨-, c, called, same⟩ := h.uses t _ hf rfl
  exact eq_start_of_frame same ▸ called

include h in
theorem stop_called {timeout : Timeout} (hf : .session 0 (.stop timeout) ∈ m.world.stack t) :
    Called ms t (.stopSession 0 timeout) := by
  obtain ⟨-, c, called, same⟩ := h.uses t _ hf rfl
  exact eq_stop_of_frame same ▸ called

include h alone moves in
/-- The frame of a call is gone once its task has gone on. -/
theorem gone (called : Called ms t c) (use : f.isUse 0 = true)
    (hf : f ∉ m.world.stack t ∨ ∃ o, m.world.current = some (t, o)) : f ∉ w'.stack t := by
  intro member
  rcases alone.client.use_cases alone.sound moves.move use member with ⟨old, -, still⟩ | ⟨-, new, -⟩
  · rcases hf with none | ⟨o, runs⟩
    · exact none old
    · exact still o runs
  · exact absurd (h.inside t c called) (Nat.not_lt.2 new)

include h standing alone moves in
theorem touched_move (state : (w'.session 0).state ≠ .unstarted) :
    (∃ t, Called (ms ++ [m]) t (.startSession 0)) ∨
      ∃ t timeout, Called (ms ++ [m]) t (.stopSession 0 timeout) := by
  by_cases before : (m.world.session 0).state = .unstarted
  · obtain ⟨u, f, o, rest, begun, flow, w₂, strides, which⟩ :=
      (standing.unstarted_cases alone moves.move before).resolve_left state
    have top : f ∈ m.world.stack u := strides.top ▸ List.mem_cons_self
    rcases which with rfl | ⟨timeout, rfl⟩
    · exact .inl ⟨u, (h.start_called top).later m⟩
    · exact .inr ⟨u, timeout, (h.stop_called top).later m⟩
  · exact (h.touched before).imp (fun ⟨t, called⟩ => ⟨t, called.later m⟩)
      fun ⟨t, timeout, called⟩ => ⟨t, timeout, called.later m⟩

include h alone moves in
theorem started_move (state : (w'.session 0).state = .starting ∨ (w'.session 0).state = .ready) :
    ∃ t, Called (ms ++ [m]) t (.startSession 0) ∧ .session 0 .start ∉ w'.stack t := by
  have kept (before : (m.world.session 0).state = .starting ∨ (m.world.session 0).state = .ready) :
      ∃ t, Called (ms ++ [m]) t (.startSession 0) ∧ .session 0 .start ∉ w'.stack t := by
    obtain ⟨t, called, none⟩ := h.started before
    exact ⟨t, called.later m, h.gone alone moves called rfl (.inl none)⟩
  cases before : (m.world.session 0).state with
  | starting => exact kept (.inl before)
  | ready => exact kept (.inr before)
  | stopped =>
    rw [alone.client.stopped moves.move before] at state
    rcases state with same | same <;> cases same
  | unstarted =>
    rw [← state_core] at state before
    rcases alone.client.shifts moves.move 0 with same | ⟨u, f, o, rest, begun, flow, w₂, strides, shifts⟩
    · rw [same, before] at state
      rcases state with same | same <;> cases same
    · have top : f ∈ m.world.stack u := strides.top ▸ List.mem_cons_self
      generalize w'.core.session 0 = x at shifts state
      cases shifts with
      | starts =>
        have called := h.start_called top
        exact ⟨u, called.later m, h.gone alone moves called rfl (.inr ⟨_, strides.runs⟩)⟩
      | fails | stops | loses => rcases state with same | same <;> cases same
      | readies starting =>
        rw [state_core, starting] at before
        cases before
      | _ =>
        have state' : (m.world.core.session 0).state = .starting ∨
          (m.world.core.session 0).state = .ready := state
        rw [before] at state'
        rcases state' with same | same <;> cases same

include h alone goes moves in
theorem stopped_move (knowing : Knowing ms m.world) {timeout : Timeout}
    (called : Called (ms ++ [m]) t (.stopSession 0 timeout)) :
    w'.Over ∨ .session 0 (.stop timeout) ∈ w'.stack t := by
  rcases called_next.1 called with old | ⟨act, rfl⟩
  · rcases h.stopped t timeout old with past | there
    · exact .inl (alone.client.still_over moves.move past)
    · rcases alone.sound.lasts moves.move there with kept | ⟨o, rest, begun, flow, w₂, strides, -⟩
      · exact .inr kept
      · have fit := knowing.fits alone strides (.inl rfl)
        have marked {f : Session → Session} (core : w₂.core = m.world.core.setSession 0 f)
            (same : ∀ x, (f x).stopping = true) : w'.Over := by
          right
          rw [← stopping_core, strides.lands.aside.core, core,
            Core.session_setSession_self alone.inside, same]
        left
        cases (strides.conducts alone.client).halts fit with
        | stands stopping => exact .inr (alone.client.stopping moves.move stopping)
        | joins _ core => exact marked core fun _ => rfl
        | stops core => exact marked core fun _ => rfl
  · right
    rw [(goes.call act).2.1]
    exact List.mem_singleton_self _

include h alone goes moves in
theorem bottom_move (called : Called (ms ++ [m]) t (.startSession 0)) :
    ∀ f ∈ (w'.stack t).getLast?, ∃ p, f = .session 0 p ∧ (p.starts = true ∨ p.ends = true) := by
  rcases called_next.1 called with old | ⟨act, rfl⟩
  · have known := h.bottom t old
    cases alone.sound.fate moves.move t with
    | stays stack => exact stack ▸ known
    | ends _ stack =>
      rw [stack]
      exact fun _ hf => nomatch hf
    | wakes _ stack => exact stack ▸ known
    | begins new => exact absurd (h.inside t _ old) (Nat.not_lt.2 new)
    | @goes f o rest begun flow w₂ strides stack =>
      rw [stack, getLast?_frames]
      rw [strides.top] at known
      cases rest with
      | nil =>
        obtain ⟨p, rfl, bottom⟩ := known f rfl
        exact (alone.client.leads strides).bottom bottom
      | cons g rest =>
        rw [List.getLast?_cons_cons] at known
        exact known
  · rw [(goes.call act).2.1]
    rintro _ ⟨⟩
    exact ⟨.start, rfl, .inl rfl⟩

end Moves

theorem move (h : Calls ms m.world) (standing : m.world.Standing) (alone : m.world.Alone)
    (knowing : Knowing ms m.world) (goes : m.Goes w') (moves : Moves m.Begins R m.world w') :
    Calls (ms ++ [m]) w' where
  inside _ _ := h.inside_move goes moves
  uses _ _ := h.uses_move alone goes moves
  tasks _ _ := h.tasks_move standing alone goes moves
  touched := h.touched_move standing alone moves
  started := h.started_move alone moves
  stopped _ _ := h.stopped_move alone goes moves knowing
  bottom _ := h.bottom_move alone goes moves

end Calls

end World
end LanguageClient
