import LanguageClient.Proofs.Client.Shift

/-!
What the stages of a session do, each exactly: where the task goes on, and what the step makes of the
sessions, the connections and what the backends are sent.
-/

namespace LanguageClient

open Schedule

theorem Session.Stage.starts_of_closes (p : Stage) (h : p.closes = true) : p.starts = false := by
  cases p <;> first | rfl | cases h

namespace World

variable {may : Frame → Prop} {R : CellId → Prop} {t u : TaskId} {w w' w₂ : World}
variable {f g : Frame} {rest begun : List Frame} {o : Outcome Result} {flow : Flow Frame Result}

/-- What a stage of a session does, from one world to another. -/
inductive Conduct (w w' : World) (s : SessionId) :
    Session.Stage → Outcome Result → Flow Frame Result → Prop
  | fails {p : Session.Stage} {e : Failure} (h : (Frame.session s p).catches e = false)
    (core : w'.core = w.core) : Conduct w w' s p (.error e) (.done (.error e))
  -- the start
  | late {r : Result} {state : SessionState} (again : (w.session s).state ≠ .unstarted)
    (core : w'.core = w.core) :
    Conduct w w' s .start (.ok r) (.done (.error (.badTransition state .starting)))
  | stumbles {r : Result} {e : Failure} (fresh : (w.session s).state = .unstarted)
    (h : startFolder (w.session s) = .error e)
    (core : w'.core = w.core.setSession s fun x => { x with state := .starting }) :
    Conduct w w' s .start (.ok r) (.done (.error e))
  | refused {p : Session.Stage} {r : Result} {key reason : String}
    (h : (p = .start ∧ (w.session s).state = .unstarted) ∨ (∃ b, p = .launched b) ∨
      ∃ e, p = .abandoned e)
    (core : w'.core = w.core.setSession s Session.spent) :
    Conduct w w' s p (.ok r) (.done (.error (.launch key reason)))
  | launches {r : Result} {flow : Flow Frame Result} (fresh : (w.session s).state = .unstarted)
    (flow_ : flow = .goto (.session s (.launched w.backends.length)) ∨
      ∃ c, Novel w w' c ∧ flow = .await c (.session s (.launched w.backends.length)))
    (core : w'.core = { w.core.setSession s fun x => { x with state := .starting } with
      inboxes := w.core.inboxes ++ [⟨[], false, false⟩] }) :
    Conduct w w' s .start (.ok r) flow
  | arrives {b : BackendId} {r : Result} (stopping : (w.session s).stopping = true)
    (core : w'.core = (w.core.spawn b).setSession s fun x => { x with backend := some b }) :
    Conduct w w' s (.launched b) (.ok r) (.goto (.session s (.shutdown (.after 0))))
  | lost {b : BackendId} {r : Result} {e : Failure} (going : (w.session s).stopping = false)
    (h : (w.session s).initializeParams = .error e)
    (core : w'.core = { (w.core.spawn b).setSession s fun x =>
          { x with backend := some b, connection := some w.connections.length } with
        connections := w.core.connections ++ [Connection.opened b s w.loop.tasks.length] }) :
    Conduct w w' s (.launched b) (.ok r) (.done (.error e))
  | connects {b : BackendId} {params : Value} {timeout : Timeout} {r : Result}
    (going : (w.session s).stopping = false) (h : (w.session s).initializeParams = .ok params)
    (core : w'.core = { (w.core.spawn b).setSession s fun x =>
          { x with backend := some b, connection := some w.connections.length } with
        connections := w.core.connections ++ [Connection.opened b s w.loop.tasks.length] }) :
    Conduct w w' s (.launched b) (.ok r)
      (.call (.connection w.connections.length (.request "initialize" params timeout))
        (.session s .initializeAnswered))
  | greets {k : ConnectionId} {r : Result} (connected : (w.session s).connection = some k)
    (core : w'.core = w.core) :
    Conduct w w' s .initializeAnswered (.ok r)
      (.call (.connection k (.notify "initialized" (.map []))) (.session s .initializedSent))
  | gives {p : Session.Stage} {e : Failure} {o : Outcome Result}
    (h : p = .initializeAnswered ∨ p = .initializedSent)
    (flow_ : (isExpected e = false ∧ o = .error e) ∨
      (isExpected e = true ∧ (w.session s).stopping = true ∧ o = .ok .nothing))
    (core : w'.core = w.core) : Conduct w w' s p (.error e) (.done o)
  | abandons {p : Session.Stage} {e : Failure}
    (h : p = .initializeAnswered ∨ p = .initializedSent) (expected : isExpected e = true)
    (going : (w.session s).stopping = false)
    (core : w'.core = w.core.setSession s fun x => { x with stopping := true }) :
    Conduct w w' s p (.error e)
      (.call (.session s (.shutdown (.after 0))) (.session s (.abandoned e)))
  | overtaken {r : Result} (h : (w.session s).state ≠ .starting) (core : w'.core = w.core) :
    Conduct w w' s .initializedSent (.ok r) (.done (.ok .nothing))
  | solitary {r : Result} (unconnected : (w.session s).connection = none)
    (core : w'.core = w.core) : Conduct w w' s .initializedSent (.ok r) (.done (.ok .nothing))
  | drops {k : ConnectionId} {r : Result} (h : (w.session s).state = .starting)
    (connected : (w.session s).connection = some k) (dead : (w.connection k).closed = true)
    (core : w'.core = w.core.setSession s fun x => { x with outbox := [] }) :
    Conduct w w' s .initializedSent (.ok r) (.done (.error (w.ended k)))
  | readies {k : ConnectionId} {r : Result} {x : Core} (h : (w.session s).state = .starting)
    (connected : (w.session s).connection = some k)
    (sound : (w.connection k).closed = true → (w.session s).outbox = [])
    (sends : Sends (w.connection k).backend
      ((w.session s).outbox.map fun n => Connection.notification n.1 n.2)
      (w.core.setSession s fun x => { x with outbox := [] }) x)
    (core : w'.core = x.setSession s fun x => { x with state := .ready }) :
    Conduct w w' s .initializedSent (.ok r)
      (.call (.connection k .drain) (.session s .flushed))
  | started {o : Outcome Result}
    (h : (∃ r, o = .ok r) ∨ ∃ name cause, o = .error (.closed name cause))
    (core : w'.core = w.core) : Conduct w w' s .flushed o (.done (.ok .nothing))
  | unconnected {p q : Session.Stage} {r : Result} (unconnected : (w.session s).connection = none)
    (h : (p = .initializeAnswered ∧ q = .initializedSent) ∨ (p = .release ∧ q = .released) ∨
      ∃ timeout, p = .shutdownAnswered timeout ∧ q = .exitSent timeout)
    (core : w'.core = w.core) : Conduct w w' s p (.ok r) (.goto (.session s q))
  -- notifications and events
  | takes {p q : Session.Stage} {r : Result} {flow : Flow Frame Result}
    (h : p = .consume .recorder ∨ ∃ c, p = .consumeAwoken .recorder c)
    (h' : q = .consume .recorder ∨ ∃ c, q = .consumeAwoken .recorder c)
    (flow_ : flow = .done (.ok .nothing) ∨ flow = .goto (.session s q) ∨
      ∃ c, Novel w w' c ∧ flow = .await c (.session s q))
    (core : w'.core = w.core) : Conduct w w' s p (.ok r) flow
  | keeps {method : String} {params : Value} {r : Result}
    (early : (w.session s).state.buffers = true)
    (core : w'.core = w.core.setSession s fun x =>
      { x with outbox := x.outbox ++ [(method, params)] }) :
    Conduct w w' s (.notify method params) (.ok r) (.done (.ok .nothing))
  | refuses {method key state : String} {params : Value} {r : Result}
    (h : (w.session s).state.buffers = false)
    (h' : (w.session s).state = .ready → (w.session s).connection = none)
    (core : w'.core = w.core) :
    Conduct w w' s (.notify method params) (.ok r) (.done (.error (.notReady method key state)))
  | tells {k : ConnectionId} {method : String} {params : Value} {r : Result}
    (ready : (w.session s).state = .ready) (connected : (w.session s).connection = some k)
    (core : w'.core = w.core) :
    Conduct w w' s (.notify method params) (.ok r)
      (.call (.connection k (.notify method params)) (.session s (.notified method)))
  | told {method : String} {r : Result} (core : w'.core = w.core) :
    Conduct w w' s (.notified method) (.ok r) (.done (.ok .nothing))
  | untold {method name message : String} {cause : ClosedCause} (core : w'.core = w.core) :
    Conduct w w' s (.notified method) (.error (.closed name cause))
      (.done (.error (.forwarding method message)))
  -- the end
  | stands {timeout : Timeout} {r : Result} (h : (w.session s).stopping = true)
    (core : w'.core = w.core) : Conduct w w' s (.stop timeout) (.ok r) (.done (.ok .nothing))
  | joins {timeout : Timeout} {r : Result} {u : TaskId} (h : (w.session s).stopping = false)
    (reaped : (w.session s).reaper = some u)
    (core : w'.core = w.core.setSession s fun x => { x with stopping := true }) :
    Conduct w w' s (.stop timeout) (.ok r) (.await (w.loop.taskCell u) .pass)
  | stops {timeout grace : Timeout} {r : Result} (h : (w.session s).stopping = false)
    (core : w'.core = w.core.setSession s fun x =>
      { x.moveToStopped with outbox := [], stopping := true }) :
    Conduct w w' s (.stop timeout) (.ok r) (.goto (.session s (.shutdown grace)))
  | asks {k : ConnectionId} {timeout : Timeout} {r : Result} (h : (w.session s).stopping = false)
    (ready : (w.session s).state = .ready) (connected : (w.session s).connection = some k)
    (core : w'.core = w.core.setSession s fun x =>
      { x.moveToStopped with outbox := [], stopping := true }) :
    Conduct w w' s (.stop timeout) (.ok r)
      (.call (.connection k (.request "shutdown" .null timeout))
        (.session s (.shutdownAnswered timeout)))
  | dismisses {k : ConnectionId} {timeout : Timeout} {r : Result}
    (connected : (w.session s).connection = some k) (core : w'.core = w.core) :
    Conduct w w' s (.shutdownAnswered timeout) (.ok r)
      (.call (.connection k (.notify "exit" .null)) (.session s (.exitSent timeout)))
  | turns {p : Session.Stage} {timeout : Timeout} {o : Outcome Result}
    (h : p = .exitSent timeout ∨ (p = .shutdownAnswered timeout ∧ ∃ e, o = .error e))
    (expected : ∀ e, o = .error e → isExpected e = true) (core : w'.core = w.core) :
    Conduct w w' s p o (.goto (.session s (.shutdown timeout)))
  | insists {p : Session.Stage} {o : Outcome Result}
    (h : (∃ grace r, p = .shutdown grace ∧ o = .ok r) ∨ (p = .graceOver ∧ o = .error .timeout))
    (core : w'.core = w.core) : Conduct w w' s p o (.goto (.session s .terminate))
  | vacates {p : Session.Stage} {o : Outcome Result}
    (h : (∃ grace, p = .shutdown grace) ∨ p = .terminate ∨ p = .terminateOver)
    (vacant : w'.Vacant s) (core : w'.core = w.core) :
    Conduct w w' s p o (.goto (.session s .release))
  | exits {p : Session.Stage} {r : Result} (h : p = .graceOver ∨ p = .terminateOver ∨ p = .killed)
    (core : w'.core = w.core) : Conduct w w' s p (.ok r) (.goto (.session s .release))
  | watches {p q : Session.Stage} {b : BackendId} {c : CellId} {timeout : Timeout}
    {o : Outcome Result} (novel : Novel w w' c) (spawned : (w.session s).backend = some b)
    (h : (p = .shutdown timeout ∧ q = .graceOver ∧ ∃ r, o = .ok r) ∨
      (p = .terminate ∧ q = .terminateOver ∧ ∃ r, o = .ok r) ∨
      (p = .terminateOver ∧ q = .killed ∧ timeout = .never ∧ o = .error .timeout))
    (core : w'.core = w.core) :
    Conduct w w' s p o (.call (.wait (.start c timeout)) (.session s q))
  | releases {k : ConnectionId} {r : Result} (connected : (w.session s).connection = some k)
    (core : w'.core = w.core) :
    Conduct w w' s .release (.ok r) (.call (.connection k .close) (.session s .released))
  | released {r : Result} (core : w'.core = w.core.setSession s Session.shut) :
    Conduct w w' s .released (.ok r) (.done (.ok .nothing))

variable {s : SessionId} {p : Session.Stage}

theorem fresh_of_move {x y : Session} (h : x.move .starting = .ok y) :
    x.state = .unstarted ∧ y = { x with state := .starting } := by
  rw [Session.move] at h
  split at h
  · next near =>
    cases h
    refine ⟨?_, rfl⟩
    cases state : x.state with
    | unstarted => rfl
    | _ => simp [state, SessionState.next] at near
  · cases h

theorem startSession_conducts {r : Result} :
    Conduct w (w.startSession s).2 s .start (.ok r) (w.startSession s).1 := by
  unfold startSession
  split
  · next e failed =>
    rw [Session.move] at failed
    split at failed
    · cases failed
    · next far =>
      cases failed
      refine .late (fun fresh => far ?_) rfl
      rw [fresh]
      rfl
  · next session moved =>
    obtain ⟨fresh, rfl⟩ := fresh_of_move moved
    have begun : w.setSession s (fun _ => { w.session s with state := .starting }) =
        w.setSession s fun x => { x with state := .starting } := setSession_congr rfl
    have core : (w.setSession s fun x => { x with state := .starting }).core =
        w.core.setSession s fun x => { x with state := .starting } :=
      core_setSession_eq (fun _ => by rfl) s w
    rw [begun]
    dsimp only
    split
    · next e failed => exact .stumbles fresh failed core
    · next folder _ =>
      split
      · refine .refused (.inl ⟨rfl, fresh⟩)
          ((failStart_spec (A := .none) (R := fun _ => False) s _).2.trans ?_)
        rw [core, Core.setSession, Core.setSession, List.modify_modify_eq]
        rfl
      · have asked := (requestBackend_spec (A := .none) (R := fun _ => False)
          (w.session s).command folder (w.setSession s fun x => { x with state := .starting })).2.2
        rw [core] at asked
        split
        · exact .launches fresh (.inl rfl) asked
        · exact .launches fresh (.inr ⟨_, novel_sleep _ _, rfl⟩) asked

theorem launched_conducts {b : BackendId} {r : Result} :
    Conduct w (w.launched s b).2 s (.launched b) (.ok r) (w.launched s b).1 := by
  unfold launched
  split
  · exact .refused (.inr (.inl ⟨b, rfl⟩)) (failStart_spec (A := .none) (R := fun _ => False) s w).2
  · let arrived := (w.beginBackend b).setSession s fun x => { x with backend := some b }
    have core : arrived.core =
        (w.core.spawn b).setSession s fun x => { x with backend := some b } := by
      rw [← (beginBackend_spec (A := .none) (R := fun _ => False) b w).2]
      exact core_setSession_eq (fun _ => by rfl) s _
    have session : (arrived.session s).stopping = (w.session s).stopping ∧
        (arrived.session s).root = (w.session s).root := by
      rcases session_setSession s s (fun x => { x with backend := some b }) (w.beginBackend b) with
        same | ⟨-, same⟩
      · exact ⟨congrArg Session.stopping same, congrArg Session.root same⟩
      · have stopping := congrArg Session.stopping same
        have root := congrArg Session.root same
        exact ⟨stopping, root⟩
    dsimp only
    split
    · next stopping => exact .arrives (session.1.symm.trans stopping) core
    · next going =>
      have going' : (w.session s).stopping = false :=
        session.1.symm.trans (Bool.eq_false_iff.2 going)
      obtain ⟨-, -, core'⟩ := connect_spec (A := .none) (R := fun _ => False) s b arrived
      have shown : (arrived.connect s b).2.core = { (w.core.spawn b).setSession s fun x =>
          { x with backend := some b, connection := some w.connections.length } with
        connections := w.core.connections ++ [Connection.opened b s w.loop.tasks.length] } := by
        rw [core', core, Core.setSession, Core.setSession, List.modify_modify_eq]
        rfl
      have root : ((arrived.connect s b).2.session s).root = (w.session s).root := by
        have same := session_core s (arrived.connect s b).2
        have before := congrArg Session.root (session_core s w)
        rw [shown] at same
        rcases getD_modify s s (fun x : Session =>
          { x with backend := some b, connection := some w.connections.length }) w.core.sessions
          (Session.core default) with kept | ⟨-, kept⟩
        · have known := congrArg Session.root (same.symm.trans kept)
          exact known.trans before
        · have known := congrArg Session.root (same.symm.trans kept)
          exact known.trans before
      rw [initializeParams_of_root root]
      split
      · next e failed => exact .lost going' failed shown
      · next params known => exact .connects going' known shown

theorem notifySession_conducts {method : String} {params : Value} {r : Result} :
    Conduct w (w.notifySession s method params).2 s (.notify method params) (.ok r)
      (w.notifySession s method params).1 := by
  unfold notifySession
  dsimp only
  split
  · next early => exact .keeps early (core_setSession_eq (fun _ => by rfl) s w)
  · next late =>
    split
    · next k ready connected => exact .tells ready connected rfl
    · next other =>
      refine .refuses (Bool.eq_false_iff.2 late) (fun ready => ?_) rfl
      cases connected : (w.session s).connection with
      | none => rfl
      | some k => exact absurd connected (other k ready)

theorem stopSession_conducts {timeout : Timeout} {r : Result} :
    Conduct w (w.stopSession s timeout).2 s (.stop timeout) (.ok r) (w.stopSession s timeout).1 := by
  unfold stopSession
  dsimp only
  split
  · next stopping => exact .stands stopping rfl
  · next going =>
    have idle : (w.session s).stopping = false := Bool.eq_false_iff.2 going
    let marked := w.setSession s fun x => { x with stopping := true }
    have core : marked.core = w.core.setSession s fun x => { x with stopping := true } :=
      core_setSession_eq (fun _ => by rfl) s w
    split
    · next u reaped => exact .joins idle reaped core
    · let moved := marked.setSession s fun x => { x.moveToStopped with outbox := [] }
      have core' : moved.core = w.core.setSession s stopped := by
        have second := core_setSession_eq
          (f := fun x : Session => { x.moveToStopped with outbox := [] })
          (g := fun x => { x.moveToStopped with outbox := [] }) (fun _ => rfl) s marked
        refine second.trans ?_
        rw [core, Core.setSession, Core.setSession, List.modify_modify_eq]
        rfl
      split
      · exact .stops idle core'
      · next ready =>
        have ready' : (w.session s).state = .ready := by simpa using ready
        split
        · next k connected =>
          split
          · exact .stops idle core'
          · exact .asks idle ready' connected core'
        · exact .stops idle core'

theorem completeStart_conducts {r : Result} :
    Conduct w (w.completeStart s).2 s .initializedSent (.ok r) (w.completeStart s).1 := by
  unfold completeStart
  split
  · next moved => exact .overtaken moved rfl
  · next state =>
    have starting : (w.session s).state = .starting := Decidable.not_not.1 state
    let done := w.setSession s fun x => { x with started := true }
    have core : done.core = w.core := core_setSession (fun _ => by rfl) s w
    have session : (done.session s).core = (w.session s).core := session_of_core core s
    have connection : (done.session s).connection = (w.session s).connection :=
      (congrArg Session.connection session :)
    have outbox : (done.session s).outbox = (w.session s).outbox :=
      (congrArg Session.outbox session :)
    dsimp only
    split
    · next unconnected => exact .solitary (connection.symm.trans unconnected) core
    · next k connected =>
      have connected' := connection.symm.trans connected
      split
      · next dead =>
        have closed : (w.connection k).closed = true := (Bool.and_eq_true_iff.1 dead).1
        refine .drops starting connected' closed ?_
        rw [← core]
        exact core_setSession_eq (fun _ => by rfl) s done
      · next sound =>
        obtain ⟨-, x, sends, core'⟩ := flush_spec (A := .none) (R := fun _ => False) s k done
        rw [outbox, core] at sends
        refine .readies starting connected' (fun closed => ?_) sends core'
        cases kept : (w.session s).outbox with
        | nil => rfl
        | cons n rest =>
          refine absurd ?_ sound
          rw [outbox, kept]
          simp only [List.isEmpty_cons, Bool.not_false, Bool.and_true]
          exact closed

/-- A stage that sees to an end does not show before the session is released. -/
theorem Change.closing_core {x : Core} (h : Change w (.session s p) o begun flow x)
    (closes : p.closes = true) (other : p ≠ .released) : x = w.core := by
  cases h with
  | quiet => rfl
  | closing => rfl
  | dismisses => rfl
  | shuts => exact absurd rfl other
  | fails start =>
    rw [p.starts_of_closes closes] at start
    cases start
  | abandons start => rcases start with rfl | rfl <;> cases closes
  | _ => cases closes

theorem Conduct.aside {current : Option (TaskId × Outcome Result)}
    (h : Conduct { w with current := current } w' s p o flow) : Conduct w w' s p o flow := by
  cases h with
  | solitary unconnected core => exact .solitary unconnected core
  | takes h h' flow_ core => exact .takes h h' flow_ core
  | keeps early core => exact .keeps early core
  | refuses h h' core => exact .refuses h h' core
  | tells ready connected core => exact .tells ready connected core
  | told core => exact .told core
  | untold core => exact .untold core
  | stands h core => exact .stands h core
  | joins h reaped core => exact .joins h reaped core
  | stops h core => exact .stops h core
  | asks h ready connected core => exact .asks h ready connected core
  | dismisses connected core => exact .dismisses connected core
  | exits h core => exact .exits h core
  | releases connected core => exact .releases connected core
  | released core => exact .released core
  | _ => constructor <;> assumption

/-- What a step of a session's task does. -/
theorem Strides.conducts (client : w.Client)
    (strides : Strides R w w' t (.session s p) o rest begun flow w₂) :
    Conduct w w₂ s p o flow := by
  refine @Conduct.aside _ _ _ _ _ _ none ?_
  let w₀ : World := { w with current := none }
  have leads : Leads t w₀ w₂ (.session s p) o flow := client.leads strides
  have change : Change w₀ (.session s p) o begun flow w₂.core := strides.turn.change
  have steps : w₀.resumeSession s p o = (flow, w₂) := strides.steps
  have exactly (h : Conduct w₀ (w₀.resumeSession s p o).2 s p o (w₀.resumeSession s p o).1) :
      Conduct w₀ w₂ s p o flow := by rwa [steps] at h
  generalize core : w₂.core = x at change
  cases leads with
  | fails h =>
    cases change with
    | quiet => exact .fails h core
    | closing => exact .fails h core
  | late | stumbles | launches => exact exactly startSession_conducts
  | arrives | lost | connects => exact exactly launched_conducts
  | keeps | refuses | tells => exact exactly notifySession_conducts
  | stands | joins | stops | asks => exact exactly stopSession_conducts
  | refused h =>
    cases p with
    | start => exact exactly startSession_conducts
    | launched => exact exactly launched_conducts
    | initializedSent => exact exactly completeStart_conducts
    | abandoned e => exact exactly (.refused (.inr (.inr ⟨e, rfl⟩))
        (failStart_spec (A := .none) (R := fun _ => False) s _).2)
    | initializeAnswered =>
      simp only [resumeSession, callConnection] at steps
      split at steps <;> cases steps
    | flushed => cases steps
    | _ => cases h
  | overtaken | solitary | drops | readies => exact exactly completeStart_conducts
  | greets connected =>
    cases change with
    | quiet frames => cases (frames _ List.mem_cons_self).plain
    | closing closes => cases closes
    | greets => exact .greets connected core
  | gives h flow_ =>
    cases change with
    | quiet => exact .gives h flow_ core
    | closing closes => rcases h with rfl | rfl <;> cases closes
  | abandons h expected going =>
    cases change with
    | quiet frames => cases (frames _ List.mem_cons_self).plain
    | closing closes => rcases h with rfl | rfl <;> cases closes
    | abandons => exact .abandons h expected going core
  | started h =>
    cases change with
    | quiet => exact .started h core
    | closing closes => cases closes
  | unconnected alone h =>
    rcases h with ⟨rfl, rfl⟩ | ⟨rfl, rfl⟩ | ⟨timeout, rfl, rfl⟩
    · cases change with
      | quiet => exact .unconnected alone (.inl ⟨rfl, rfl⟩) core
      | closing closes => cases closes
      | greets => exact .unconnected alone (.inl ⟨rfl, rfl⟩) core
    · exact .unconnected alone (.inr (.inl ⟨rfl, rfl⟩))
        (core.trans (change.closing_core rfl (by simp)))
    · exact .unconnected alone (.inr (.inr ⟨timeout, rfl, rfl⟩))
        (core.trans (change.closing_core rfl (by simp)))
  | takes h h' flow_ =>
    refine .takes h h' flow_ (core.trans ?_)
    rcases h with rfl | ⟨c, rfl⟩ <;>
    · cases change with
      | quiet => rfl
      | closing closes => cases closes
      | fails start => cases start
  | told =>
    cases change with
    | quiet => exact .told core
    | closing closes => cases closes
  | untold =>
    cases change with
    | quiet => exact .untold core
    | closing closes => cases closes
  | dismisses connected =>
    exact .dismisses connected (core.trans (change.closing_core rfl (by simp)))
  | turns h expected =>
    refine .turns h expected (core.trans ?_)
    rcases h with rfl | ⟨rfl, -⟩ <;> exact change.closing_core rfl (by simp)
  | insists h =>
    refine .insists h (core.trans ?_)
    rcases h with ⟨grace, r, rfl, -⟩ | ⟨rfl, -⟩ <;>
      exact change.closing_core rfl (by simp)
  | vacates h vacant =>
    refine .vacates h vacant (core.trans ?_)
    rcases h with ⟨grace, rfl⟩ | rfl | rfl <;> exact change.closing_core rfl (by simp)
  | exits h =>
    refine .exits h (core.trans ?_)
    rcases h with rfl | rfl | rfl <;> exact change.closing_core rfl (by simp)
  | watches novel spawned h =>
    refine .watches novel spawned h (core.trans ?_)
    rcases h with ⟨rfl, -⟩ | ⟨rfl, -⟩ | ⟨rfl, -⟩ <;>
      exact change.closing_core rfl (by simp)
  | releases connected =>
    exact .releases connected (core.trans (change.closing_core rfl (by simp)))
  | released =>
    exact exactly (.released (closeBus_spec (A := .none) (R := fun _ => False) s _).2)

end World
end LanguageClient
