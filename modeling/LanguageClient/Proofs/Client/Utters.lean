import LanguageClient.Proofs.Client.Farewell
import LanguageClient.Proofs.Client.Writes

/-!
What a move adds to what a session that is alone has to say: nothing, all that it has kept when it
becomes ready, or one message that a stage of it has a connection write.
-/

namespace LanguageClient

open Schedule

/-- Stages that wait for what comes of a greeting, or of the request to shut down. -/
def Session.Stage.hears : Stage → Bool
  | .initializeAnswered | .initializedSent | .shutdownAnswered _ => true
  | _ => false

namespace World

variable {may : Frame → Prop} {R : CellId → Prop} {t u : TaskId} {w w' w₂ : World}
variable {f g : Frame} {rest begun : List Frame} {o : Outcome Result} {flow : Flow Frame Result}
variable {p q : Session.Stage} {ms : List Moment} {message : Value}

/-- What a session has a connection write, and the stage that goes on after it. -/
inductive Utters (w : World) : Session.Stage → Value → Session.Stage → Prop
  | opens {b : BackendId} {params : Value} (id : Nat) :
    Utters w (.launched b) (Connection.request id "initialize" params) .initializeAnswered
  | greets : Utters w .initializeAnswered (Connection.notification "initialized" (.map [])) .initializedSent
  | tells {method : String} {params : Value} (ready : (w.session 0).state = .ready) :
    Utters w (.notify method params) (Connection.notification method params) (.notified method)
  | asks {timeout : Timeout} (id : Nat) (ready : (w.session 0).state = .ready) :
    Utters w (.stop timeout) (Connection.request id "shutdown" .null) (.shutdownAnswered timeout)
  | dismisses {timeout : Timeout} :
    Utters w (.shutdownAnswered timeout) (Connection.notification "exit" .null) (.exitSent timeout)

theorem Utters.nothing_below (h : Utters w p message q) (linked : Linked (.session 0 p :: rest)) :
    rest = [] :=
  linked.nothing_below (by cases h <;> rfl)

/-- What a stage of a session calls writes nothing, unless it utters that. -/
theorem Conduct.utters (h : Conduct w w₂ 0 p o flow) (w' : World) :
    (∀ inner g, flow = .call inner g → w'.owes inner = []) ∨
      ∃ r message q inner, o = .ok r ∧ Utters w p message q ∧ flow = .call inner (.session 0 q) ∧
        w'.owes inner = [message] := by
  cases h with
  | connects => exact .inr ⟨_, _, _, _, rfl, .opens _, rfl, rfl⟩
  | greets => exact .inr ⟨_, _, _, _, rfl, .greets, rfl, rfl⟩
  | tells ready => exact .inr ⟨_, _, _, _, rfl, .tells ready, rfl, rfl⟩
  | asks _ ready => exact .inr ⟨_, _, _, _, rfl, .asks _ ready, rfl, rfl⟩
  | dismisses => exact .inr ⟨_, _, _, _, rfl, .dismisses, rfl, rfl⟩
  | launches _ flow_ => rcases flow_ with rfl | ⟨c, -, rfl⟩ <;> exact .inl fun _ _ same => by cases same
  | takes _ _ flow_ =>
    rcases flow_ with rfl | rfl | ⟨c, -, rfl⟩ <;> exact .inl fun _ _ same => by cases same
  | _ => exact .inl fun _ _ same => by cases same <;> rfl

/-- Stages that wait to hear something have been come to by uttering something. -/
theorem Conduct.hears (h : Conduct w w₂ 0 p o flow) (hq : .session 0 q ∈ flow.frames)
    (hears : q.hears = true) (connected : p = .initializeAnswered → (w.session 0).connection ≠ none)
    (w' : World) : ∃ r message inner, o = .ok r ∧ Utters w p message q ∧ flow = .call inner (.session 0 q) ∧
      w'.owes inner = [message] := by
  have called {inner : Frame} {q' : Session.Stage} (other : ∀ q, inner ≠ .session 0 q)
      (hq : .session 0 q ∈ [inner, .session 0 q']) : q = q' := by
    simp only [List.mem_cons, List.not_mem_nil, or_false] at hq
    rcases hq with same | same
    · exact absurd same.symm (other q)
    · cases same
      rfl
  cases h with
  | connects =>
    cases called (fun _ => by simp) hq
    exact ⟨_, _, _, rfl, .opens _, rfl, rfl⟩
  | greets =>
    cases called (fun _ => by simp) hq
    exact ⟨_, _, _, rfl, .greets, rfl, rfl⟩
  | asks _ ready =>
    cases called (fun _ => by simp) hq
    exact ⟨_, _, _, rfl, .asks _ ready, rfl, rfl⟩
  | readies | tells | dismisses | releases =>
    cases called (fun _ => by simp) hq
    cases hears
  | unconnected unconnected stages =>
    rcases stages with ⟨rfl, -⟩ | ⟨-, rfl⟩ | ⟨_, -, rfl⟩
    · exact absurd unconnected (connected rfl)
    all_goals
      cases List.mem_singleton.1 hq
      cases hears
  | launches _ flow_ => rcases flow_ with rfl | ⟨c, -, rfl⟩ <;> (cases List.mem_singleton.1 hq; cases hears)
  | takes _ next flow_ =>
    rcases flow_ with rfl | rfl | ⟨c, -, rfl⟩
    · cases hq
    all_goals
      cases List.mem_singleton.1 hq
      rcases next with rfl | ⟨c, rfl⟩ <;> cases hears
  | watches _ _ stages =>
    rcases stages with ⟨-, rfl, -⟩ | ⟨-, rfl, -⟩ | ⟨-, rfl, -⟩ <;>
    · cases called (fun _ => by simp) hq
      cases hears
  | abandons =>
    simp only [Flow.frames, List.mem_cons, List.not_mem_nil, or_false] at hq
    rcases hq with same | same <;> (cases same; cases hears)
  | joins => cases List.mem_singleton.1 hq
  | arrives | stops | turns | insists | vacates | exits =>
    cases List.mem_singleton.1 hq
    cases hears
  | _ => cases hq

/-- What a session becomes ready with is written at once. -/
theorem Conduct.readied {k : ConnectionId}
    (h : Conduct w w₂ 0 p o (.call (.connection k .drain) (.session 0 .flushed))) (alone : w.Alone)
    (housed : w.Housed) : p = .initializedSent ∧ (w₂.core.session 0).state = .ready ∧
      ((w.connection 0).closed = true → (w.session 0).outbox = []) ∧
      Core.Speaks ((w.session 0).outbox.map fun n => Connection.notification n.1 n.2) w.core w₂.core := by
  cases h with
  | launches _ flow_ => rcases flow_ with same | ⟨c, -, same⟩ <;> cases same
  | takes _ _ flow_ => rcases flow_ with same | same | ⟨c, -, same⟩ <;> cases same
  | @readies _ _ x _ connected sound sends core =>
    cases alone.own connected
    rw [(alone.owner 0).1] at sends
    refine ⟨rfl, ?_, sound, ?_⟩
    · have grown : x.sessions.length = w.core.sessions.length :=
        (Core.Holds.sends sends).sessions.trans (List.length_modify _ _ _)
      rw [core, Core.session_setSession_self (by rw [grown]; exact alone.inside)]
    · have inside : 0 < w.core.inboxes.length := housed (.inr (by rw [connected]; simp))
      have before : Core.Speaks [] w.core (w.core.setSession 0 fun y => { y with outbox := [] }) :=
        .of_inboxes rfl
      have sent := Core.Speaks.sends sends inside fun message member => by
        obtain ⟨n, -, rfl⟩ := List.mem_map.1 member
        exact Connection.isCall_notification n.1 n.2
      have after : Core.Speaks [] x w₂.core := .of_inboxes (by rw [core]; rfl)
      have whole := (before.trans sent).trans after
      rwa [List.nil_append, List.append_nil] at whole

/-- A start that comes to its end without that leaves the state of its session as it is. -/
theorem Conduct.unready (h : Conduct w w₂ 0 .initializedSent o flow) (alone : w.Alone)
    (other : ∀ k, flow ≠ .call (.connection k .drain) (.session 0 .flushed)) :
    (w₂.core.session 0).state = (w.core.session 0).state := by
  cases h with
  | readies => exact absurd rfl (other _)
  | fails _ core | gives _ _ core | overtaken _ core | solitary _ core => rw [core]
  | abandons _ _ _ core | drops _ _ _ core => rw [core, Core.session_setSession_self alone.inside]
  -- All else is done at other stages.
  | _ => simp_all

/-- What a move adds to what a session has to say. -/
inductive Speech (R : CellId → Prop) (w w' : World) : Prop
  | rests (late : (w'.session 0).state = .ready → (w.session 0).state = .ready)
    (talks : Talks [] w w') (unowed : w'.owed = [])
  | readies {t : TaskId} {o : Outcome Result} {rest begun : List Frame} {flow : Flow Frame Result}
    {w₂ : World} (strides : Strides R w w' t (.session 0 .initializedSent) o rest begun flow w₂)
    (ready : (w'.session 0).state = .ready) (unowed : w'.owed = [])
    (talks : Talks ((w.session 0).outbox.map fun n => Connection.notification n.1 n.2) w w')
  | utters {t : TaskId} {p q : Session.Stage} {r : Result} {rest begun : List Frame} {inner : Frame}
    {w₂ : World} {message : Value}
    (strides : Strides R w w' t (.session 0 p) (.ok r) rest begun (.call inner (.session 0 q)) w₂)
    (late : (w'.session 0).state = .ready → (w.session 0).state = .ready)
    (utters : Utters w p message q) (owed : w'.owed = [message]) (talks : Talks [message] w w')

theorem Course.speech (course : Course ms w) (housed : w.Housed) (move : Move may R w w')
    (first : ∀ g, may g → g.isUse 0 = true) : Speech R w w' := by
  have alone := course.alone
  by_cases strides : ∃ t s p o rest begun flow w₂, Strides R w w' t (.session s p) o rest begun flow w₂
  · obtain ⟨t, s, p, o, rest, begun, flow, w₂, strides⟩ := strides
    cases alone.here (strides.top ▸ List.mem_cons_self)
    have conduct := strides.conducts alone.client
    have still (closed : (w.connection 0).closed = true) := move.still_closed closed
    have before : w.owed = [] := owed_of_runs strides.runs strides.top
    have after := strides.owed alone.client alone.sound
    by_cases drains : ∃ k, flow = .call (.connection k .drain) (.session 0 .flushed)
    · obtain ⟨k, rfl⟩ := drains
      obtain ⟨rfl, ready, dead, speaks⟩ := conduct.readied alone housed
      rw [← strides.lands.aside.core] at ready speaks
      refine .readies strides ((state_core 0 w').symm.trans ready) after
        ⟨still, _, speaks, fun closed => ?_, fun _ => ?_⟩
      · rw [dead closed]
        rfl
      · rw [before, after]
        exact List.append_nil _
    · have other (k : ConnectionId) : flow ≠ .call (.connection k .drain) (.session 0 .flushed) :=
        fun same => drains ⟨k, same⟩
      have late (ready : (w'.session 0).state = .ready) : (w.session 0).state = .ready := by
        rcases alone.client.ready_cases move ready with
          before | ⟨_, _, _, _, _, _, strides', starting, -⟩
        · exact before
        · cases strides.runs.symm.trans strides'.runs
          cases strides.top.symm.trans strides'.top
          have same := conduct.unready alone other
          rwa [← strides.lands.aside.core, state_core, state_core, ready, eq_comm] at same
      have silent : Core.Speaks [] w.core w'.core := strides.lands.aside.core ▸
        alone.silent conduct other
      have talks : Talks w'.owed w w' := ⟨still, [], silent, fun _ => rfl, fun _ => by rw [before]⟩
      rcases conduct.utters w' with quiet | ⟨r, message, q, inner, rfl, utters, rfl, owes⟩
      · have unowed : w'.owed = [] := by
          cases flow with
          | call inner g => exact after.trans (quiet inner g rfl)
          | _ => exact after
        exact .rests late (unowed ▸ talks) unowed
      · have owed : w'.owed = [message] := after.trans owes
        exact .utters strides late utters owed (owed ▸ talks)
  · have other t s p o rest begun flow w₂ : ¬ Strides R w w' t (.session s p) o rest begun flow w₂ :=
      fun stride => strides ⟨t, s, p, o, rest, begun, flow, w₂, stride⟩
    obtain ⟨talks, unowed⟩ := alone.talks course.standing housed move first other
    refine .rests (fun ready => ?_) talks unowed
    rcases alone.client.ready_cases move ready with before | ⟨_, _, _, _, _, _, strides', -⟩
    · exact before
    · exact absurd strides' (other _ _ _ _ _ _ _ _)

/-- Whoever waits to hear something has done so before, or has just uttered something. -/
theorem Course.hears_cases (course : Course ms w) (move : Move may R w w')
    (first : ∀ g, may g → g.isUse 0 = true) (hq : .session 0 q ∈ w'.stack u) (hears : q.hears = true) :
    (.session 0 q ∈ w.stack u ∧ ∀ f o rest begun flow w₂, Strides R w w' u f o rest begun flow w₂ →
      .session 0 q ∈ rest) ∨
    ∃ p r rest begun inner w₂ message,
      Strides R w w' u (.session 0 p) (.ok r) rest begun (.call inner (.session 0 q)) w₂ ∧
        Utters w p message q ∧ w'.owed = [message] := by
  have alone := course.alone
  cases alone.client.stays alone.sound move hq with
  | same before _ still =>
    exact .inl ⟨before, fun f o rest begun flow w₂ strides => absurd strides.runs (still o)⟩
  | below strides _ before =>
    refine .inl ⟨strides.top ▸ List.mem_cons_of_mem _ before, fun f o rest begun flow w₂ strides' => ?_⟩
    cases strides.top.symm.trans strides'.top
    exact before
  | @comes p _ _ _ _ _ strides _ after conduct =>
    have connected : p = .initializeAnswered → (w.session 0).connection ≠ none := fun same => by
      rw [course.standing.connected u p (strides.top ▸ List.mem_cons_self) (.inl same)]
      simp
    obtain ⟨r, message, inner, rfl, utters, rfl, owes⟩ := conduct.hears after hears connected w'
    exact .inr ⟨p, r, _, _, inner, _, message, strides, utters,
      (strides.owed alone.client alone.sound).trans owes⟩
  | called _ _ called =>
    rcases Frame.isUse_cases (first _ called) with same | ⟨_, _, same⟩ | ⟨_, same⟩ <;>
      (cases same; cases hears)
  | reaps _ _ reaps =>
    subst reaps
    cases hears

/-- A task that has just uttered something waits for nothing else. -/
theorem Course.hears_of_utters (course : Course ms w) (move : Move may R w w')
    (first : ∀ g, may g → g.isUse 0 = true) {q' : Session.Stage} {r : Result} {inner : Frame}
    (strides : Strides R w w' t (.session 0 p) (.ok r) rest begun (.call inner (.session 0 q')) w₂)
    (utters : Utters w p message q') (hq : .session 0 q ∈ w'.stack u) (hears : q.hears = true) :
    (.session 0 q ∈ w.stack u ∧ u ≠ t) ∨ q = q' := by
  rcases course.hears_cases move first hq hears with
    ⟨before, below⟩ | ⟨p', r', rest', begun', inner', w₂', message', strides', -, -⟩
  · refine .inl ⟨before, fun same => ?_⟩
    subst same
    have linked : Linked (.session 0 p :: rest) := strides.top ▸ course.alone.client.linked u
    have none := below _ _ _ _ _ _ strides
    rw [utters.nothing_below linked] at none
    cases none
  · cases strides.runs.symm.trans strides'.runs
    cases strides.top.symm.trans strides'.top
    cases strides.steps.symm.trans strides'.steps
    exact .inr rfl

end World
end LanguageClient
