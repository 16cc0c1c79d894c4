import LanguageClient.Proofs.Client.Course

/-!
What a session that is alone says to its backend, answers set aside: what a move writes, and what the
task at work is about to write.
-/

namespace LanguageClient

open Schedule

namespace Connection

/-- Asks or tells something, as answers do not. -/
def isCall (message : Value) : Bool := (message.field? "method").isSome

@[simp] theorem isCall_notification (method : String) (params : Value) :
    isCall (notification method params) = true := rfl

@[simp] theorem isCall_request (id : Nat) (method : String) (params : Value) :
    isCall (request id method params) = true := rfl

@[simp] theorem isCall_response (id : Value) (result : Except Failure Value) :
    isCall (response id result) = false := by
  cases result <;> rfl

/-- What is written next at a place of a connection, with the number for a request. -/
def Stage.message (id : Nat) : Stage → List Value
  | .notify method params => [Connection.notification method params]
  | .request method params _ => [Connection.request id method params]
  | _ => []

theorem Stage.message_eq_nil {p : Stage} (h : p.writes = false) (id : Nat) : p.message id = [] := by
  cases p <;> first | rfl | cases h

end Connection

namespace Core

variable {x y z : Core} {messages more : List Value}

/-- What the backend of the first session has been asked and told. -/
def spoken (x : Core) : List Value := (x.inbox 0).received.filter Connection.isCall

/-- What is written of some messages: all of them, or those before the input of the backend breaks. -/
structure Speaks (messages : List Value) (x y : Core) : Prop where
  some : ∃ taken, taken <+: messages ∧ y.spoken = x.spoken ++ taken
  mute : (x.inbox 0).broken = true → y.spoken = x.spoken ∧ (y.inbox 0).broken = true
  all : (y.inbox 0).broken = false → y.spoken = x.spoken ++ messages

namespace Speaks

theorem of_inbox (received : (y.inbox 0).received = (x.inbox 0).received)
    (broken : (x.inbox 0).broken = true → (y.inbox 0).broken = true) : Speaks [] x y := by
  have same : y.spoken = x.spoken := congrArg (List.filter Connection.isCall) received
  refine ⟨⟨[], List.nil_prefix, ?_⟩, fun mute => ⟨same, broken mute⟩, fun _ => ?_⟩ <;>
    rw [same, List.append_nil]

theorem of_inboxes (same : y.inboxes = x.inboxes) : Speaks [] x y := by
  have known : y.inbox 0 = x.inbox 0 := by rw [inbox, same, inbox]
  exact .of_inbox (congrArg Inbox.received known) fun broken => (congrArg Inbox.broken known).trans broken

theorem trans (h : Speaks messages x y) (h' : Speaks more y z) : Speaks (messages ++ more) x z := by
  refine ⟨?_, fun mute => ?_, fun open_ => ?_⟩
  · cases broken : (y.inbox 0).broken with
    | true =>
      obtain ⟨taken, within, same⟩ := h.some
      exact ⟨taken, within.trans (List.prefix_append _ _), (h'.mute broken).1.trans same⟩
    | false =>
      obtain ⟨taken, within, same⟩ := h'.some
      exact ⟨messages ++ taken, List.prefix_append_right_inj _ |>.2 within, by
        rw [same, h.all broken, List.append_assoc]⟩
  · obtain ⟨same, broken⟩ := h.mute mute
    obtain ⟨same', broken'⟩ := h'.mute broken
    exact ⟨same'.trans same, broken'⟩
  · cases broken : (y.inbox 0).broken with
    | true =>
      rw [(h'.mute broken).2] at open_
      cases open_
    | false => rw [h'.all open_, h.all broken, List.append_assoc]

theorem send (inside : 0 < x.inboxes.length) (message : Value) (last : Bool) :
    Speaks (if Connection.isCall message then [message] else []) x (x.send 0 message last) := by
  have known : (x.send 0 message last).inbox 0 = (x.inbox 0).take message last := by
    simp only [inbox, Core.send, List.getD_eq_getElem?_getD, List.getElem?_modify_eq,
      List.getElem?_eq_getElem inside]
    rfl
  unfold Inbox.take at known
  split at known
  · next broken =>
    have same : (x.send 0 message last).spoken = x.spoken := by rw [spoken, known, spoken]
    refine ⟨⟨[], List.nil_prefix, by rw [same, List.append_nil]⟩, fun _ => ⟨same, ?_⟩, fun open_ => ?_⟩
    · rw [known, broken]
    · rw [known, broken] at open_
      cases open_
  · next unbroken =>
    have same : (x.send 0 message last).spoken =
        x.spoken ++ if Connection.isCall message then [message] else [] := by
      rw [spoken, known, spoken]
      cases call : Connection.isCall message <;> simp [call]
    exact ⟨⟨_, List.prefix_rfl, same⟩, fun broken => absurd broken unbroken, fun _ => same⟩

theorem sends (h : Sends 0 messages x y) (inside : 0 < x.inboxes.length)
    (calls : ∀ message ∈ messages, Connection.isCall message = true) : Speaks messages x y := by
  induction h with
  | nil => exact .of_inboxes rfl
  | @cons message rest x y last h ih =>
    have first := Speaks.send inside message last
    rw [calls message List.mem_cons_self] at first
    refine first.trans (ih ?_ fun message' there => calls message' (List.mem_cons_of_mem _ there))
    rw [Core.send, List.length_modify]
    exact inside

end Speaks
end Core

namespace World

variable {may : Frame → Prop} {R : CellId → Prop} {t u : TaskId} {w w' w₂ : World}
variable {f g : Frame} {rest begun : List Frame} {o : Outcome Result} {flow : Flow Frame Result}
variable {k : ConnectionId} {p : Session.Stage} {q : Connection.Stage}

/-- What the backend of the first session has been asked and told. -/
def spoken (w : World) : List Value := (w.backend 0).received.filter Connection.isCall

theorem spoken_core (w : World) : w.core.spoken = w.spoken :=
  congrArg (fun i : Inbox => i.received.filter Connection.isCall) (inbox_core 0 w)

theorem broken_core (w : World) : (w.core.inbox 0).broken = (w.backend 0).broken :=
  congrArg Inbox.broken (inbox_core 0 w)

/-- What is written next at a place. -/
def owes (w : World) : Frame → List Value
  | .connection k q => q.message (w.connection k).nextId
  | _ => []

/-- What the task at work writes next. -/
def owed (w : World) : List Value :=
  match w.current with
  | some (t, _) => ((w.stack t).head?.map w.owes).getD []
  | none => []

theorem owed_of_idle (idle : w.current = none) : w.owed = [] := by
  rw [owed, idle]

theorem owed_of_runs (runs : w.current = some (t, o)) (top : w.stack t = f :: rest) :
    w.owed = w.owes f := by
  rw [owed, runs]
  dsimp only
  rw [top]
  rfl

theorem owed_of_ended (runs : w.current = some (t, o)) (empty : w.stack t = []) : w.owed = [] := by
  rw [owed, runs]
  dsimp only
  rw [empty]
  rfl

/-- After a step something is written next only when the step has called for that. -/
theorem Strides.owed (strides : Strides R w w' t f o rest begun flow w₂) (client : w.Client)
    (sound : w.Sound) : w'.owed = match flow with
      | .call inner _ => w'.owes inner
      | _ => [] := by
  have stack := strides.stack sound
  have next := strides.lands.next
  have leads := client.leads strides
  have linked : Linked (f :: rest) := strides.top ▸ client.linked t
  have quiet (g : Frame) (other : ∀ k q, g = .connection k q → q.writes = false) : w'.owes g = [] := by
    cases g with
    | connection k q => exact q.message_eq_nil (other k q rfl) (w'.connection k).nextId
    | _ => rfl
  have lone (g : Frame) (frames : flow.frames = [g]) (other : ∀ next, flow ≠ .call g next) :
      w'.owes g = [] := by
    refine quiet g fun k q same => ?_
    cases writes : q.writes with
    | false => rfl
    | true =>
      subst same
      obtain ⟨next, same⟩ := leads.writes (frames ▸ List.mem_singleton_self _) writes
      exact absurd same (other next)
  cases flow with
  | done o' =>
    cases rest with
    | nil => exact owed_of_ended next.1 stack
    | cons g rest =>
      rw [owed_of_runs next.1 stack]
      refine quiet g fun k q same => ?_
      subst same
      exact linked.writes List.mem_cons_self
  | goto g =>
    rw [owed_of_runs next.1 stack]
    exact lone g rfl fun _ => nofun
  | call inner g => rw [owed_of_runs next.1 stack]
  | await c g =>
    rcases next with ⟨o', -, runs, -⟩ | ⟨idle, -⟩
    · rw [owed_of_runs runs stack]
      exact lone g rfl fun _ => nofun
    · exact owed_of_idle idle
  | pause g => exact owed_of_idle next.1

/-- A backend that is launched or connected has been asked for. -/
def Housed (w : World) : Prop :=
  (∃ t, w.Launches 0 t) ∨ (w.session 0).connection ≠ none → 0 < w.core.inboxes.length

/-- A start that goes on has asked for a backend. -/
theorem Conduct.launching (h : Conduct w w₂ 0 .start o flow) (goes : flow.frames ≠ []) :
    w₂.core.inboxes = w.core.inboxes ++ [⟨[], false, false⟩] := by
  cases h with
  | launches _ _ core => rw [core]
  | fails | late | stumbles | refused | gives => exact absurd rfl goes
  -- All else is done at other stages.
  | _ => simp_all

theorem Housed.move (h : w.Housed) (alone : w.Alone) (move : Move may R w w')
    (first : ∀ g, may g → g.isUse 0 = true) : w'.Housed := by
  have grown (before : 0 < w.core.inboxes.length) : 0 < w'.core.inboxes.length := by
    rcases alone.adds move first with holds | ⟨t, f, o, rest, begun, flow, w₂, -, adds⟩
    · rwa [holds.inboxes]
    · generalize w'.core = x at adds
      cases adds with
      | nothing holds => rwa [holds.inboxes]
      | backend => simp
      | process | connection => simpa [Core.setSession, Core.spawn] using before
  rintro (⟨u, b, launched⟩ | connected)
  · cases alone.client.stays alone.sound move launched with
    | same before => exact grown (h (.inl ⟨u, b, before⟩))
    | @below f _ _ _ _ _ strides _ before =>
      exact grown (h (.inl ⟨u, b, strides.top ▸ List.mem_cons_of_mem f before⟩))
    | comes strides _ after conduct =>
      obtain ⟨same, -, flow_⟩ := (alone.client.leads strides).launched after
      cases same
      have frames : _ ≠ [] := List.ne_nil_of_mem after
      rw [strides.lands.aside.core, conduct.launching frames]
      simp
    | called _ _ called => cases first _ called
    | reaps _ _ reaps => cases reaps
  · by_cases before : (w.session 0).connection = none
    · rw [← connected_core] at before connected
      rcases alone.client.shifts move 0 with same | ⟨u, f, o, rest, begun, flow, w₂, strides, shifts⟩
      · exact absurd (same ▸ before) connected
      · have top : f ∈ w.stack u := strides.top ▸ List.mem_cons_self
        generalize w'.core.session 0 = x at shifts connected
        cases shifts with
        | connects => exact grown (h (.inl ⟨u, _, top⟩))
        | _ => exact absurd before connected
    · exact grown (h (.inr before))

theorem speaks_spawn (b : BackendId) {x y : Core} (same : y.inboxes = (x.spawn b).inboxes) :
    Core.Speaks [] x y := by
  have known : (y.inbox 0).received = (x.inbox 0).received ∧ (y.inbox 0).broken = (x.inbox 0).broken := by
    rw [Core.inbox, same]
    rcases getD_modify b 0 (fun i : Inbox => { i with spawned := true }) x.inboxes
      (Backend.inbox default) with kept | ⟨-, kept⟩
    · exact ⟨(congrArg Inbox.received kept :), (congrArg Inbox.broken kept :)⟩
    · exact ⟨(congrArg Inbox.received kept :), (congrArg Inbox.broken kept :)⟩
  exact .of_inbox known.1 fun broken => known.2.trans broken

/-- Of what a session does by itself only the end of its start writes anything. -/
theorem Alone.silent (h : w.Alone) (conduct : Conduct w w₂ 0 p o flow)
    (other : ∀ k, flow ≠ .call (.connection k .drain) (.session 0 .flushed)) :
    Core.Speaks [] w.core w₂.core := by
  have kept {x : Core} (core : w₂.core = x) (same : x.inboxes = w.core.inboxes) :
      Core.Speaks [] w.core w₂.core := .of_inboxes ((congrArg Core.inboxes core).trans same)
  cases conduct with
  | readies => exact absurd rfl (other _)
  | launches fresh _ core =>
    have none : w.core.inboxes = [] := h.lone.fresh ((state_core 0 w).trans fresh)
    refine .of_inbox ?_ fun broken => ?_
    · rw [Core.inbox, core, Core.inbox, none]
      rfl
    · rw [Core.inbox, none] at broken
      cases broken
  | arrives _ core | lost _ _ core | connects _ _ core =>
    exact speaks_spawn _ ((congrArg Core.inboxes core).trans rfl)
  | fails _ core | late _ core | greets _ core | gives _ _ core | overtaken _ core
  | solitary _ core | started _ core | unconnected _ _ core | takes _ _ _ core | refuses _ _ core
  | tells _ _ core | told core | untold core | stands _ core | dismisses _ core | turns _ _ core
  | insists _ core | vacates _ _ core | exits _ core | watches _ _ _ core | releases _ core =>
    exact kept core rfl
  | stumbles _ _ core | refused _ core | abandons _ _ _ core | drops _ _ _ core | keeps _ core
  | joins _ _ core | stops _ core | asks _ _ _ core | released core => exact kept core rfl

theorem send_speaks (inside : 0 < w.core.inboxes.length) (message : Value) :
    Core.Speaks (if Connection.isCall message then [message] else []) w.core (w.send 0 message).core := by
  obtain ⟨-, last, core⟩ := send_spec (A := .none) (R := fun _ => False) 0 message w
  rw [core]
  exact .send inside message last

/-- A place of a connection writes what it owes, unless the connection has ended. -/
theorem Alone.speaks_of_connection (h : w.Alone) (housed : w.Housed)
    (strides : Strides R w w' t (.connection k q) o rest begun flow w₂)
    (connected : (w.session 0).connection = some 0) :
    Core.Speaks [] w.core w'.core ∧
        ((w.connection 0).closed = true ∨ w.owes (.connection k q) = []) ∨
      (w.connection 0).closed = false ∧ Core.Speaks (w.owes (.connection k q)) w.core w'.core := by
  have inside : 0 < w.core.inboxes.length := housed (.inr (by rw [connected]; nofun))
  have top : Frame.connection k q ∈ w.stack t := strides.top ▸ List.mem_cons_self
  have here : 0 = k := Option.some.inj (h.places t _ top)
  subst here
  have backend := (h.owner 0).1
  let w₀ : World := { w with current := none }
  have steps : w₀.resumeConnection 0 q o = (flow, w₂) := strides.steps
  have landed : w'.core = w₂.core := strides.lands.aside.core
  cases writes : q.writes with
  | true =>
    have runs := h.prompt t 0 q rest strides.top writes
    cases strides.runs.symm.trans runs
    rw [landed]
    cases q with
    | notify method params =>
      have stepped : w₀.sendNotification 0 method params = (flow, w₂) := steps
      rw [sendNotification] at stepped
      split at stepped
      · next closed =>
        have same : w₀ = w₂ := congrArg Prod.snd stepped
        exact .inl ⟨.of_inboxes (same ▸ rfl), .inl closed⟩
      · next alive =>
        have same : w₀.send (w.connection 0).backend (Connection.notification method params) = w₂ :=
          congrArg Prod.snd stepped
        rw [backend] at same
        refine .inr ⟨Bool.eq_false_iff.2 alive, ?_⟩
        exact (same ▸ send_speaks (w := w₀) inside (Connection.notification method params))
    | request method params timeout =>
      have stepped : w₀.sendRequest 0 method params timeout = (flow, w₂) := steps
      rw [sendRequest] at stepped
      split at stepped
      · next closed =>
        have same : w₀ = w₂ := congrArg Prod.snd stepped
        exact .inl ⟨.of_inboxes (same ▸ rfl), .inl closed⟩
      · next alive =>
        let w₁ : World := w₀.newCell.2.setConnection 0 fun x => { x with
          nextId := x.nextId + 1
          pending := x.pending ++ [((w.connection 0).nextId, w₀.newCell.1)] }
        have same : w₁.send (w₁.connection 0).backend
          (Connection.request (w.connection 0).nextId method params) = w₂ := congrArg Prod.snd stepped
        have backend' : (w₁.connection 0).backend = 0 := by
          rcases getD_modify 0 0 (fun x : Connection => { x with
            nextId := x.nextId + 1
            pending := x.pending ++ [((w.connection 0).nextId, w₀.newCell.1)] })
            w₀.newCell.2.connections default with kept | ⟨-, kept⟩
          · exact (congrArg Connection.backend kept :).trans backend
          · exact (congrArg Connection.backend kept :).trans backend
        rw [backend'] at same
        have before : Core.Speaks [] w.core w₁.core := .of_inboxes rfl
        have sent := send_speaks (w := w₁) inside (Connection.request (w.connection 0).nextId method params)
        exact .inr ⟨Bool.eq_false_iff.2 alive, same ▸ before.trans sent⟩
    | _ => cases writes
  | false =>
    have change := strides.turn.change
    left
    refine ⟨?_, .inr (q.message_eq_nil writes _)⟩
    rw [landed]
    generalize w₂.core = x at change
    cases change with
    | notes | requests => cases writes
    | @answers _ id result _ last =>
      have sent := Core.Speaks.send inside (Connection.response id result) last
      rw [Connection.isCall_response, ← backend] at sent
      exact sent
    | _ => exact .of_inboxes rfl

/-- What a move writes: as long as the connection lasts, what has been owed and more, less what is owed
after it. -/
structure Talks (more : List Value) (w w' : World) : Prop where
  still : (w.connection 0).closed = true → (w'.connection 0).closed = true
  writes : ∃ messages, Core.Speaks messages w.core w'.core ∧
    ((w.connection 0).closed = true → messages = []) ∧
    ((w.connection 0).closed = false → messages ++ w'.owed = w.owed ++ more)

/-- Nothing more can be said: the input of the backend is broken, or the connection has ended. -/
def Mute (w : World) : Prop := (w.backend 0).broken = true ∨ (w.connection 0).closed = true

/-- What is said keeps to a script. As long as all is taken in, it lacks only what is written next. -/
structure Follows (script : List Value) (w : World) : Prop where
  within : w.spoken <+: script
  all : ¬ w.Mute → w.spoken ++ w.owed = script

namespace Talks

variable {script more : List Value}

theorem grows (h : Talks more w w') : w.spoken <+: w'.spoken := by
  obtain ⟨messages, speaks, -⟩ := h.writes
  obtain ⟨taken, -, same⟩ := speaks.some
  rw [spoken_core, spoken_core] at same
  exact same ▸ List.prefix_append _ _

theorem mute (h : Talks more w w') (mute : w.Mute) : w'.Mute ∧ w'.spoken = w.spoken := by
  obtain ⟨messages, speaks, dead, -⟩ := h.writes
  rcases mute with broken | closed
  · obtain ⟨same, broken'⟩ := speaks.mute ((broken_core w).trans broken)
    rw [spoken_core, spoken_core] at same
    exact ⟨.inl ((broken_core w').symm.trans broken'), same⟩
  · obtain ⟨taken, start, same⟩ := speaks.some
    rw [dead closed, List.prefix_nil] at start
    rw [spoken_core, spoken_core, start, List.append_nil] at same
    exact ⟨.inr (h.still closed), same⟩

/-- The script goes on with what is owed anew. -/
theorem follows (h : Talks more w w') (follows : Follows script w) : Follows (script ++ more) w' := by
  by_cases silent : w.Mute
  · obtain ⟨silent', same⟩ := h.mute silent
    exact ⟨same ▸ follows.within.trans (List.prefix_append _ _), fun heard => absurd silent' heard⟩
  · obtain ⟨messages, speaks, -, goes⟩ := h.writes
    have alive : (w.connection 0).closed = false := Bool.eq_false_iff.2 fun closed => silent (.inr closed)
    have whole : script ++ more = w.spoken ++ messages ++ w'.owed := by
      rw [← follows.all silent, List.append_assoc, List.append_assoc, goes alive]
    rw [whole]
    refine ⟨?_, fun heard => ?_⟩
    · obtain ⟨taken, start, same⟩ := speaks.some
      rw [spoken_core, spoken_core] at same
      rw [same, List.append_assoc]
      exact (List.prefix_append_right_inj _).2 (start.trans (List.prefix_append _ _))
    · have unbroken : (w'.core.inbox 0).broken = false :=
        (broken_core w').trans (Bool.eq_false_iff.2 fun broken => heard (.inl broken))
      have same := speaks.all unbroken
      rw [spoken_core, spoken_core] at same
      rw [same]

end Talks

/-- Only a session has something written by what it calls. -/
theorem Leads.unwritten {inner : Frame} (h : Leads t w w' f o (.call inner g))
    (other : ∀ s p, f ≠ .session s p) (w₀ : World) : w₀.owes inner = [] := by
  cases h with
  | requests | written | answers => rfl
  | serves _ _ flow_ => rcases flow_ with same | ⟨c, -, same⟩ <;> cases same
  | stopsAnswers _ flow_ => rcases flow_ with same | ⟨c, same⟩ <;> cases same
  | _ => exact absurd rfl (other _ _)

/-- A move writes what has been owed and owes nothing after it, unless a session goes on. -/
theorem Alone.talks (alone : w.Alone) (standing : w.Standing) (housed : w.Housed)
    (move : Move may R w w') (first : ∀ g, may g → g.isUse 0 = true)
    (other : ∀ t s p o rest begun flow w₂, ¬ Strides R w w' t (.session s p) o rest begun flow w₂) :
    Talks [] w w' ∧ w'.owed = [] := by
  have still (closed : (w.connection 0).closed = true) := move.still_closed closed
  have quiet (speaks : Core.Speaks [] w.core w'.core) (before : w.owed = []) (after : w'.owed = []) :
      Talks [] w w' ∧ w'.owed = [] :=
    ⟨⟨still, [], speaks, fun _ => rfl, fun _ => by rw [after, before]⟩, after⟩
  have unowed {t : TaskId} {f : Frame} {o : Outcome Result} {rest begun : List Frame}
      {flow : Flow Frame Result} {w₂ : World} (strides : Strides R w w' t f o rest begun flow w₂) :
      w'.owed = [] := by
    rw [strides.owed alone.client alone.sound]
    cases flow with
    | call inner g =>
      refine (alone.client.leads strides).unwritten (fun s p same => ?_) w'
      subst same
      exact other _ _ _ _ _ _ _ _ strides
    | _ => rfl
  cases move with
  | rests allowed idle idle' core =>
    refine quiet ?_ (owed_of_idle idle) (owed_of_idle idle')
    rcases core with same | ⟨b, same⟩ | ⟨k, begun_, -⟩
    · exact .of_inboxes (congrArg Core.inboxes same)
    · refine .of_inbox ?_ fun broken => ?_
      all_goals
        rw [Core.inbox, same]
        rcases getD_modify b 0 (fun i : Inbox => { i with broken := true }) w.core.inboxes
          (Backend.inbox default) with kept | ⟨-, kept⟩
      · exact (congrArg Inbox.received kept :)
      · exact (congrArg Inbox.received kept :)
      · exact (congrArg Inbox.broken kept :).trans broken
      · exact (congrArg Inbox.broken kept :)
    · subst begun_
      cases first _ (allowed _ (List.mem_singleton_self _))
  | ends ends idle' core =>
    exact quiet (.of_inboxes (congrArg Core.inboxes core)) (owed_of_ended ends.1 ends.2) (owed_of_idle idle')
  | @wakes t waited o idle _ _ runs core piles =>
    refine quiet (.of_inboxes (congrArg Core.inboxes core)) (owed_of_idle idle) ?_
    have stack := stack_congr piles t
    cases top : w'.stack t with
    | nil => exact owed_of_ended runs top
    | cons g rest =>
      rw [owed_of_runs runs top]
      cases g with
      | connection k q =>
        cases writes : q.writes with
        | false => exact q.message_eq_nil writes (w'.connection k).nextId
        | true =>
          have busy := alone.prompt t k q rest (stack.symm.trans top) writes
          rw [idle] at busy
          cases busy
      | _ => rfl
  | @goes t o f rest begun flow w₀ w₂ runs top taken steps turn lands =>
    subst taken
    have strides : Strides R w w' t f o rest begun flow w₂ := ⟨runs, top, steps, turn, lands⟩
    have owed := owed_of_runs runs top
    have change := turn.change
    have landed : w'.core = w₂.core := lands.aside.core
    cases f with
    | connection k q =>
      rcases alone.speaks_of_connection housed strides (standing.wired t k q (top ▸ List.mem_cons_self)) with
        ⟨speaks, dead | none⟩ | ⟨alive, speaks⟩
      · refine ⟨⟨still, [], speaks, fun _ => rfl, fun alive => ?_⟩, unowed strides⟩
        rw [dead] at alive
        cases alive
      · exact quiet speaks (owed.trans none) (unowed strides)
      · refine ⟨⟨still, _, speaks, fun dead => ?_, fun _ => ?_⟩, unowed strides⟩
        · rw [alive] at dead
          cases dead
        · rw [unowed strides, owed]
    | session s p => exact absurd strides (other _ _ _ _ _ _ _ _)
    | wait p =>
      refine quiet ?_ owed (unowed strides)
      rw [landed]
      generalize w₂.core = x at change
      cases change with
      | quiet => exact .of_inboxes rfl
    | pass =>
      refine quiet ?_ owed (unowed strides)
      rw [landed]
      generalize w₂.core = x at change
      cases change with
      | quiet => exact .of_inboxes rfl
    | _ => cases alone.client.places t _ (top ▸ List.mem_cons_self)

end World
end LanguageClient
