import LanguageClient.Proofs.Client.Outcomes

/-!
How the state of a session that is alone goes with its connection and with the tasks that start it
and stop it.
-/

namespace LanguageClient

open Schedule

namespace Frame

/-- What is no connection's belongs to a session and any connection of it. -/
theorem connection_or_anywhere (f : Frame) (client : f.isClient = true)
    (here : f.IsLocal (some 0) (some 0)) :
    (∃ k q, f = .connection k q) ∨ ∀ k, f.IsLocal (some 0) (some k) := by
  cases f with
  | wait => exact .inr fun _ => trivial
  | pass => exact .inr fun _ => trivial
  | connection k q => exact .inl ⟨k, q, rfl⟩
  | session s p =>
    right
    intro k
    unfold IsLocal at here ⊢
    split at here <;> simp_all
  | relay => cases client
  | roster => cases client
  | workspace => cases client

theorem not_connection_of_anywhere {f : Frame} (here : ∀ k, f.IsLocal (some 0) (some k))
    {k : ConnectionId} {q : Connection.Stage} (succeeds : f.Succeeds (.connection k q)) : False :=
  absurd (Option.some.inj (succeeds.local_ (some 0) (some (k + 1)) (here (k + 1)))) (Nat.succ_ne_self k)

end Frame

namespace World

variable {may : Frame → Prop} {R : CellId → Prop} {t u : TaskId} {w w' w₂ : World}
variable {f g : Frame} {rest begun : List Frame} {o : Outcome Result} {flow : Flow Frame Result}
variable {k : ConnectionId} {p : Session.Stage} {q : Connection.Stage} {ms : List Moment} {m : Moment}

/-- The session has been stopped, or has been asked to. -/
def Over (w : World) : Prop := (w.session 0).state = .stopped ∨ (w.session 0).stopping = true

/-- A task starts the session and has not come to an end with that. -/
def Opening (w : World) (t : TaskId) : Prop := ∃ p, .session 0 p ∈ w.stack t ∧ p.opens = true

structure Standing (w : World) : Prop where
  opened : ∀ t, w.Opening t → (w.session 0).state = .starting ∨ (w.session 0).state = .stopped
  single : ∀ t u, w.Opening t → w.Opening u → t = u
  launched : ∀ t, w.Launches 0 t → (w.session 0).state = .stopped → (w.session 0).stopping = true
  fresh : (w.session 0).state = .unstarted →
    (w.session 0).stopping = false ∧ (w.session 0).reaper = none ∧ (w.session 0).connection = none
  given : (w.session 0).stopping = true → (w.session 0).state = .stopped ∨
    ∃ t e, .session 0 (.abandoned e) ∈ w.stack t
  abandoned : ∀ t e, .session 0 (.abandoned e) ∈ w.stack t → (w.session 0).stopping = true
  wired : ∀ t k p, .connection k p ∈ w.stack t → (w.session 0).connection = some 0
  connected : ∀ t p, .session 0 p ∈ w.stack t → p = .initializeAnswered ∨ p = .initializedSent →
    (w.session 0).connection = some 0
  reaped : ∀ u, (w.session 0).reaper = some u →
    (w.session 0).state = .stopped ∧ (w.connection 0).closed = true
  ready : (w.session 0).state = .ready →
    (w.session 0).stopping = false ∧ (w.session 0).connection = some 0
  outbox : (w.session 0).state.buffers = false → (w.session 0).outbox = []
  closed : (w.connection 0).closed = true → w.Over
  pending : (w.connection 0).closed = true → (w.connection 0).pending = []
  spawned : (w.backend 0).spawned = true → (w.session 0).backend = some 0

/-- What stands on a stack still does after a move, unless it is what has gone on. -/
theorem Sound.lasts (sound : w.Sound) (m : Move may R w w') (h : g ∈ w.stack t) :
    g ∈ w'.stack t ∨ ∃ o rest begun flow w₂, Strides R w w' t g o rest begun flow w₂ ∧
      w'.stack t = flow.frames ++ rest := by
  cases sound.fate m t with
  | stays stack => exact .inl (stack ▸ h)
  | ends past =>
    rw [past.2] at h
    cases h
  | wakes _ stack => exact .inl (stack ▸ h)
  | begins new =>
    rw [stack_of_le new] at h
    cases h
  | goes strides stack =>
    rw [strides.top] at h
    rcases List.mem_cons.1 h with rfl | below
    · exact .inr ⟨_, _, _, _, _, strides, stack⟩
    · exact .inl (stack ▸ List.mem_append_right _ below)

/-- A move takes a session no further than to a state that may come next. -/
theorem Client.transition (h : w.Client) (m : Move may R w w') :
    (w'.session 0).state = (w.session 0).state ∨ (w'.session 0).state ∈ (w.session 0).state.next := by
  rw [← state_core, ← state_core]
  rcases h.shifts m 0 with same | ⟨t, f, o, rest, begun, flow, w₂, strides, shifts⟩
  · exact .inl (congrArg Session.state same)
  · have stops : SessionState.stopped = (w.core.session 0).state ∨
        .stopped ∈ (w.core.session 0).state.next := by
      by_cases past : (w.core.session 0).state = .stopped
      · exact .inl past.symm
      · exact .inr (SessionState.stopped_mem_next past)
    generalize w'.core.session 0 = x at shifts
    cases shifts with
    | starts fresh =>
      right
      rw [state_core, fresh]
      exact List.mem_cons_self
    | readies starting =>
      right
      rw [state_core, starting]
      exact List.mem_cons_self
    | fails | stops | loses => exact stops
    | _ => exact .inl rfl

theorem Client.stopped (h : w.Client) (m : Move may R w w') (past : (w.session 0).state = .stopped) :
    (w'.session 0).state = .stopped := by
  rcases h.transition m with same | next
  · exact same.trans past
  · rw [past] at next
    cases next

theorem Client.stopping (h : w.Client) (m : Move may R w w')
    (stopping : (w.session 0).stopping = true) : (w'.session 0).stopping = true := by
  rw [← stopping_core] at stopping ⊢
  rcases h.shifts m 0 with same | ⟨t, f, o, rest, begun, flow, w₂, strides, shifts⟩
  · rwa [same]
  · generalize w'.core.session 0 = x at shifts
    cases shifts with
    | abandons | joins | stops => rfl
    | _ => exact stopping

theorem Client.still_over (h : w.Client) (m : Move may R w w') (past : w.Over) : w'.Over :=
  past.imp (h.stopped m) (h.stopping m)

/-- Until it is stopped or asked to, a session goes on from ready to nothing else. -/
theorem Client.ready_cases (h : w.Client) (m : Move may R w w')
    (ready : (w'.session 0).state = .ready) : (w.session 0).state = .ready ∨
      ∃ t o rest begun flow w₂, Strides R w w' t (.session 0 .initializedSent) o rest begun flow w₂ ∧
        (w.session 0).state = .starting ∧ (w'.session 0).stopping = (w.session 0).stopping ∧
        (w'.session 0).connection = (w.session 0).connection ∧
        ∃ k, (w.session 0).connection = some k := by
  rw [← state_core] at ready
  rw [← stopping_core (w := w'), ← stopping_core, ← connected_core (w := w')]
  rcases h.shifts m 0 with same | ⟨t, f, o, rest, begun, flow, w₂, strides, shifts⟩
  · rw [same, state_core] at ready
    exact .inl ready
  · generalize w'.core.session 0 = x at shifts ready
    cases shifts with
    | readies starting connected =>
      exact .inr ⟨_, _, _, _, _, _, strides, starting, rfl, connected_core 0 w, _, connected⟩
    | starts | fails | stops | loses => cases ready
    | _ => exact .inl ((state_core 0 w).symm.trans ready)

theorem Strides.stack (h : Strides R w w' t f o rest begun flow w₂) (sound : w.Sound) :
    w'.stack t = flow.frames ++ rest :=
  (h.turn.piles (sound.running h.runs) h.lands).1

/-- A task that has begun in a step stands where it begins. -/
theorem Strides.task_begun (h : Strides R w w' t f o rest begun flow w₂) (sound : w.Sound) {i : Nat}
    (found : begun[i]? = some g) : w'.stack (w.loop.tasks.length + i) = [g] := by
  have grown : w₂.loop.tasks.length = w.loop.tasks.length + begun.length :=
    length_tasks_of_ops h.turn.keeps.ops
  have same : w'.loop.tasks.length = w₂.loop.tasks.length := by
    rw [← length_piles, h.lands.piles, List.length_set, length_piles]
  have other : w.loop.tasks.length + i ≠ t :=
    Nat.ne_of_gt (Nat.lt_of_lt_of_le (sound.running h.runs) (Nat.le_add_right _ _))
  rcases (h.turn.piles (sound.running h.runs) h.lands).2 _ other with
    ⟨old, -⟩ | ⟨-, g', found', stack⟩ | out
  · exact absurd old (Nat.not_lt.2 (Nat.le_add_right _ _))
  · have index : ∀ n : Nat, n + i - n = i := fun n => Nat.add_sub_cancel_left n i
    rw [index, found] at found'
    cases found'
    exact stack
  · have inside := Nat.add_lt_add_left (List.getElem?_eq_some_iff.1 found).1 w.loop.tasks.length
    rw [← grown, ← same] at inside
    exact absurd inside (Nat.not_lt.2 out)

/-- Only what starts a session leads to stages of a start. -/
theorem Conduct.opens {q : Session.Stage} (h : Conduct w w' 0 q o flow)
    (hp : .session 0 p ∈ flow.frames) (opens : p.opens = true) : q.opens = true ∨
      (q = .start ∧ (w.session 0).state = .unstarted ∧
        ∃ b, flow = .goto (.session 0 (.launched b)) ∨ ∃ c, flow = .await c (.session 0 (.launched b))) := by
  have one {g : Frame} (hp : .session 0 p ∈ [g]) (other : ∀ p, p.opens = true → g ≠ .session 0 p) :
      False := other p opens (List.mem_singleton.1 hp).symm
  cases h with
  | launches fresh flow_ =>
    right
    rcases flow_ with rfl | ⟨c, -, rfl⟩
    · exact ⟨rfl, fresh, _, .inl rfl⟩
    · exact ⟨rfl, fresh, _, .inr ⟨c, rfl⟩⟩
  | connects | greets => exact .inl rfl
  | abandons start => rcases start with rfl | rfl <;> exact .inl rfl
  | unconnected _ stages =>
    rcases stages with ⟨rfl, -⟩ | ⟨-, rfl⟩ | ⟨timeout, -, rfl⟩
    · exact .inl rfl
    · cases List.mem_singleton.1 hp
      cases opens
    · cases List.mem_singleton.1 hp
      cases opens
  | takes _ next flow_ =>
    rcases flow_ with rfl | rfl | ⟨c, -, rfl⟩
    · cases hp
    · cases List.mem_singleton.1 hp
      rcases next with rfl | ⟨c, rfl⟩ <;> cases opens
    · cases List.mem_singleton.1 hp
      rcases next with rfl | ⟨c, rfl⟩ <;> cases opens
  | watches _ _ stages =>
    rcases stages with ⟨-, rfl, -⟩ | ⟨-, rfl, -⟩ | ⟨-, rfl, -⟩ <;>
      simp [Flow.frames, Session.Stage.opens] at hp opens <;> subst hp <;> cases opens
  | arrives | joins | stops | turns | insists | vacates | exits =>
    simp [Flow.frames] at hp
    try
      subst hp
      cases opens
  | readies | tells | asks | dismisses | releases =>
    simp [Flow.frames] at hp
    subst hp
    cases opens
  | _ => cases hp

/-- A start fails before there is a process, or when it has been given up. -/
theorem Conduct.failed {r : Result} {key reason : String}
    (h : Conduct w w' 0 p (.ok r) (.done (.error (.launch key reason)))) :
    (p = .start ∧ (w.session 0).state = .unstarted) ∨ (∃ b, p = .launched b) ∨ ∃ e, p = .abandoned e := by
  cases h with
  | refused stages => exact stages
  | lost => exact .inr (.inl ⟨_, rfl⟩)
  | stumbles fresh => exact .inl ⟨rfl, fresh⟩
  | launches _ flow_ => rcases flow_ with same | ⟨c, -, same⟩ <;> cases same
  | takes _ _ flow_ => rcases flow_ with same | same | ⟨c, -, same⟩ <;> cases same

/-- Places of a connection follow on one of the same, on its making, or on a place of a session that
has it. -/
theorem Leads.wires (h : Leads t w w' f o flow) (hq : .connection k q ∈ flow.frames) :
    (∃ k q, f = .connection k q) ∨ (∃ s, .session s .initializeAnswered ∈ flow.frames) ∨
      ∃ s p, f = .session s p ∧ (w.session s).connection = some k := by
  have first {k' : ConnectionId} {q' : Connection.Stage} {next : Frame} (other : ∀ q, next ≠ .connection k q)
      (hq : .connection k q ∈ [.connection k' q', next]) : k' = k := by
    rcases List.mem_cons.1 hq with same | last
    · cases same
      rfl
    · exact absurd (List.mem_singleton.1 last).symm (other q)
  cases h with
  | stalls | flows | notes | requests | written | serves | answers | closes | stopsReader
  | stopsAnswers => exact .inl ⟨_, _, rfl⟩
  | connects => exact .inr (.inl ⟨_, List.mem_cons_of_mem _ List.mem_cons_self⟩)
  | greets connected => exact .inr (.inr ⟨_, _, rfl, first (fun _ => by simp) hq ▸ connected⟩)
  | readies _ connected => exact .inr (.inr ⟨_, _, rfl, first (fun _ => by simp) hq ▸ connected⟩)
  | tells _ connected => exact .inr (.inr ⟨_, _, rfl, first (fun _ => by simp) hq ▸ connected⟩)
  | asks _ _ connected => exact .inr (.inr ⟨_, _, rfl, first (fun _ => by simp) hq ▸ connected⟩)
  | dismisses connected => exact .inr (.inr ⟨_, _, rfl, first (fun _ => by simp) hq ▸ connected⟩)
  | releases connected => exact .inr (.inr ⟨_, _, rfl, first (fun _ => by simp) hq ▸ connected⟩)
  | launches _ flow_ => rcases flow_ with rfl | ⟨c, -, rfl⟩ <;> simp [Flow.frames] at hq
  | takes _ _ flow_ => rcases flow_ with rfl | rfl | ⟨c, -, rfl⟩ <;> simp [Flow.frames] at hq
  | _ => simp [Flow.frames] at hq

/-- Who starts a session after a move has done so before, or has just begun to. -/
theorem Client.opening_cases (client : w.Client) (sound : w.Sound) (m : Move may R w w')
    (first : ∀ g, may g → g.isUse 0 = true) (h : w'.Opening u) : w.Opening u ∨
      ∃ o rest begun flow w₂ b, Strides R w w' u (.session 0 .start) o rest begun flow w₂ ∧
        (w.session 0).state = .unstarted ∧
        (flow = .goto (.session 0 (.launched b)) ∨ ∃ c, flow = .await c (.session 0 (.launched b))) := by
  obtain ⟨p, hp, opens⟩ := h
  cases client.stays sound m hp with
  | same before => exact .inl ⟨p, before, opens⟩
  | below strides _ before => exact .inl ⟨p, strides.top ▸ List.mem_cons_of_mem _ before, opens⟩
  | comes strides _ after conduct =>
    rcases conduct.opens after opens with opens' | ⟨rfl, fresh, b, goes⟩
    · exact .inl ⟨_, strides.top ▸ List.mem_cons_self, opens'⟩
    · exact .inr ⟨_, _, _, _, _, b, strides, fresh, goes⟩
  | called _ _ called => rcases Frame.isUse_cases (first _ called) with same | ⟨_, _, same⟩ | ⟨_, same⟩ <;>
      (cases same; cases opens)
  | reaps _ _ reaps =>
    subst reaps
    cases opens

/-- The connection is lost: the session is stopped, and a task begins that sees to the process. -/
structure Loses (w w' : World) : Prop where
  core : ∃ roster, w'.core = ((w.core.setConnection 0 Connection.cease).setSession 0
    (lost w.loop.tasks.length)).setRoster roster
  begun : w'.stack w.loop.tasks.length = [.session 0 (.shutdown Session.killGrace)]
  wired : ∃ t k p, .connection k p ∈ w.stack t
  alive : (w.connection 0).closed = false

theorem Loses.session (h : w.Loses w') (alone : w.Alone) :
    w'.core.session 0 = lost w.loop.tasks.length (w.core.session 0) := by
  obtain ⟨roster, core⟩ := h.core
  have inside : 0 < (w.core.setConnection 0 Connection.cease).sessions.length := alone.inside
  rw [core]
  exact Core.session_setSession_self inside _

theorem Loses.reaper (h : w.Loses w') (alone : w.Alone) :
    (w'.session 0).reaper = some w.loop.tasks.length := by
  rw [← reaper_core, h.session alone]
  rfl

theorem Loses.state (h : w.Loses w') (alone : w.Alone) : (w'.session 0).state = .stopped := by
  rw [← state_core, h.session alone]
  rfl

namespace Alone

theorem still_connected (h : w.Alone) (m : Move may R w w')
    (connected : (w.session 0).connection = some 0) : (w'.session 0).connection = some 0 := by
  rw [← connected_core] at connected ⊢
  rcases h.client.shifts m 0 with same | ⟨t, f, o, rest, begun, flow, w₂, strides, shifts⟩
  · rwa [same]
  · generalize w'.core.session 0 = x at shifts
    cases shifts with
    | @connects b =>
      have none := (h.unconnected ⟨b, strides.top ▸ List.mem_cons_self⟩).1
      rw [connected_core, none] at connected
      cases connected
    | _ => exact connected

/-- How a session comes to be stopped: it was before, is asked to, loses its connection, or its start
fails. -/
theorem stopped_cases (h : w.Alone) (m : Move may R w w') (past : (w'.session 0).state = .stopped) :
    (w.session 0).state = .stopped ∨ (w'.session 0).stopping = true ∨
      (∃ t k p, .connection k p ∈ w.stack t) ∨ ∃ t p o rest begun flow w₂,
        Strides R w w' t (.session 0 p) o rest begun flow w₂ ∧ flow.frames = [] ∧
        ((p = .start ∧ (w.session 0).state = .unstarted) ∨ (∃ b, p = .launched b) ∨
          ∃ e, p = .abandoned e) := by
  rw [← state_core] at past
  rw [← stopping_core]
  rcases h.client.shifts m 0 with same | ⟨t, f, o, rest, begun, flow, w₂, strides, shifts⟩
  · rw [same, state_core] at past
    exact .inl past
  · generalize w'.core.session 0 = x at shifts past
    cases shifts with
    | fails =>
      refine .inr (.inr (.inr ⟨t, _, _, rest, begun, _, w₂, strides, rfl, ?_⟩))
      exact (strides.conducts h.client).failed
    | stops => exact .inr (.inl rfl)
    | loses => exact .inr (.inr (.inl ⟨t, _, _, strides.top ▸ List.mem_cons_self⟩))
    | starts | readies => cases past
    | _ => exact .inl ((state_core 0 w).symm.trans past)

/-- A step at a place of the connection loses it, or leaves the session as it is and begins none of
its tasks. -/
theorem loses_of_change (h : w.Alone) {q : Connection.Stage}
    (strides : Strides R w w' t (.connection k q) o rest begun flow w₂) :
    (w.Loses w' ∧ begun = [.session 0 (.shutdown Session.killGrace)]) ∨
      (w'.core.session 0 = w.core.session 0 ∧ ((w'.core.connection 0).closed =
        (w.core.connection 0).closed ∨ (w.session 0).stopping = true) ∧ ∀ s p, .session s p ∉ begun) := by
  have top : Frame.connection k q ∈ w.stack t := strides.top ▸ List.mem_cons_self
  have same : 0 = k := Option.some.inj (h.places t _ top)
  subst same
  have change : Change { w with current := none } (.connection 0 q) o begun flow w'.core :=
    strides.lands.aside.core ▸ strides.turn.change
  have opened := strides.turn.change.opened (h.client.places t _ top)
  have new {g : Frame} (single : begun = [g]) : w'.stack w.loop.tasks.length = [g] := by
    have known := strides.task_begun h.sound (i := 0) (g := g) (by rw [single]; rfl)
    exact known
  have kept (f : Connection → Connection) (same : ∀ x, (f x).closed = x.closed) :
      ((w.core.setConnection 0 f).connection 0).closed = (w.core.connection 0).closed := by
    rcases Core.connection_setConnection 0 0 f w.core with old | ⟨-, new⟩
    · rw [old]
    · rw [new, same]
  have none (s : SessionId) (p : Session.Stage) : .session s p ∉ ([] : List Frame) := List.not_mem_nil
  generalize core : w'.core = y at change
  cases change with
  | quiet _ begun_ =>
    refine .inr ⟨rfl, .inl rfl, fun s p hp => ?_⟩
    rcases opened _ hp with serves | ⟨s', grace, same⟩
    · cases serves
    · cases same
      cases (begun_ _ hp).errand
  | notes | answers => exact .inr ⟨rfl, .inl rfl, none⟩
  | requests => exact .inr ⟨rfl, .inl (kept _ fun _ => rfl), none⟩
  | withdraws => exact .inr ⟨rfl, .inl (kept _ fun _ => rfl), none⟩
  | closes owner => exact .inr ⟨rfl, .inr (owner 0 (h.owner 0).2), none⟩
  | @loses _ _ _ _ s roster owner alive =>
    cases (h.owner 0).2.symm.trans owner
    exact .inl ⟨⟨⟨roster, core⟩, new rfl, ⟨t, 0, q, top⟩, alive⟩, rfl⟩

/-- A connection ends because its session has been asked to stop, or it is lost. -/
theorem ceases (h : w.Alone) (m : Move may R w w') (first : ∀ g, may g → g.isUse 0 = true)
    (alive : (w.connection 0).closed = false) (dead : (w'.connection 0).closed = true) :
    (w.session 0).stopping = true ∨ w.Loses w' := by
  rw [← closed_core] at alive dead
  rcases m.alters (not_read_of_uses first) 0 with
    same | ⟨t, f, o, rest, begun, flow, w₂, strides, alters⟩
  · rw [same, alive] at dead
    cases dead
  · generalize ended : w'.core.connection 0 = x at alters dead
    cases alters with
    | same | requests | withdraws =>
      have same : (w.core.connection 0).closed = true := dead
      rw [alive] at same
      cases same
    | opens => cases dead
    | ends =>
      rcases h.loses_of_change strides with ⟨loses, -⟩ | ⟨-, same | asked, -⟩
      · exact .inr loses
      · rw [ended, alive] at same
        cases same
      · exact .inl asked

/-- A task that sees to the process comes about when the connection is lost. -/
theorem reaper_cases (h : w.Alone) (m : Move may R w w') :
    (w'.session 0).reaper = (w.session 0).reaper ∨ w.Loses w' := by
  rw [← reaper_core, ← reaper_core]
  rcases h.client.shifts m 0 with same | ⟨t, f, o, rest, begun, flow, w₂, strides, shifts⟩
  · exact .inl (congrArg Session.reaper same)
  · generalize state : w'.core.session 0 = x at shifts
    cases shifts with
    | loses =>
      rcases h.loses_of_change strides with ⟨loses, -⟩ | ⟨same, -⟩
      · exact .inr loses
      · exact .inl (congrArg Session.reaper (state.symm.trans same))
    | _ => exact .inl rfl

end Alone

namespace Standing

section Moves

variable (h : w.Standing) (alone : w.Alone) (move : Move may R w w')
variable (first : ∀ g, may g → g.isUse 0 = true)

include h alone in
/-- At the end of a handshake the task that starts the session has come nowhere else. -/
theorem top (strides : Strides R w w' t (.session 0 .initializedSent) o rest begun flow w₂) :
    rest = [] ∧ ∀ u, w.Opening u → u = t := by
  refine ⟨(strides.top ▸ alone.client.linked t : Linked _).nothing_below rfl, fun u hu => ?_⟩
  exact h.single u t hu ⟨_, strides.top ▸ List.mem_cons_self, rfl⟩

include h alone move first in
theorem opened_move (hu : w'.Opening u) :
    (w'.session 0).state = .starting ∨ (w'.session 0).state = .stopped := by
  rcases alone.client.opening_cases alone.sound move first hu with
    old | ⟨o, rest, begun, flow, w₂, b, strides, fresh, goes⟩
  · rcases h.opened u old with starting | past
    · rcases alone.client.transition move with same | next
      · exact .inl (same.trans starting)
      · rw [starting] at next
        simp only [SessionState.next, List.mem_cons, List.not_mem_nil, or_false] at next
        refine .inr (next.resolve_left fun ready => ?_)
        rcases alone.client.ready_cases move ready with same | ⟨t, o, rest, begun, flow, w₂, strides, -⟩
        · rw [starting] at same
          cases same
        · obtain ⟨rfl, only⟩ := h.top alone strides
          have same := only u old
          subst same
          obtain ⟨p, hp, opens⟩ := hu
          rw [strides.stack alone.sound, List.append_nil] at hp
          rw [← state_core] at ready
          have shifts := strides.shifts alone.client 0
          generalize w'.core.session 0 = x at shifts ready
          cases shifts with
          | readies =>
            simp only [Flow.frames, List.mem_cons, List.not_mem_nil, or_false] at hp
            rcases hp with same | same <;> cases same
            cases opens
          | fails => cases hp
          | _ =>
            rw [state_core, starting] at ready
            cases ready
    · exact .inr (alone.client.stopped move past)
  · exact .inl (started_of_strides strides alone.present goes).1

include h alone move first in
theorem single_move (ht : w'.Opening t) (hu : w'.Opening u) : t = u := by
  have unopened (fresh : (w.session 0).state = .unstarted) {v : TaskId} (hv : w.Opening v) : False := by
    rcases h.opened v hv with same | same <;>
    · rw [fresh] at same
      cases same
  rcases alone.client.opening_cases alone.sound move first ht with
    old | ⟨o, rest, begun, flow, w₂, b, strides, fresh, -⟩
  · rcases alone.client.opening_cases alone.sound move first hu with old' | ⟨_, _, _, _, _, _, -, fresh, -⟩
    · exact h.single t u old old'
    · exact (unopened fresh old).elim
  · rcases alone.client.opening_cases alone.sound move first hu with
      old' | ⟨_, _, _, _, _, _, strides', -, -⟩
    · exact (unopened fresh old').elim
    · have same := strides.runs.symm.trans strides'.runs
      cases same
      rfl

include h alone move first in
theorem launched_move (ht : w'.Launches 0 t) (past : (w'.session 0).state = .stopped) :
    (w'.session 0).stopping = true := by
  rcases launches_cases alone.client alone.sound move (fun g may => Frame.isCall_of_use (first g may)) ht with
    ⟨old, still⟩ | ⟨o, rest, begun, flow, w₂, strides, -, b, goes⟩
  · have opening : w.Opening t := let ⟨b, hb⟩ := old; ⟨_, hb, rfl⟩
    rcases alone.stopped_cases move past with before | stopping | ⟨u, k, p, hp⟩ |
        ⟨u, p, o, rest, begun, flow, w₂, strides, -, stages⟩
    · exact alone.client.stopping move (h.launched t old before)
    · exact stopping
    · have connected := h.wired u k p hp
      rw [(alone.unconnected old).1] at connected
      cases connected
    · have other (opens : p.opens = true) : False := by
        have same := h.single u t ⟨p, strides.top ▸ List.mem_cons_self, opens⟩ opening
        subst same
        rcases still o with idle | empty
        · exact idle strides.runs
        · rw [strides.top] at empty
          cases empty
      rcases stages with ⟨-, fresh⟩ | ⟨b, rfl⟩ | ⟨e, rfl⟩
      · rcases h.opened t opening with same | same <;>
        · rw [fresh] at same
          cases same
      · exact (other rfl).elim
      · exact (other rfl).elim
  · rw [(started_of_strides strides alone.present goes).1] at past
    cases past

include h alone move in
theorem fresh_move (fresh : (w'.session 0).state = .unstarted) :
    (w'.session 0).stopping = false ∧ (w'.session 0).reaper = none ∧ (w'.session 0).connection = none := by
  have before := h.fresh (alone.client.unstarted_of_move move fresh)
  have unopened {v : TaskId} (opening : w.Opening v) : False := by
    rcases h.opened v opening with same | same <;>
    · rw [alone.client.unstarted_of_move move fresh] at same
      cases same
  rw [← state_core] at fresh
  rw [← stopping_core, ← reaper_core, ← connected_core] at before ⊢
  rcases alone.client.shifts move 0 with same | ⟨t, f, o, rest, begun, flow, w₂, strides, shifts⟩
  · rwa [same]
  · have top {p : Session.Stage} (same : f = .session 0 p) (opens : p.opens = true) : w.Opening t :=
      ⟨p, same ▸ strides.top ▸ List.mem_cons_self, opens⟩
    generalize w'.core.session 0 = x at shifts fresh
    cases shifts with
    | abandons start =>
      rcases start with rfl | rfl <;> exact (unopened (top rfl rfl)).elim
    | connects => exact (unopened (top rfl rfl)).elim
    | joins _ reaped =>
      rw [reaper_core, reaped] at before
      cases before.2.1
    | starts | fails | readies | stops | loses => cases fresh
    | _ => exact before

include h alone move in
theorem given_move (fits : ∀ t o e rest, w.current = some (t, o) →
      w.stack t = .session 0 (.abandoned e) :: rest → ∃ r, o = .ok r)
    (stopping : (w'.session 0).stopping = true) : (w'.session 0).state = .stopped ∨
      ∃ t e, .session 0 (.abandoned e) ∈ w'.stack t := by
  by_cases before : (w.session 0).stopping = true
  · rcases h.given before with past | ⟨t, e, he⟩
    · exact .inl (alone.client.stopped move past)
    · rcases alone.sound.lasts move he with kept | ⟨o, rest, begun, flow, w₂, strides, -⟩
      · exact .inr ⟨t, e, kept⟩
      · obtain ⟨r, rfl⟩ := fits t o e rest strides.runs strides.top
        left
        rw [← state_core, strides.lands.aside.core]
        cases strides.conducts alone.client with
        | refused _ core =>
          rw [core, Core.session_setSession_self alone.inside]
          rfl
        | unconnected _ stages => rcases stages with ⟨same, -⟩ | ⟨same, -⟩ | ⟨_, same, -⟩ <;> cases same
        | takes stages => rcases stages with same | ⟨c, same⟩ <;> cases same
        | turns stages => rcases stages with same | ⟨same, -⟩ <;> cases same
        | insists stages => rcases stages with ⟨_, _, same, -⟩ | ⟨same, -⟩ <;> cases same
        | vacates stages => rcases stages with ⟨_, same⟩ | same | same <;> cases same
        | exits stages => rcases stages with same | same | same <;> cases same
        | watches _ _ stages => rcases stages with ⟨same, -⟩ | ⟨same, -⟩ | ⟨same, -⟩ <;> cases same
  · rw [← stopping_core] at before stopping
    rw [← state_core]
    rcases alone.client.shifts move 0 with same | ⟨t, f, o, rest, begun, flow, w₂, strides, shifts⟩
    · rw [same] at stopping
      exact absurd stopping before
    · generalize w'.core.session 0 = x at shifts stopping
      cases shifts with
      | @abandons p e =>
        refine .inr ⟨t, e, ?_⟩
        rw [strides.stack alone.sound]
        exact List.mem_cons_of_mem _ List.mem_cons_self
      | @joins _ _ u _ reaped => exact .inl ((state_core 0 w).trans (h.reaped u reaped).1)
      | stops => exact .inl rfl
      | _ => exact absurd stopping before

include h alone move first in
theorem abandoned_move {e : Failure} (he : .session 0 (.abandoned e) ∈ w'.stack u) :
    (w'.session 0).stopping = true := by
  cases alone.client.stays alone.sound move he with
  | same before => exact alone.client.stopping move (h.abandoned u e before)
  | below strides _ before =>
    exact alone.client.stopping move (h.abandoned u e (strides.top ▸ List.mem_cons_of_mem _ before))
  | comes strides _ after conduct =>
    rw [← stopping_core, strides.lands.aside.core]
    cases conduct with
    | abandons _ _ _ core =>
      rw [core, Core.session_setSession_self alone.inside]
    | unconnected _ stages =>
      cases List.mem_singleton.1 after
      rcases stages with ⟨-, same⟩ | ⟨-, same⟩ | ⟨_, -, same⟩ <;> cases same
    | launches _ flow_ => rcases flow_ with rfl | ⟨c, -, rfl⟩ <;> simp [Flow.frames] at after
    | takes _ stages flow_ =>
      rcases flow_ with rfl | rfl | ⟨c, -, rfl⟩ <;> rcases stages with rfl | ⟨c, rfl⟩ <;>
        simp [Flow.frames] at after
    | watches _ _ stages =>
      rcases stages with ⟨-, rfl, -⟩ | ⟨-, rfl, -⟩ | ⟨-, rfl, -⟩ <;> simp [Flow.frames] at after
    | _ => simp [Flow.frames] at after
  | called _ _ called => rcases Frame.isUse_cases (first _ called) with same | ⟨_, _, same⟩ | ⟨_, same⟩ <;>
      cases same
  | reaps _ _ reaps => cases reaps

include h alone move first in
theorem connected_move (hp : .session 0 p ∈ w'.stack u)
    (stage : p = .initializeAnswered ∨ p = .initializedSent) : (w'.session 0).connection = some 0 := by
  have old {t : TaskId} (before : .session 0 p ∈ w.stack t) : (w'.session 0).connection = some 0 :=
    alone.still_connected move (h.connected t p before stage)
  cases alone.client.stays alone.sound move hp with
  | same before => exact old before
  | below strides _ before => exact old (strides.top ▸ List.mem_cons_of_mem _ before)
  | @comes q _ _ _ _ _ strides _ after conduct =>
    have top := strides.top
    cases conduct with
    | connects _ _ core =>
      rw [← connected_core, strides.lands.aside.core, core]
      refine (congrArg Session.connection (Core.session_setSession_self (x := w.core.spawn _)
        alone.inside _)).trans ?_
      exact congrArg some (alone.new (top ▸ List.mem_cons_self) _ rfl)
    | greets connected =>
      have same := alone.own connected
      subst same
      exact alone.still_connected move connected
    | unconnected none stages =>
      rcases stages with ⟨rfl, -⟩ | ⟨-, rfl⟩ | ⟨_, -, rfl⟩
      · rw [h.connected u _ (top ▸ List.mem_cons_self) (.inl rfl)] at none
        cases none
      · cases List.mem_singleton.1 after
        rcases stage with same | same <;> cases same
      · cases List.mem_singleton.1 after
        rcases stage with same | same <;> cases same
    | launches _ flow_ =>
      rcases flow_ with rfl | ⟨c, -, rfl⟩ <;> rcases stage with rfl | rfl <;> simp [Flow.frames] at after
    | takes _ next flow_ =>
      rcases flow_ with rfl | rfl | ⟨c, -, rfl⟩ <;> rcases next with rfl | ⟨c, rfl⟩ <;>
        rcases stage with rfl | rfl <;> simp [Flow.frames] at after
    | watches _ _ stages =>
      rcases stages with ⟨-, rfl, -⟩ | ⟨-, rfl, -⟩ | ⟨-, rfl, -⟩ <;>
        rcases stage with rfl | rfl <;> simp [Flow.frames] at after
    | _ => rcases stage with rfl | rfl <;> simp [Flow.frames] at after
  | called _ _ called =>
    rcases Frame.isUse_cases (first _ called) with same | ⟨_, _, same⟩ | ⟨_, same⟩ <;>
      rcases stage with rfl | rfl <;> cases same
  | reaps _ _ reaps => rcases stage with rfl | rfl <;> cases reaps

include h alone move first in
theorem wired_move (alone' : w'.Alone) (hp : .connection k q ∈ w'.stack u) :
    (w'.session 0).connection = some 0 := by
  have old {t : TaskId} {k : ConnectionId} {q : Connection.Stage} (before : .connection k q ∈ w.stack t) :
      (w'.session 0).connection = some 0 := alone.still_connected move (h.wired t k q before)
  have own {k : ConnectionId} (connected : (w'.session 0).connection = some k) :
      (w'.session 0).connection = some 0 := alone'.own connected ▸ connected
  have kept {k : ConnectionId} (connected : (w.session 0).connection = some k) :
      (w'.session 0).connection = some 0 :=
    alone.still_connected move (alone.own connected ▸ connected)
  cases alone.sound.fate move u with
  | stays stack => exact old (stack ▸ hp)
  | ends _ stack =>
    rw [stack] at hp
    cases hp
  | wakes _ stack => exact old (stack ▸ hp)
  | @begins g _ stack _ _ source =>
    rw [stack] at hp
    cases List.mem_singleton.1 hp
    rcases source with ⟨-, allowed⟩ | ⟨t, f, o, rest, begun, flow, w₂, strides, found⟩
    · exact absurd rfl (Frame.ne_connection_of_use (first _ allowed) k q)
    · have top : f ∈ w.stack t := strides.top ▸ List.mem_cons_self
      rcases f.connection_or_anywhere (alone.client.places t f top) (alone.places t f top) with
        ⟨k, q, rfl⟩ | here
      · exact old top
      · have change := strides.turn.change
        have core := strides.lands.aside.core
        have member := List.mem_of_getElem? found
        dsimp only at change
        generalize w₂.core = x at change core
        cases change with
        | quiet _ begun_ => exact (Frame.not_connection_of_anywhere here (begun_ _ member).succeeds).elim
        | @connects s b =>
          have same := alone.here top
          subst same
          refine own (k := w.connections.length) ?_
          rw [← connected_core, core]
          exact congrArg Session.connection
            (Core.session_setSession_self (x := w.core.spawn b) alone.inside _)
        | @loses k' => exact absurd (Option.some.inj (here (k' + 1))) (Nat.succ_ne_self k')
        | stopsAll => cases alone.client.places _ _ top
        | _ => cases member
  | @goes f o rest begun flow w₂ strides stack =>
    rw [stack] at hp
    have top : f ∈ w.stack u := strides.top ▸ List.mem_cons_self
    rcases List.mem_append.1 hp with new | below
    · rcases (alone.client.leads strides).wires new with ⟨k, q, rfl⟩ | ⟨s, starts⟩ | ⟨s, r, rfl, connected⟩
      · exact old top
      · have there : .session s .initializeAnswered ∈ w'.stack u := stack ▸ List.mem_append_left _ starts
        cases alone'.here there
        exact h.connected_move alone move first there (.inl rfl)
      · cases alone.here top
        exact kept connected
    · exact old (strides.top ▸ List.mem_cons_of_mem _ below)

include h alone in
theorem one_connection (hq : .connection k q ∈ w.stack t) : w.connections.length = 1 := by
  rcases alone.lone.connections with ⟨none, -⟩ | ⟨-, count, -⟩
  · rw [connected_core, h.wired t k q hq] at none
    cases none
  · rwa [show w.core.connections.length = w.connections.length from List.length_map _] at count

include h alone in
theorem lost_connection (loses : w.Loses w') : w'.core.connection 0 = (w.core.connection 0).cease := by
  obtain ⟨roster, core⟩ := loses.core
  obtain ⟨t, k, p, hp⟩ := loses.wired
  have inside : 0 < w.core.connections.length := by
    rw [show w.core.connections.length = w.connections.length from List.length_map _,
      h.one_connection alone hp]
    exact Nat.one_pos
  rw [core]
  simp only [Core.connection, Core.setRoster, Core.setSession, Core.setConnection,
    List.getD_eq_getElem?_getD, List.getElem?_modify_eq, List.getElem?_eq_getElem inside]
  rfl

include h alone move in
/-- No second process is left to be seen to. -/
theorem still_reaped (reaper : (w.session 0).reaper = some u) : (w'.session 0).reaper = some u := by
  rcases alone.reaper_cases move with same | loses
  · exact same.trans reaper
  · have alive := loses.alive
    rw [(h.reaped u reaper).2] at alive
    cases alive

include h alone move in
theorem reaped_move (reaped : (w'.session 0).reaper = some u) :
    (w'.session 0).state = .stopped ∧ (w'.connection 0).closed = true := by
  rcases alone.reaper_cases move with same | loses
  · have old := h.reaped u (same.symm.trans reaped)
    exact ⟨alone.client.stopped move old.1, move.still_closed old.2⟩
  · refine ⟨loses.state alone, ?_⟩
    rw [← closed_core, h.lost_connection alone loses]
    rfl

include h alone move in
theorem ready_move (ready : (w'.session 0).state = .ready) :
    (w'.session 0).stopping = false ∧ (w'.session 0).connection = some 0 := by
  rcases alone.client.ready_cases move ready with
    old | ⟨t, o, rest, begun, flow, w₂, strides, starting, stopping, connected, k, known⟩
  · obtain ⟨going, connected⟩ := h.ready old
    refine ⟨?_, alone.still_connected move connected⟩
    rw [← stopping_core] at going ⊢
    rw [← state_core] at ready
    rcases alone.client.shifts move 0 with same | ⟨t, f, o, rest, begun, flow, w₂, strides, shifts⟩
    · rwa [same]
    · generalize w'.core.session 0 = x at shifts ready
      cases shifts with
      | @abandons p _ start =>
        have opening : w.Opening t := ⟨p, strides.top ▸ List.mem_cons_self, by
          rcases start with rfl | rfl <;> rfl⟩
        rcases h.opened t opening with same | same <;>
        · rw [old] at same
          cases same
      | joins _ reaped =>
        have past := (h.reaped _ reaped).1
        rw [old] at past
        cases past
      | stops => cases ready
      | _ => exact going
  · have same := alone.own known
    subst same
    refine ⟨stopping.trans (Bool.eq_false_iff.2 fun asked => ?_), connected.trans known⟩
    rcases h.given asked with past | ⟨u, e, he⟩
    · rw [starting] at past
      cases past
    · obtain ⟨rfl, only⟩ := h.top alone strides
      have same := only u ⟨_, he, rfl⟩
      subst same
      rw [strides.top] at he
      cases List.mem_singleton.1 he

include h alone move in
theorem outbox_move (late : (w'.session 0).state.buffers = false) : (w'.session 0).outbox = [] := by
  have old := h.outbox
  rw [← state_core, ← outbox_core] at old
  rw [← state_core] at late
  rw [← outbox_core]
  rcases alone.client.shifts move 0 with same | ⟨t, f, o, rest, begun, flow, w₂, strides, shifts⟩
  · rw [same] at late ⊢
    exact old late
  · generalize w'.core.session 0 = x at shifts late
    cases shifts with
    | starts => cases late
    | buffers early =>
      rw [← state_core] at early
      exact absurd (early.symm.trans late) (by simp)
    | fails | readies | drops | stops | loses => rfl
    | _ => exact old late

include h alone move first in
theorem closed_move (dead : (w'.connection 0).closed = true) : w'.Over := by
  cases before : (w.connection 0).closed with
  | true => exact alone.client.still_over move (h.closed before)
  | false =>
    rcases alone.ceases move first before dead with asked | loses
    · exact .inr (alone.client.stopping move asked)
    · exact .inl (loses.state alone)

include h move first in
theorem pending_move (dead : (w'.connection 0).closed = true) : (w'.connection 0).pending = [] := by
  have old := h.pending
  rw [← closed_core, ← pending_core] at old
  rw [← closed_core] at dead
  rw [← pending_core]
  rcases move.alters (not_read_of_uses first) 0 with
    same | ⟨t, f, o, rest, begun, flow, w₂, strides, alters⟩
  · rw [same] at dead ⊢
    exact old dead
  · generalize w'.core.connection 0 = x at alters dead
    cases alters with
    | same => exact old dead
    | requests alive =>
      have known : (w.core.connection 0).closed = true := dead
      rw [closed_core, alive] at known
      cases known
    | withdraws =>
      have none := old dead
      simp only [Connection.withdraw, none, List.filter_nil]
    | ends => rfl
    | opens => rfl

include h alone move first in
theorem spawned_move (spawned : (w'.backend 0).spawned = true) : (w'.session 0).backend = some 0 := by
  have inbox (w : World) : (w.core.inbox 0).spawned = (w.backend 0).spawned :=
    congrArg Inbox.spawned (inbox_core 0 w)
  have old := h.spawned
  rw [← inbox, ← process_core] at old
  rw [← inbox] at spawned
  rw [← process_core]
  rcases alone.adds move first with holds | ⟨t, f, o, rest, begun, flow, w₂, strides, adds⟩
  · exact (holds.backend 0).trans (old ((holds.spawned 0).symm.trans spawned))
  · have top : f ∈ w.stack t := strides.top ▸ List.mem_cons_self
    generalize w'.core = x at adds spawned
    cases adds with
    | nothing holds => exact (holds.backend 0).trans (old ((holds.spawned 0).symm.trans spawned))
    | @backend s fresh =>
      have same := alone.here top
      subst same
      have none : w.core.inboxes = [] := alone.lone.fresh ((state_core 0 w).trans fresh)
      simp only [Core.inbox, none] at spawned
      cases spawned
    | @process s b =>
      have same := alone.here top
      subst same
      have zero := alone.launched t b top
      subst zero
      exact congrArg Session.backend (Core.session_setSession_self (x := w.core.spawn 0) alone.inside
        fun x => { x with backend := some 0 })
    | @connection s b =>
      have same := alone.here top
      subst same
      have zero := alone.launched t b top
      subst zero
      exact congrArg Session.backend (Core.session_setSession_self (x := w.core.spawn 0) alone.inside
        fun x => { x with backend := some 0, connection := some w.connections.length })

end Moves

/-- A move keeps what is known of a session. A task that has ended a process goes on well. -/
theorem move (h : w.Standing) (alone : w.Alone) (move : Move may R w w')
    (first : ∀ g, may g → g.isUse 0 = true) (alone' : w'.Alone)
    (fits : ∀ t o e rest, w.current = some (t, o) →
      w.stack t = .session 0 (.abandoned e) :: rest → ∃ r, o = .ok r) : w'.Standing where
  opened _ := h.opened_move alone move first
  single _ _ := h.single_move alone move first
  launched _ := h.launched_move alone move first
  fresh := h.fresh_move alone move
  given := h.given_move alone move fits
  abandoned _ _ := h.abandoned_move alone move first
  wired _ _ _ := h.wired_move alone move first alone'
  connected _ _ := h.connected_move alone move first
  reaped _ := h.reaped_move alone move
  ready := h.ready_move alone move
  outbox := h.outbox_move alone move
  closed := h.closed_move alone move first
  pending := h.pending_move move first
  spawned := h.spawned_move alone move first

end Standing

end World
end LanguageClient
