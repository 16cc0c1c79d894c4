import LanguageClient.Proofs.Client.Launching
import LanguageClient.Proofs.Client.Solo

/-!
The world of one session: no other session, no other backend and no other connection comes about,
and every task belongs to them.
-/

namespace LanguageClient

open Schedule

namespace Core

/-- Nothing comes about, and sessions keep the process and the connection that they have. -/
structure Holds (x y : Core) : Prop where
  sessions : y.sessions.length = x.sessions.length
  connections : y.connections.length = x.connections.length
  inboxes : y.inboxes.length = x.inboxes.length
  connection : ∀ s, (y.session s).connection = (x.session s).connection
  backend : ∀ s, (y.session s).backend = (x.session s).backend
  spawned : ∀ b, (y.inbox b).spawned = (x.inbox b).spawned

theorem Holds.refl (x : Core) : x.Holds x :=
  ⟨rfl, rfl, rfl, fun _ => rfl, fun _ => rfl, fun _ => rfl⟩

theorem Holds.trans {x y z : Core} (h : x.Holds y) (h' : y.Holds z) : x.Holds z where
  sessions := h'.sessions.trans h.sessions
  connections := h'.connections.trans h.connections
  inboxes := h'.inboxes.trans h.inboxes
  connection s := (h'.connection s).trans (h.connection s)
  backend s := (h'.backend s).trans (h.backend s)
  spawned b := (h'.spawned b).trans (h.spawned b)

theorem Holds.setConnection {x : Core} (k : ConnectionId) (f : Connection → Connection) :
    x.Holds (x.setConnection k f) :=
  ⟨rfl, List.length_modify _ _ _, rfl, fun _ => rfl, fun _ => rfl, fun _ => rfl⟩

theorem Holds.setInbox {x : Core} {f : Inbox → Inbox} (same : ∀ i, (f i).spawned = i.spawned)
    (b : BackendId) : x.Holds { x with inboxes := x.inboxes.modify b f } := by
  refine ⟨rfl, rfl, List.length_modify _ _ _, fun _ => rfl, fun _ => rfl, fun b' => ?_⟩
  rcases World.getD_modify b b' f x.inboxes (Backend.inbox default) with kept | ⟨-, new⟩
  · exact congrArg Inbox.spawned kept
  · exact (congrArg Inbox.spawned new).trans (same _)

theorem Holds.send {x : Core} (b : BackendId) (message : Value) (last : Bool) :
    x.Holds (x.send b message last) := by
  refine .setInbox (fun i => ?_) b
  unfold Inbox.take
  split <;> rfl

theorem Holds.cut {x : Core} (b : BackendId) : x.Holds (x.cut b) :=
  .setInbox (f := fun i => { i with broken := true }) (fun _ => rfl) b

theorem Holds.sends {b : BackendId} {messages : List Value} {x y : Core} (h : Sends b messages x y) :
    x.Holds y := by
  induction h with
  | nil x => exact .refl x
  | cons last _ ih => exact (Holds.send _ _ last).trans ih

theorem Holds.setSession {x : Core} {f : Session → Session}
    (h : ∀ y, (f y).connection = y.connection ∧ (f y).backend = y.backend) (s : SessionId) :
    x.Holds (x.setSession s f) := by
  have kept (s' : SessionId) : ((x.setSession s f).session s').connection = (x.session s').connection ∧
      ((x.setSession s f).session s').backend = (x.session s').backend := by
    rcases session_setSession s s' f x with same | ⟨-, same⟩
    · rw [same]
      exact ⟨rfl, rfl⟩
    · rw [same]
      exact h _
  exact ⟨List.length_modify _ _ _, rfl, rfl, fun s' => (kept s').1, fun s' => (kept s').2, fun _ => rfl⟩

/-- One session, with its backend and its connection once it has them. -/
structure Lone (x : Core) : Prop where
  single : x.sessions.length = 1
  backends : x.inboxes.length ≤ 1
  fresh : (x.session 0).state = .unstarted → x.inboxes = []
  backend : ∀ b, (x.session 0).backend = some b → b = 0
  connections : (x.session 0).connection = none ∧ x.connections = [] ∨
    (x.session 0).connection = some 0 ∧ x.connections.length = 1 ∧ (x.session 0).backend = some 0

end Core

namespace World

variable {may : Frame → Prop} {R : CellId → Prop} {t u : TaskId} {w w' w₂ : World}
variable {f : Frame} {rest begun : List Frame} {o : Outcome Result} {flow : Flow Frame Result}
variable {k : ConnectionId} {s : SessionId} {p : Session.Stage} {b : BackendId} {m : Moment}

section Fields

variable (s : SessionId) (k : ConnectionId) (w : World)

@[simp] theorem state_core : (w.core.session s).state = (w.session s).state :=
  (congrArg Session.state (session_core s w) :)

@[simp] theorem stopping_core : (w.core.session s).stopping = (w.session s).stopping :=
  (congrArg Session.stopping (session_core s w) :)

@[simp] theorem reaper_core : (w.core.session s).reaper = (w.session s).reaper :=
  (congrArg Session.reaper (session_core s w) :)

@[simp] theorem outbox_core : (w.core.session s).outbox = (w.session s).outbox :=
  (congrArg Session.outbox (session_core s w) :)

@[simp] theorem connected_core : (w.core.session s).connection = (w.session s).connection :=
  (congrArg Session.connection (session_core s w) :)

@[simp] theorem process_core : (w.core.session s).backend = (w.session s).backend :=
  (congrArg Session.backend (session_core s w) :)

@[simp] theorem root_core : (w.core.session s).root = (w.session s).root :=
  (congrArg Session.root (session_core s w) :)

@[simp] theorem bus_core : (w.core.session s).bus.closed = (w.session s).bus.closed :=
  (congrArg (fun x => x.bus.closed) (session_core s w) :)

@[simp] theorem closed_core : (w.core.connection k).closed = (w.connection k).closed :=
  (congrArg Connection.closed (connection_core k w) :)

@[simp] theorem pending_core : (w.core.connection k).pending = (w.connection k).pending :=
  (congrArg Connection.pending (connection_core k w) :)

@[simp] theorem nextId_core : (w.core.connection k).nextId = (w.connection k).nextId :=
  (congrArg Connection.nextId (connection_core k w) :)

@[simp] theorem owner_core : (w.core.connection k).owner = (w.connection k).owner :=
  (congrArg Connection.owner (connection_core k w) :)

@[simp] theorem sink_core : (w.core.connection k).backend = (w.connection k).backend :=
  (congrArg Connection.backend (connection_core k w) :)

end Fields

theorem not_read_of_uses (first : ∀ g, may g → g.isUse s = true) (k : ConnectionId) :
    ¬ may (.connection k (.read .start)) :=
  fun allowed => Frame.ne_connection_of_use (first _ allowed) k _ rfl

/-- A connection that has ended stays so. -/
theorem Move.still_closed (m : Move may R w w') (closed : (w.connection k).closed = true) :
    (w'.connection k).closed = true := by
  rw [← closed_core] at closed ⊢
  rcases m.connection_cases k with ⟨reader, same⟩ | ⟨t, f, o, rest, begun, flow, w₂, strides, alters⟩
  · rwa [same]
  · generalize w'.core.connection k = x at alters
    cases alters with
    | opens new =>
      rw [closed_core, connection, List.getD_eq_getElem?_getD,
        List.getElem?_eq_none (Nat.le_of_eq new.symm)] at closed
      cases closed
    | ends => rfl
    | _ => exact closed

/-- What a step adds that makes no session: a backend, its process, a connection, or nothing. -/
inductive Adds (w : World) : Frame → Core → Prop
  | nothing {f : Frame} {x : Core} (holds : w.core.Holds x) : Adds w f x
  | backend {s : SessionId} (fresh : (w.session s).state = .unstarted) :
    Adds w (.session s .start) { w.core.setSession s fun x => { x with state := .starting } with
      inboxes := w.core.inboxes ++ [⟨[], false, false⟩] }
  | process {s : SessionId} {b : BackendId} :
    Adds w (.session s (.launched b))
      ((w.core.spawn b).setSession s fun x => { x with backend := some b })
  | connection {s : SessionId} {b : BackendId} (going : (w.session s).stopping = false) :
    Adds w (.session s (.launched b)) { (w.core.spawn b).setSession s fun x =>
        { x with backend := some b, connection := some w.connections.length } with
      connections := w.core.connections ++ [Connection.opened b s w.loop.tasks.length] }

theorem Change.adds {x : Core} (h : Change w f o begun flow x)
    (old : ∀ root, f ≠ .roster (.ensure root)) : Adds w f x := by
  have changed {s : SessionId} {g : Session → Session}
      (holds : ∀ y, (g y).connection = y.connection ∧ (g y).backend = y.backend) :
      Adds w f (w.core.setSession s g) := .nothing (.setSession holds s)
  cases h with
  | creates => exact absurd rfl (old _)
  | quiet | closing | greets | tells | dismisses => exact .nothing (.refl _)
  | forgets | strikes | leaves | stopsAll => exact .nothing { Core.Holds.refl w.core with }
  | notes last | answers last => exact .nothing (.send _ _ last)
  | requests last => exact .nothing ((Core.Holds.setConnection _ _).trans (.send _ _ last))
  | closes | withdraws => exact .nothing (.setConnection _ _)
  | @loses k _ _ _ s roster =>
    have holds := (Core.Holds.setConnection (x := w.core) k Connection.cease).trans
      (Core.Holds.setSession (f := lost w.loop.tasks.length) (fun _ => ⟨rfl, rfl⟩) s)
    exact .nothing { holds with }
  | stumbles | fails | shuts | abandons | drops | buffers | joins | stops | asks =>
    exact changed fun _ => ⟨rfl, rfl⟩
  | launches fresh => exact .backend fresh
  | arrives => exact .process
  | connects going => exact .connection going
  | @readies s _ _ y _ _ _ sends =>
    have cleared := Core.Holds.setSession (x := w.core) (f := fun x => { x with outbox := [] })
      (fun _ => ⟨rfl, rfl⟩) s
    have ready := Core.Holds.setSession (x := y) (f := fun x => { x with state := .ready })
      (fun _ => ⟨rfl, rfl⟩) s
    exact .nothing ((cleared.trans (.sends sends)).trans ready)

theorem Adds.aside {current : Option (TaskId × Outcome Result)} {x : Core}
    (h : Adds { w with current := current } f x) : Adds w f x := by
  cases h with
  | nothing holds => exact .nothing holds
  | backend fresh => exact .backend fresh
  | process => exact .process
  | connection going => exact .connection going

/-- Where a task goes on that belongs to a session and its connection. -/
theorem Leads.isLocal (h : Leads t w w' f o flow) (here : f.IsLocal (some s) (some k))
    (own : ∀ k', (w.session s).connection = some k' → k' = k)
    (new : ∀ b, f = .session s (.launched b) → (w.session s).stopping = false →
      w.connections.length = k) :
    ∀ g ∈ flow.frames, g.IsLocal (some s) (some k) := by
  have one {g : Frame} (hg : g.IsLocal (some s) (some k)) : ∀ g' ∈ [g], g'.IsLocal (some s) (some k) :=
    List.forall_mem_singleton.2 hg
  have two {g g' : Frame} (hg : g.IsLocal (some s) (some k)) (hg' : g'.IsLocal (some s) (some k)) :
      ∀ g'' ∈ [g, g'], g''.IsLocal (some s) (some k) :=
    List.forall_mem_cons.2 ⟨hg, List.forall_mem_singleton.2 hg'⟩
  have stage {s' : SessionId} {p : Session.Stage} (here : Frame.IsLocal (some s) (some k) (.session s' p)) :
      s' = s := by
    unfold Frame.IsLocal at here
    split at here <;> simp_all
  have named {k' : ConnectionId} (same : k' = k) (p : Connection.Stage) :
      Frame.IsLocal (some s) (some k) (.connection k' p) := congrArg some same.symm
  cases h with
  | waits | guards | givesUp => exact one trivial
  | written => exact two trivial here
  | stalls | flows | notes | closes | stopsReader => exact one here
  | requests | answers => exact two here here
  | serves _ _ flow_ => rcases flow_ with rfl | ⟨c, -, rfl⟩ <;> exact one here
  | stopsAnswers _ flow_ => rcases flow_ with rfl | ⟨c, rfl⟩ <;> exact one here
  | launches _ flow_ => rcases flow_ with rfl | ⟨c, -, rfl⟩ <;> exact one here
  | unconnected _ stages =>
    rcases stages with ⟨rfl, rfl⟩ | ⟨rfl, rfl⟩ | ⟨timeout, rfl, rfl⟩ <;> exact one here
  | @takes s' _ q _ _ _ next flow_ =>
    have same := stage here
    subst same
    have goes : Frame.IsLocal (some s') (some k) (.session s' q) := by
      rcases next with rfl | ⟨c, rfl⟩ <;> exact .inr rfl
    rcases flow_ with rfl | rfl | ⟨c, -, rfl⟩
    · exact fun _ hg => nomatch hg
    · exact one goes
    · exact one goes
  | arrives | stops => exact one here
  | joins => exact one trivial
  | turns stages =>
    have same := stage here
    subst same
    exact one (.inr rfl)
  | insists =>
    have same := stage here
    subst same
    exact one (.inr rfl)
  | vacates =>
    have same := stage here
    subst same
    exact one (.inr rfl)
  | exits =>
    have same := stage here
    subst same
    exact one (.inr rfl)
  | watches _ _ stages =>
    have same := stage here
    subst same
    rcases stages with ⟨-, rfl, -⟩ | ⟨-, rfl, -⟩ | ⟨-, rfl, -⟩ <;> exact two trivial (.inr rfl)
  | connects going =>
    have same := stage here
    subst same
    exact two (named (new _ rfl going) _) (.inr rfl)
  | abandons =>
    have same := stage here
    subst same
    exact two (.inr rfl) (.inr rfl)
  | greets connected =>
    have same := stage here
    subst same
    exact two (named (own _ connected) _) (.inr rfl)
  | readies _ connected =>
    have same := stage here
    subst same
    exact two (named (own _ connected) _) (.inr rfl)
  | tells _ connected =>
    have same := stage here
    subst same
    exact two (named (own _ connected) _) (.inr rfl)
  | asks _ _ connected =>
    have same := stage here
    subst same
    exact two (named (own _ connected) _) (.inr rfl)
  | dismisses connected =>
    have same := stage here
    subst same
    exact two (named (own _ connected) _) (.inr rfl)
  | releases connected =>
    have same := stage here
    subst same
    exact two (named (own _ connected) _) (.inr rfl)
  | _ => exact fun _ hg => nomatch hg

/-- Tasks begin that belong to the same session and its connection. -/
theorem Change.begun_local {x : Core} (h : Change w f o begun flow x) (client : f.isClient = true)
    (here : f.IsLocal (some s) (some k)) (owner : (w.connection k).owner = .session s)
    (new : ∀ b, f = .session s (.launched b) → (w.session s).stopping = false →
      w.connections.length = k) : ∀ g ∈ begun, g.IsLocal (some s) (some k) := by
  cases h with
  | quiet _ begun_ => exact fun g hg => (begun_ g hg).succeeds.local_ _ _ here
  | @loses k' p _ _ s' _ owner' =>
    have same : k' = k := (Option.some.inj here).symm
    subst same
    rw [owner] at owner'
    cases owner'
    exact List.forall_mem_singleton.2 (.inr rfl)
  | connects going =>
    have same := here.resolve_left (fun h => nomatch h)
    cases same
    exact List.forall_mem_singleton.2 (congrArg some (new _ rfl going).symm)
  | stopsAll => cases client
  | _ => exact fun _ hg => nomatch hg

/-- A launch is of the backend that has just been asked for. -/
theorem Leads.launched_backend (h : Leads t w w' f o flow)
    (hg : .session s (.launched b) ∈ flow.frames) : b = w.backends.length := by
  obtain ⟨rfl, -⟩ := h.launched hg
  cases h with
  | launches _ flow_ =>
    rcases flow_ with rfl | ⟨c, -, rfl⟩ <;>
    · cases List.mem_singleton.1 hg
      rfl
  | takes stages => rcases stages with same | ⟨c, same⟩ <;> cases same
  | turns stages => rcases stages with same | ⟨same, -⟩ <;> cases same
  | insists stages => rcases stages with ⟨_, _, same, -⟩ | ⟨same, -⟩ <;> cases same
  | vacates stages => rcases stages with ⟨_, same⟩ | same | same <;> cases same
  | exits stages => rcases stages with same | same | same <;> cases same
  | watches _ _ stages => rcases stages with ⟨same, -⟩ | ⟨same, -⟩ | ⟨same, -⟩ <;> cases same
  | unconnected _ stages => rcases stages with ⟨same, -⟩ | ⟨same, -⟩ | ⟨_, same, -⟩ <;> cases same
  | abandons stages => rcases stages with same | same <;> cases same
  | _ => cases hg

/-- A client of one session: all tasks are about it and its connection. -/
structure Alone (w : World) : Prop extends Solo w where
  lone : w.core.Lone
  places : ∀ t, ∀ f ∈ w.stack t, f.IsLocal (some 0) (some 0)
  launching : w.Launching 0
  launched : ∀ t b, .session 0 (.launched b) ∈ w.stack t → b = 0
  owner : ∀ k, (w.connection k).backend = 0 ∧ (w.connection k).owner = .session 0

namespace Alone

theorem own (h : w.Alone) (connected : (w.session 0).connection = some k) : k = 0 := by
  rcases h.lone.connections with ⟨alone, -⟩ | ⟨same, -⟩
  · rw [connected_core, connected] at alone
    cases alone
  · rw [connected_core, connected] at same
    exact Option.some.inj same

/-- A session has its connection to its process. -/
theorem spawned_of_connected (h : w.Alone) (connected : (w.session 0).connection = some 0) :
    (w.session 0).backend = some 0 := by
  rcases h.lone.connections with ⟨alone, -⟩ | ⟨-, -, found⟩
  · rw [connected_core, connected] at alone
    cases alone
  · exact (process_core 0 w).symm.trans found

theorem connected_of_closed (h : w.Alone) (closed : (w.connection 0).closed = true) :
    (w.session 0).connection = some 0 := by
  rcases h.lone.connections with ⟨-, empty⟩ | ⟨connected, -⟩
  · rw [connection, List.map_eq_nil_iff.1 empty] at closed
    cases closed
  · exact (connected_core 0 w).symm.trans connected

/-- A session that is being launched has no connection yet. -/
theorem unconnected (h : w.Alone) (launches : w.Launches 0 t) :
    (w.session 0).connection = none ∧ w.connections = [] := by
  rcases h.lone.connections with ⟨alone, empty⟩ | ⟨-, -, some⟩
  · rw [connected_core] at alone
    exact ⟨alone, List.map_eq_nil_iff.1 empty⟩
  · rw [process_core, (h.launching.fresh t launches).2] at some
    cases some

theorem inside (h : w.Alone) : 0 < w.core.sessions.length := by
  rw [h.lone.single]
  exact Nat.one_pos

theorem present (h : w.Alone) : 0 < w.sessions.length := by
  have known := h.inside
  rwa [show w.core.sessions.length = _ from List.length_map _] at known

theorem new (h : w.Alone) (top : f ∈ w.stack t) (b : BackendId)
    (same : f = .session 0 (.launched b)) : w.connections.length = 0 := by
  subst same
  rw [(h.unconnected ⟨b, top⟩).2]
  rfl

theorem here (h : w.Alone) (top : .session s p ∈ w.stack t) : s = 0 := by
  have known := h.places t _ top
  unfold Frame.IsLocal at known
  split at known <;> simp_all

/-- What a move adds to a world that is alone. -/
theorem adds (h : w.Alone) (m : Move may R w w') (first : ∀ g, may g → g.isUse 0 = true) :
    w.core.Holds w'.core ∨
    ∃ t f o rest begun flow w₂, Strides R w w' t f o rest begun flow w₂ ∧ Adds w f w'.core := by
  have same (core : w'.core = w.core) : w.core.Holds w'.core := core ▸ .refl w.core
  cases m with
  | rests allowed _ _ core =>
    left
    rcases core with core | ⟨b, core⟩ | ⟨k, begun_, -⟩
    · exact same core
    · exact core ▸ .cut b
    · subst begun_
      exact absurd rfl (Frame.ne_connection_of_use (first _ (allowed _ (List.mem_singleton_self _))) k _)
  | ends _ _ core => exact .inl (same core)
  | wakes _ _ _ _ core => exact .inl (same core)
  | goes runs top taken steps turn lands =>
    subst taken
    refine .inr ⟨_, _, _, _, _, _, _, ⟨runs, top, steps, turn, lands⟩, ?_⟩
    rw [lands.aside.core]
    have client := h.client.places _ _ (top ▸ List.mem_cons_self)
    exact (turn.change.adds (Frame.ne_ensure_of_client client)).aside

theorem places_of_move (h : w.Alone) (m : Move may R w w') (first : ∀ g, may g → g.isUse 0 = true)
    (u : TaskId) : ∀ f ∈ w'.stack u, f.IsLocal (some 0) (some 0) := by
  cases h.sound.fate m u with
  | stays stack => exact stack ▸ h.places u
  | ends _ stack =>
    rw [stack]
    exact fun _ hg => nomatch hg
  | wakes _ stack => exact stack ▸ h.places u
  | @begins g _ stack _ _ source =>
    rw [stack]
    refine List.forall_mem_singleton.2 ?_
    rcases source with ⟨-, allowed⟩ | ⟨t, f, o, rest, begun, flow, w₂, strides, found⟩
    · rcases Frame.isUse_cases (first g allowed) with rfl | ⟨method, params, rfl⟩ | ⟨timeout, rfl⟩ <;>
        exact .inr rfl
    · have top : f ∈ w.stack t := strides.top ▸ List.mem_cons_self
      exact strides.turn.change.begun_local (h.client.places t f top) (h.places t f top) (h.owner 0).2
        (fun b same _ => h.new top b same) g (List.mem_of_getElem? found)
  | @goes f o rest begun flow w₂ strides stack =>
    rw [stack]
    intro g hg
    rcases List.mem_append.1 hg with new | old
    · have top : f ∈ w.stack u := strides.top ▸ List.mem_cons_self
      exact (h.client.leads strides).isLocal (h.places u f top) (fun k' connected => h.own connected)
        (fun b same _ => h.new top b same) g new
    · exact h.places u g (strides.top ▸ List.mem_cons_of_mem f old)

theorem launched_of_move (h : w.Alone) (m : Move may R w w')
    (first : ∀ g, may g → g.isUse 0 = true) (ht : .session 0 (.launched b) ∈ w'.stack t) : b = 0 := by
  cases h.client.stays h.sound m ht with
  | same before => exact h.launched t b before
  | below strides _ before => exact h.launched t b (strides.top ▸ List.mem_cons_of_mem _ before)
  | comes strides _ after =>
    have leads := h.client.leads strides
    have fresh := h.lone.fresh ((state_core 0 w).trans (leads.launched after).2.1)
    rw [leads.launched_backend after]
    show w.backends.length = 0
    rw [List.map_eq_nil_iff.1 fresh]
    rfl
  | called _ _ called => cases first _ called
  | reaps _ _ reaps => cases reaps

theorem owner_of_move (h : w.Alone) (m : Move may R w w') (first : ∀ g, may g → g.isUse 0 = true)
    (k : ConnectionId) : (w'.connection k).backend = 0 ∧ (w'.connection k).owner = .session 0 := by
  have before := h.owner k
  rw [← sink_core, ← owner_core] at before
  rw [← sink_core, ← owner_core]
  rcases m.alters (not_read_of_uses first) k with
    same | ⟨t, f, o, rest, begun, flow, w₂, strides, alters⟩
  · rwa [same]
  · have top : f ∈ w.stack t := strides.top ▸ List.mem_cons_self
    generalize w'.core.connection k = x at alters
    cases alters with
    | @opens s b =>
      have same := h.here top
      subst same
      exact ⟨h.launched t b top, rfl⟩
    | _ => exact before

/-- There is one session after a move as well, and no second backend or connection. -/
theorem lone_of_move (h : w.Alone) (m : Move may R w w') (first : ∀ g, may g → g.isUse 0 = true) :
    w'.core.Lone := by
  have lone := h.lone
  have inside := h.inside
  have unstarted (fresh : (w'.core.session 0).state = .unstarted) :
      (w.core.session 0).state = .unstarted :=
    (state_core 0 w).trans (h.client.unstarted_of_move m (by rwa [← state_core]))
  have kept (holds : w.core.Holds w'.core) : w'.core.Lone := by
    refine ⟨holds.sessions.trans lone.single, holds.inboxes ▸ lone.backends, fun fresh => ?_, ?_, ?_⟩
    · refine List.eq_nil_of_length_eq_zero (holds.inboxes.trans ?_)
      rw [lone.fresh (unstarted fresh)]
      rfl
    · rw [holds.backend]
      exact lone.backend
    · rw [holds.connection, holds.backend, holds.connections]
      exact lone.connections.imp_left fun ⟨alone, empty⟩ => ⟨alone,
        List.eq_nil_of_length_eq_zero (holds.connections.trans (by rw [empty]; rfl))⟩
  rcases h.adds m first with holds | ⟨t, f, o, rest, begun, flow, w₂, strides, adds⟩
  · exact kept holds
  · have top : f ∈ w.stack t := strides.top ▸ List.mem_cons_self
    generalize w'.core = x at adds unstarted kept
    cases adds with
    | nothing holds => exact kept holds
    | @backend s fresh =>
      have same := h.here top
      subst same
      have known := Core.session_setSession_self inside fun x => { x with state := .starting }
      have holds := Core.Holds.setSession (x := w.core) (f := fun x => { x with state := .starting })
        (fun _ => ⟨rfl, rfl⟩) 0
      have none : w.core.inboxes = [] := lone.fresh ((state_core 0 w).trans fresh)
      refine ⟨holds.sessions.trans lone.single, ?_, fun state => ?_, ?_, ?_⟩
      · rw [none]
        exact Nat.le_refl _
      · cases (congrArg Session.state known).symm.trans state
      · exact fun b same => lone.backend b ((holds.backend 0).symm.trans same)
      · exact lone.connections.imp (fun h => ⟨(holds.connection 0).trans h.1, h.2⟩)
          fun h => ⟨(holds.connection 0).trans h.1, h.2.1, (holds.backend 0).trans h.2.2⟩
    | @process s b =>
      have same := h.here top
      subst same
      have zero := h.launched t b top
      subst zero
      obtain ⟨alone, empty⟩ := h.unconnected ⟨0, top⟩
      have known := Core.session_setSession_self (x := w.core.spawn 0) inside
        fun x => { x with backend := some 0 }
      refine ⟨(List.length_modify _ _ _).trans lone.single,
        Nat.le_trans (Nat.le_of_eq (List.length_modify _ _ _)) lone.backends,
        fun fresh => ?_, fun b same => ?_, .inl ⟨?_, List.map_eq_nil_iff.2 empty⟩⟩
      · exact absurd ((state_core 0 w).symm.trans (unstarted fresh)) (h.launching.fresh t ⟨0, top⟩).1
      · exact (Option.some.inj ((congrArg Session.backend known).symm.trans same)).symm
      · have kept := congrArg Session.connection known
        exact kept.trans ((connected_core 0 w).trans alone)
    | @connection s b going =>
      have same := h.here top
      subst same
      have zero := h.launched t b top
      subst zero
      obtain ⟨-, empty⟩ := h.unconnected ⟨0, top⟩
      have known := Core.session_setSession_self (x := w.core.spawn 0) inside
        fun x => { x with backend := some 0, connection := some w.connections.length }
      refine ⟨(List.length_modify _ _ _).trans lone.single,
        Nat.le_trans (Nat.le_of_eq (List.length_modify _ _ _)) lone.backends,
        fun fresh => ?_, fun b same => ?_, .inr ⟨?_, ?_, congrArg Session.backend known⟩⟩
      · exact absurd ((state_core 0 w).symm.trans (unstarted fresh)) (h.launching.fresh t ⟨0, top⟩).1
      · exact (Option.some.inj ((congrArg Session.backend known).symm.trans same)).symm
      · have made := congrArg Session.connection known
        refine Eq.trans (b := some w.connections.length) made ?_
        rw [empty]
        rfl
      · rw [List.length_append, show w.core.connections = [] from List.map_eq_nil_iff.2 empty]
        rfl

/-- A move leaves a session alone. -/
theorem goes (h : m.world.Alone) (goes : m.Goes w')
    (use : ∀ a, m.act = some a → a.isUse 0 = true) :
    w'.Alone ∧ Moves m.Begins (· < m.world.loop.cells.length) m.world w' := by
  obtain ⟨solo, moves⟩ := h.toSolo.goes goes use
  have first (g : Frame) (begins : m.Begins g) : g.isUse 0 = true := isUse_of_begins use begins
  have calls (g : Frame) (begins : m.Begins g) := Frame.isCall_of_use (first g begins)
  exact ⟨⟨solo, h.lone_of_move moves.move first, h.places_of_move moves.move first,
    h.launching.move h.client h.sound moves.move calls h.present,
    fun t b => h.launched_of_move moves.move first, h.owner_of_move moves.move first⟩, moves⟩

end Alone

end World
end LanguageClient
