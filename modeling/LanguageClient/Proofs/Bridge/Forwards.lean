import LanguageClient.Proofs.Bridge.Answers
import LanguageClient.Proofs.Roster.Active
import LanguageClient.Proofs.Workspace.Wiring
import LanguageClient.Proofs.World.Deliveries

/-!
Where a snapshot goes that is forwarded. Whoever hears what has become of a forward has received the
request with the snapshot; and when a forward has gone well, the session either has kept the snapshot until
it is ready or has written it.
-/

namespace LanguageClient

open Schedule

/-- Where a request is answered. -/
def Frame.isBridge : Frame → Bool
  | .workspace (.receive _) | .workspace (.forwarded _) => true
  | _ => false

theorem Frame.isBridge_of_errand {f : Frame} (h : f.isErrand = true) : f.isBridge = false := by
  unfold Frame.isErrand at h
  split at h <;> first | rfl | cases h

theorem Frame.isBridge_cases {f : Frame} (h : f.isBridge = true) :
    (∃ request, f = .workspace (.receive request)) ∨ ∃ p, f = .workspace (.forwarded p) := by
  unfold Frame.isBridge at h
  split at h
  · exact .inl ⟨_, rfl⟩
  · exact .inr ⟨_, rfl⟩
  · cases h

namespace World

variable {t : TaskId} {w w' : World} {f g : Frame} {o : Outcome Result} {flow : Flow Frame Result}
variable {p : Bridge.Payload} {request : Bridge.Request}

/-- A step that goes on nowhere at the bridge. -/
def Silent (flow : Flow Frame Result) : Prop := ∀ g ∈ flow.frames, g.isBridge = false

theorem Silent.done : Silent (.done o) := fun _ none => nomatch none

theorem Silent.goto (h : g.isBridge = false) : Silent (.goto g) := List.forall_mem_singleton.2 h

theorem Silent.call {inner next : Frame} (h : inner.isBridge = false) (h' : next.isBridge = false) :
    Silent (.call inner next) := List.forall_mem_cons.2 ⟨h, List.forall_mem_singleton.2 h'⟩

theorem Silent.of_leads (h : Leads t w w' f o flow) (client : f.isClient = true) : Silent flow := by
  intro g hg
  have client := h.client client g hg
  cases g with
  | workspace => cases client
  | _ => rfl

theorem silent_session (s : SessionId) (p : Session.Stage) (o : Outcome Result) (w : World) :
    Silent (w.resumeSession s p o).1 := by
  by_cases client : (Frame.session s p).isClient = true
  · exact .of_leads (resumeSession_leads (t := 0) s p o client) client
  · cases p with
    | consume taker =>
      cases taker with
      | recorder => exact absurd rfl client
      | relay r =>
        cases o with
        | ok x =>
          show Silent (w.takeEvent s (.relay r)).1
          unfold takeEvent
          split
          · exact .goto rfl
          · dsimp only
            split
            · cases ‹Session.Consumer.relay r = .recorder›
            · exact .done
            · cases ‹Session.Consumer.relay r = .recorder›
            · exact .call rfl rfl
        | error e => exact .done
    | consumeAwoken taker c =>
      cases taker with
      | recorder => exact absurd rfl client
      | relay r =>
        cases o with
        | ok x => exact .goto rfl
        | error e => exact .done
    | _ => exact absurd rfl client

theorem silent_relay (r : RelayId) (p : Relay.Stage) (o : Outcome Result) (w : World) :
    Silent (w.resumeRelay r p o).1 := by
  have later (e : Event) (span : Nat) (w : World) : Silent (w.dispatchAfter r e span).1 := by
    cases span with
    | zero => exact .done
    | succ span => exact .goto rfl
  unfold resumeRelay
  split
  · exact later _ _ _
  · exact later _ _ _
  · unfold closeRelay
    split
    · exact .done
    split
    · exact .done
    · exact .goto rfl
  · exact .done
  · exact .done
  · exact .call rfl rfl
  · split <;> exact .done
  · exact .call rfl rfl
  · split <;> exact .done
  · exact .done

theorem silent_roster (p : Roster.Stage) (o : Outcome Result) (w : World) :
    Silent (w.resumeRoster p o).1 := by
  have reports (e : Failure) (w : World) : Silent (w.reportLaunch e).1 := by
    unfold reportLaunch
    split <;> exact .done
  have kills (stops : List (TaskId × SessionId)) (w : World) : Silent (w.killLate stops).1 := by
    unfold killLate
    dsimp only
    split
    · exact .done
    · exact .goto rfl
  unfold resumeRoster
  split
  · unfold ensure
    dsimp only
    split
    · split
      · exact .done
      · split
        · exact reports _ _
        · exact .call rfl rfl
    · split
      · exact reports _ _
      · exact .call rfl rfl
  · unfold sessionStarted
    split
    · split <;> exact .done
    · exact reports _ _
    · exact .done
  · unfold stopRoot
    dsimp only
    split
    · exact .done
    · exact .goto rfl
  · unfold stopAll
    dsimp only
    split
    · exact .done
    · exact .goto rfl
  · dsimp only
    split
    · exact kills _ _
    · exact .done
  · split
    · exact .goto rfl
    · exact .done
  · exact .done

theorem silent_workspace (p : Workspace.Stage) (o : Outcome Result) (w : World)
    (other : ∀ request, p ≠ .receive request) : Silent (w.resumeWorkspace p o).1 := by
  have starts (roots : List Root) (seen : List String) (started : List SessionId) :
      Silent (w.startEach roots seen started).1 := by
    unfold startEach
    split
    · exact .done
    · dsimp only
      split
      · exact .goto rfl
      · exact .call rfl rfl
  unfold resumeWorkspace
  split
  · unfold activate
    dsimp only
    split
    · exact .goto rfl
    split
    · exact .goto rfl
    · exact .goto rfl
  · exact .goto rfl
  · unfold openEach
    split
    · exact .done
    · exact .call rfl rfl
  · unfold openDocument
    split
    · exact .done
    split
    · exact .done
    · exact .goto rfl
  · exact .goto rfl
  · exact starts _ _ _
  · exact starts _ _ _
  · exact starts _ _ _
  · unfold deactivate
    split <;> exact .goto rfl
  · exact .goto rfl
  · unfold closeEach
    split
    · exact .call rfl rfl
    · dsimp only
      split <;> exact .goto rfl
  · exact .goto rfl
  · unfold changeFolders
    split
    · dsimp only
      split
      · exact .call rfl rfl
      · exact .goto rfl
    · exact .done
  · exact .call rfl rfl
  · unfold showView
    split
    · exact .done
    · dsimp only
      split
      · exact .done
      · exact .done
      · exact .goto rfl
  · exact .goto rfl
  · exact .call rfl rfl
  · exact .done
  · unfold clickStatus
    dsimp only
    split
    · exact .done
    · exact .done
    · exact .goto rfl
  · exact .goto rfl
  · unfold reportEach
    split
    · exact .done
    split
    · exact .done
    split
    · exact .call rfl rfl
    · exact .goto rfl
  · exact .call rfl rfl
  · exact .call rfl rfl
  · split
    · exact .call rfl rfl
    · exact .goto rfl
  · exact .goto rfl
  · exact .goto rfl
  · exact .call rfl rfl
  · exact .call rfl rfl
  · exact .call rfl rfl
  · exact .done
  · exact .done
  · exact absurd rfl (other _)
  · unfold forwarded
    split
    · exact .done
    · split <;> exact .done
  · exact .done

/-- Only a request that a snapshot is taken from goes on at the bridge: it forwards that to the active
session. -/
theorem bridge_source (hg : g ∈ (w.resume t f o).1.frames) (bridge : g.isBridge = true) :
    ∃ request p s r, f = .workspace (.receive request) ∧ g = .workspace (.forwarded p) ∧ o = .ok r ∧
      Takes w.bridge.bodyLimit request p ∧ w.active? = some s ∧
      (w.resume t f o).1 =
        .call (.session s (.notify updateDataModel p.params)) (.workspace (.forwarded p)) := by
  have never {flow : Flow Frame Result} (silent : Silent flow) (hg : g ∈ flow.frames) : False := by
    rw [silent g hg] at bridge
    cases bridge
  cases f with
  | wait q => exact (never (.of_leads (resumeWait_leads q o) rfl) hg).elim
  | pass => cases hg
  | connection k q => exact (never (.of_leads (resumeConnection_leads (t := t) k q o) rfl) hg).elim
  | session s q => exact (never (silent_session s q o w) hg).elim
  | relay r q => exact (never (silent_relay r q o w) hg).elim
  | roster q => exact (never (silent_roster q o w) hg).elim
  | workspace q =>
    by_cases receives : ∃ request, q = .receive request
    · obtain ⟨request, rfl⟩ := receives
      cases o with
      | error e => cases hg
      | ok r =>
        rcases receive_cases request w with ⟨o', after, done, -⟩ | ⟨p, s, takes, active, calls⟩
        · have done : (w.resume t (.workspace (.receive request)) (.ok r)).1 = .done o' :=
            congrArg Prod.fst done
          rw [done] at hg
          cases hg
        · have calls : (w.resume t (.workspace (.receive request)) (.ok r)).1 =
              .call (.session s (.notify updateDataModel p.params)) (.workspace (.forwarded p)) :=
            congrArg Prod.fst calls
          rw [calls] at hg
          rcases List.mem_cons.1 hg with rfl | hg
          · cases bridge
          · exact ⟨request, p, s, r, rfl, List.mem_singleton.1 hg, rfl, takes, active, calls⟩
    · exact (never (silent_workspace q o w fun request same => receives ⟨request, same⟩) hg).elim

theorem Change.begun_silent {begun : List Frame} {x : Core} (h : Change w f o begun flow x) (g : Frame)
    (hg : g ∈ begun) : g.isBridge = false := by
  rcases h.begun_cases hg with errand | ⟨s, grace, rfl⟩ | ⟨s, limit, rfl⟩
  · exact Frame.isBridge_of_errand errand
  · rfl
  · rfl

section Whereabouts

variable {may : Frame → Prop} {R : CellId → Prop} {s : SessionId} {n : String × Value}

/-- What has become of a notification that a session was given before it was ready. -/
inductive Whereabouts (w : World) (s : SessionId) (n : String × Value) : Prop
  | kept (early : (w.session s).state.buffers = true) (kept : n ∈ (w.session s).outbox)
  | reached {b : BackendId} (reached : w.core.Reached b (Connection.notification n.1 n.2))
  | stopped (stopped : (w.session s).state = .stopped)
  | lost {k : ConnectionId} (connected : (w.session s).connection = some k)
    (closed : (w.connection k).closed = true)

theorem Move.still_stopped (m : Move may R w w') (stopped : (w.session s).state = .stopped) :
    (w'.session s).state = .stopped := by
  rw [← state_core] at stopped ⊢
  rcases m.session_cases s with same | ⟨t, f, o, rest, begun, flow, w₂, strides, shifts⟩ | ⟨rfl, root, made⟩
  · rwa [same]
  · generalize w'.core.session s = x at shifts
    cases shifts with
    | starts fresh =>
      rw [state_core, fresh] at stopped
      cases stopped
    | readies starting =>
      rw [state_core, starting] at stopped
      cases stopped
    | fails | stops | loses => rfl
    | _ => exact stopped
  · rw [state_core, session, List.getD_eq_getElem?_getD, List.getElem?_eq_none (Nat.le_refl _)] at stopped
    cases stopped

/-- A session that has a connection keeps it. -/
theorem Wired.still_connected (h : w.Wired) (m : Move may R w w') {k : ConnectionId}
    (connected : (w.session s).connection = some k) : (w'.session s).connection = some k := by
  rcases m.process_cases s with ⟨-, same⟩ | ⟨t, b, o, rest, begun, flow, w₂, strides, -⟩
  · exact same.trans connected
  · have none := (h.fresh t s b (strides.top ▸ List.mem_cons_self)).2.1
    rw [(h.leads s k connected).2] at none
    cases none

/-- Once a session is ready, what it has kept has reached its backend. -/
theorem Change.flushed {k : ConnectionId} {r : Result} {begun : List Frame} {x : Core}
    (h : Change w (.session s .initializedSent) (.ok r) begun
      (.call (.connection k .drain) (.session s .flushed)) x)
    (inside : (w.connection k).backend < w.backends.length) (kept : n ∈ (w.session s).outbox) :
    x.Reached (w.connection k).backend (Connection.notification n.1 n.2) := by
  cases h with
  | quiet frames => cases (frames (.session s .flushed) (by simp [Flow.frames])).plain
  | closing closes => cases closes
  | readies starting connected sound sends =>
    have count : w.core.inboxes.length = w.backends.length := List.length_map _
    have sent := Core.reached_sends sends (count ▸ inside) _ (List.mem_map_of_mem kept)
    exact sent

theorem Whereabouts.move (h : w.Whereabouts s n) (wired : w.Wired) (m : Move may R w w') :
    w'.Whereabouts s n := by
  cases h with
  | reached reached => exact .reached (m.feeds _ _ reached)
  | stopped stopped => exact .stopped (m.still_stopped stopped)
  | lost connected closed =>
    exact .lost (wired.still_connected m connected) (m.still_closed closed)
  | kept early kept =>
    rw [← state_core] at early
    rw [← outbox_core] at kept
    have still (early : (w'.core.session s).state.buffers = true) (kept : n ∈ (w'.core.session s).outbox) :
        w'.Whereabouts s n := by
      rw [state_core] at early
      rw [outbox_core] at kept
      exact .kept early kept
    rcases m.session_cases s with same | ⟨t, f, o, rest, begun, flow, w₂, strides, shifts⟩ | ⟨rfl, -⟩
    · rw [same] at still
      exact still early kept
    · have change := strides.turn.change
      have landed : w'.core = w₂.core := strides.lands.aside.core
      generalize same : w'.core.session s = x at shifts still
      cases shifts with
      | same | shuts | arrives | connects | abandons | joins => exact still early kept
      | starts => exact still rfl kept
      | fails | stops | loses =>
        refine .stopped ?_
        rw [← state_core, same]
        rfl
      | buffers =>
        rw [outbox_core] at kept
        exact still early (List.mem_append_left _ kept)
      | drops connected dead =>
        exact .lost (wired.still_connected m connected) (m.still_closed dead)
      | readies starting connected =>
        rw [outbox_core] at kept
        have reached := change.flushed (wired.there s _ (wired.leads s _ connected).2) kept
        exact .reached (landed.symm ▸ reached)
    · rw [outbox_core, session, List.getD_eq_getElem?_getD, List.getElem?_eq_none (Nat.le_refl _)] at kept
      cases kept

end Whereabouts

/-- A backend has got a snapshot, or a session has been given it before it was ready. -/
def Handed (w : World) (p : Bridge.Payload) : Prop :=
  (∃ b, Connection.notification updateDataModel p.params ∈ (w.backend b).received) ∨
    ∃ s, w.Whereabouts s (updateDataModel, p.params)

/-- How far the forward of a snapshot has come, from the session to its connection and back. -/
inductive Carries (w : World) (t : TaskId) (p : Bridge.Payload) : Prop
  | given {s : SessionId} {r : Result} (stack : w.stack t =
      [.session s (.notify updateDataModel p.params), .workspace (.forwarded p)])
    (runs : w.current = some (t, .ok r)) (inside : s < w.sessions.length)
  | told {s : SessionId} {k : ConnectionId} {r : Result} (stack : w.stack t =
      [.connection k (.notify updateDataModel p.params), .session s (.notified updateDataModel),
        .workspace (.forwarded p)])
    (runs : w.current = some (t, .ok r)) (inside : k < w.connections.length)
    (there : (w.connection k).backend < w.backends.length)
  | written {s : SessionId} {k : ConnectionId} {q : Connection.Stage} (stack : w.stack t =
      [.connection k q, .session s (.notified updateDataModel), .workspace (.forwarded p)])
    (drains : q = .drain ∨ q = .drained) (inside : k < w.connections.length)
    (reached : w.core.Reached (w.connection k).backend (Connection.notification updateDataModel p.params))
  | heard {s : SessionId} {o : Outcome Result} (stack : w.stack t =
      [.session s (.notified updateDataModel), .workspace (.forwarded p)])
    (runs : w.current = some (t, o)) (good : ∀ r, o = .ok r → w.Handed p)
  | back {o : Outcome Result} (stack : w.stack t = [.workspace (.forwarded p)])
    (runs : w.current = some (t, o)) (good : ∀ r, o = .ok r → w.Handed p)

section Move

variable {R : CellId → Prop} {m : Moment} {s : SessionId} {k : ConnectionId}
variable (wired : m.world.Wired) (sound : m.world.Sound) (moves : Moves m.Begins R m.world w')

include wired moves in
theorem Handed.move (h : m.world.Handed p) : w'.Handed p := by
  rcases h with ⟨b, received⟩ | ⟨s, where_⟩
  · obtain ⟨sent, more, -⟩ := moves.move.delivers b
    rw [inbox_core, inbox_core] at more
    refine .inl ⟨b, ?_⟩
    show _ ∈ (w'.backend b).inbox.received
    rw [more]
    exact List.mem_append_left _ received
  · exact .inr ⟨s, where_.move wired moves.move⟩

/-- A session keeps a notification until it is ready, has it written once it is, and refuses it after that. -/
theorem notifySession_cases (s : SessionId) (method : String) (params : Value) (w : World) :
    ((w.session s).state.buffers = true ∧ w.notifySession s method params =
        (w.setSession s fun x => { x with outbox := x.outbox ++ [(method, params)] }).finish) ∨
      (∃ k, (w.session s).connection = some k ∧ w.notifySession s method params =
        (.call (.connection k (.notify method params)) (.session s (.notified method)), w)) ∨
      ∃ e, w.notifySession s method params = w.fail e := by
  unfold notifySession
  dsimp only
  split
  · next early => exact .inl ⟨early, rfl⟩
  · split
    · next connected => exact .inr (.inl ⟨_, connected, rfl⟩)
    · exact .inr (.inr ⟨_, rfl⟩)

include wired sound moves in
theorem Carries.given_on {r : Result} (stack : m.world.stack t =
      [.session s (.notify updateDataModel p.params), .workspace (.forwarded p)])
    (runs : m.world.current = some (t, .ok r)) (inside : s < m.world.sessions.length) :
    w'.Carries t p := by
  have runs : m.Runs t (.session s (.notify updateDataModel p.params)) (.ok r) _ := ⟨runs, stack⟩
  obtain ⟨begun, flow, w₂, strides⟩ := sound.strides_of_runs moves.move runs
  have after := (strides.turn.piles (sound.running strides.runs) strides.lands).1
  have next := strides.lands.next
  have steps : { m.world with current := none }.notifySession s updateDataModel p.params = (flow, w₂) :=
    strides.steps
  rcases notifySession_cases s updateDataModel p.params { m.world with current := none } with
    ⟨early, kept⟩ | ⟨k, connected, calls⟩ | ⟨e, refused⟩
  · cases steps.symm.trans kept
    refine .back after next.1 fun _ _ => .inr ⟨s, ?_⟩
    let keep (x : Session) : Session := { x with outbox := x.outbox ++ [(updateDataModel, p.params)] }
    have kept : w'.core = m.world.core.setSession s keep :=
      strides.lands.aside.core.trans (core_setSession_eq (f := keep) (g := keep) (fun _ => rfl) s _)
    have same : w'.core.session s = keep (m.world.core.session s) := by
      rw [kept]
      exact Core.session_setSession_self (length_core_sessions m.world ▸ inside) keep
    refine .kept ?_ ?_
    · rw [← state_core, same]
      exact (state_core s m.world).symm ▸ early
    · rw [← outbox_core, same]
      exact List.mem_append_right _ (List.mem_singleton_self _)
  · cases steps.symm.trans calls
    have ⟨known, process⟩ := wired.leads s k connected
    obtain ⟨-, connections, backends⟩ := moves.move.grown
    refine .told after next.1 (Nat.lt_of_lt_of_le known connections) ?_
    rw [moves.move.sink known]
    exact Nat.lt_of_lt_of_le (wired.there s _ process) backends
  · cases steps.symm.trans refused
    exact .back after next.1 nofun

include sound moves in
/-- What is written reaches the backend, unless its input is broken. -/
theorem Carries.told_on {r : Result} (stack : m.world.stack t =
      [.connection k (.notify updateDataModel p.params), .session s (.notified updateDataModel),
        .workspace (.forwarded p)])
    (runs : m.world.current = some (t, .ok r)) (inside : k < m.world.connections.length)
    (there : (m.world.connection k).backend < m.world.backends.length) : w'.Carries t p := by
  have runs : m.Runs t (.connection k (.notify updateDataModel p.params)) (.ok r) _ := ⟨runs, stack⟩
  obtain ⟨begun, flow, w₂, strides⟩ := sound.strides_of_runs moves.move runs
  have after := (strides.turn.piles (sound.running strides.runs) strides.lands).1
  have next := strides.lands.next
  obtain ⟨-, connections, -⟩ := moves.move.grown
  have steps : { m.world with current := none }.sendNotification k updateDataModel p.params = (flow, w₂) :=
    strides.steps
  unfold sendNotification at steps
  split at steps
  · cases steps
    exact .heard after next.1 nofun
  · cases steps
    refine .written after (.inl rfl) (Nat.lt_of_lt_of_le inside connections) ?_
    obtain ⟨-, last, sent⟩ := send_spec (A := .none) (R := R) (m.world.connection k).backend
      (Connection.notification updateDataModel p.params) { m.world with current := none }
    have count : m.world.core.inboxes.length = m.world.backends.length := List.length_map _
    rw [moves.move.sink inside, strides.lands.aside.core]
    exact sent ▸ Core.reached_send (count ▸ there) _ last

include wired sound moves in
/-- A forward that waits for what it writes to be taken fails if the input of the backend is broken. -/
theorem Carries.written_on {q : Connection.Stage} {o : Outcome Result} (stack : m.world.stack t =
      [.connection k q, .session s (.notified updateDataModel), .workspace (.forwarded p)])
    (runs : m.world.current = some (t, o)) (drains : q = .drain ∨ q = .drained)
    (inside : k < m.world.connections.length)
    (reached : m.world.core.Reached (m.world.connection k).backend
      (Connection.notification updateDataModel p.params)) : w'.Carries t p := by
  obtain ⟨after, next⟩ := sound.runs_on moves.move ⟨runs, stack⟩
  obtain ⟨-, connections, -⟩ := moves.move.grown
  have there : w'.core.Reached (w'.connection k).backend
      (Connection.notification updateDataModel p.params) := by
    rw [moves.move.sink inside]
    exact moves.move.feeds _ _ reached
  have inside := Nat.lt_of_lt_of_le inside connections
  cases o with
  | error e => rcases drains with rfl | rfl <;> exact .heard after next.1 nofun
  | ok r =>
    rcases drains with rfl | rfl
    · exact .written (after.trans (congrArg (· ++ _) (drain_frames k _))) (.inr rfl) inside there
    · rcases drained_cases k { m.world with current := none } with breaks | ⟨intact, done⟩
      · have same : ({ m.world with current := none }.resume t (.connection k .drained) (.ok r)).1 =
            .done (.error ({ m.world with current := none }.brokenPipe k)) := breaks
        rw [same] at after next
        exact .heard after next.1 nofun
      · have same : ({ m.world with current := none }.resume t (.connection k .drained) (.ok r)).1 =
            .done (.ok .nothing) := done
        rw [same] at after next
        have whole : (m.world.core.inbox (m.world.connection k).backend).broken = false :=
          (congrArg Inbox.broken (inbox_core _ m.world)).trans intact
        have received := reached.resolve_right (by simp [whole])
        rw [inbox_core] at received
        exact .heard after next.1 fun _ _ => Handed.move wired moves (.inl ⟨_, received⟩)

theorem notified_fails (s : SessionId) (method : String) (e : Failure) (w : World) :
    ∃ e', (w.resumeSession s (.notified method) (.error e)).1 = .done (.error e') := by
  cases e <;> exact ⟨_, rfl⟩

theorem forwarded_frames (p : Bridge.Payload) (o : Outcome Result) (w : World) :
    (w.forwarded p o).1.frames = [] := by
  unfold forwarded
  split
  · rfl
  · split <;> rfl

include wired sound moves in
/-- A forward goes on until it is heard of. -/
theorem Carries.next (h : m.world.Carries t p) : w'.stack t = [] ∨ w'.Carries t p := by
  have fate := sound.fate moves.move t
  cases h with
  | given stack runs inside => exact .inr (.given_on wired sound moves stack runs inside)
  | told stack runs inside there => exact .inr (.told_on sound moves stack runs inside there)
  | written stack drains inside reached =>
    obtain ⟨-, connections, -⟩ := moves.move.grown
    have later (same : w'.stack t = m.world.stack t) : w'.Carries t p := by
      refine .written (same.trans stack) drains (Nat.lt_of_lt_of_le inside connections) ?_
      rw [moves.move.sink inside]
      exact moves.move.feeds _ _ reached
    cases fate with
    | stays same | wakes _ same => exact .inr (later same)
    | ends ends => exact absurd (ends.2.symm.trans stack) (List.cons_ne_nil _ _).symm
    | begins new => exact absurd ((stack_of_le new).symm.trans stack) (List.cons_ne_nil _ _).symm
    | goes strides =>
      cases strides.top.symm.trans stack
      exact .inr (.written_on wired sound moves stack strides.runs drains inside reached)
  | @heard s o stack runs good =>
    obtain ⟨after, next⟩ := sound.runs_on moves.move ⟨runs, stack⟩
    right
    cases o with
    | ok r =>
      exact .back after next.1 fun _ _ => (good r rfl).move wired moves
    | error e =>
      obtain ⟨e', fails⟩ := notified_fails s updateDataModel e { m.world with current := none }
      have same : ({ m.world with current := none }.resume t (.session s (.notified updateDataModel))
          (.error e)).1 = .done (.error e') := fails
      rw [same] at after next
      exact .back after next.1 nofun
  | @back o stack runs =>
    obtain ⟨after, -⟩ := sound.runs_on moves.move ⟨runs, stack⟩
    exact .inl (after.trans (congrArg (· ++ _) (forwarded_frames p o _)))

end Move

/-- Where the task of a request stands, if that is at the bridge. -/
inductive Bridging (limit : Int) (ms : List Moment) (w : World) (t : TaskId) : Frame → Prop
  | receives {request : Bridge.Request} (called : Called ms t (.receive request))
    (stack : w.stack t = [.workspace (.receive request)]) :
    Bridging limit ms w t (.workspace (.receive request))
  | forwards {request : Bridge.Request} {p : Bridge.Payload} (called : Called ms t (.receive request))
    (takes : Takes limit request p) (carries : w.Carries t p) :
    Bridging limit ms w t (.workspace (.forwarded p))

/-- A snapshot has been posted, and given to a session. -/
structure Accepted (limit : Int) (ms : List Moment) (w : World) (p : Bridge.Payload) : Prop where
  posted : ∃ t request, Called ms t (.receive request) ∧ Takes limit request p
  handed : w.Handed p

/-- What is known of the bridge. -/
structure Bridged (limit : Int) (ms : List Moment) (w : World) : Prop where
  sound : w.Sound
  wired : w.Wired
  bodyLimit : w.bridge.bodyLimit = limit
  places : ∀ t, ∀ f ∈ w.stack t, f.isBridge = true → Bridging limit ms w t f
  slot : ∀ p, w.bridge.last = some p → Accepted limit ms w p

namespace Bridged

variable {R : CellId → Prop} {limit : Int} {ms : List Moment} {m : Moment}
variable (h : Bridged limit ms m.world) (goes : m.Goes w') (moves : Moves m.Begins R m.world w')

include h moves in
theorem still_bridging (old : Bridging limit ms m.world t f) (there : f ∈ w'.stack t)
    (same : w'.stack t = m.world.stack t ∨ f ∈ (m.world.stack t).tail) :
    Bridging limit (ms ++ [m]) w' t f := by
  cases old with
  | receives called stack =>
    rcases same with same | below
    · exact .receives (called.later m) (same.trans stack)
    · rw [stack] at below
      cases below
  | forwards called takes carries =>
    rcases carries.next h.wired h.sound moves with empty | carries
    · rw [empty] at there
      cases there
    · exact .forwards (called.later m) takes carries

include h goes moves in
theorem places_move : ∀ t, ∀ f ∈ w'.stack t, f.isBridge = true → Bridging limit (ms ++ [m]) w' t f := by
  intro t f hf bridge
  cases h.sound.fate moves.move t with
  | stays same | wakes _ same =>
    exact h.still_bridging moves (h.places t f (same ▸ hf) bridge) hf (.inl same)
  | ends _ stack =>
    rw [stack] at hf
    cases hf
  | begins new stack _ _ source =>
    rw [stack] at hf
    cases List.mem_singleton.1 hf
    rcases source with ⟨-, begins⟩ | ⟨u, f', o, rest, begun, flow, w₂, strides, found⟩
    · obtain ⟨c, act, rfl, task⟩ := goes.fresh begins new stack
      rcases Frame.isBridge_cases bridge with ⟨request, same⟩ | ⟨p, same⟩
      · rw [same] at stack ⊢
        have receives : c = .receive request := by cases c <;> cases same; rfl
        exact .receives (called_next.2 (.inr ⟨receives ▸ act, task⟩)) stack
      · cases c <;> cases same
    · have silent := strides.turn.change.begun_silent f (List.mem_of_getElem? found)
      rw [silent] at bridge
      cases bridge
  | @goes f' o rest begun flow w₂ strides stack =>
    rw [stack] at hf
    rcases List.mem_append.1 hf with new | below
    · have new : f ∈ ({ m.world with current := none }.resume t f' o).1.frames := strides.steps ▸ new
      obtain ⟨request, p, s, r, rfl, rfl, rfl, takes, active, calls⟩ := bridge_source new bridge
      cases h.places t _ (strides.top ▸ List.mem_cons_self) rfl with
      | receives called alone =>
        cases strides.top.symm.trans alone
        have flows : flow = .call _ _ := (congrArg Prod.fst strides.steps).symm.trans calls
        subst flows
        obtain ⟨key, running⟩ := active?_running active
        have inside : s < m.world.sessions.length := lt_of_running (mem_running.1 running).2
        obtain ⟨sessions, -⟩ := moves.move.grown
        have taken : Takes limit request p := h.bodyLimit ▸ takes
        exact .forwards (called.later m) taken
          (.given stack strides.lands.next.1 (Nat.lt_of_lt_of_le inside sessions))
    · have old : f ∈ m.world.stack t := strides.top ▸ List.mem_cons_of_mem _ below
      refine h.still_bridging moves (h.places t f old bridge) (stack ▸ hf) (.inr ?_)
      rw [strides.top]
      exact below

include h goes moves in
/-- What fills the slot has been posted and given to a session. -/
theorem slot_move : ∀ p, w'.bridge.last = some p → Accepted limit (ms ++ [m]) w' p := by
  obtain ⟨running, same⟩ := goes.tends moves
  intro p filled
  rw [same] at filled
  cases accepts : m.accepted? with
  | none =>
    rw [accepts] at filled
    obtain ⟨⟨t, request, called, takes⟩, handed⟩ := h.slot p filled
    exact ⟨⟨t, request, called.later m, takes⟩, handed.move h.wired moves⟩
  | some p' =>
    rw [accepts] at filled
    cases filled
    obtain ⟨t, r, rest, runs, top⟩ := Moment.accepted?_eq_some.1 accepts
    cases h.places t _ (top ▸ List.mem_cons_self) rfl with
    | forwards called takes carries =>
      refine ⟨⟨t, _, called.later m, takes⟩, Handed.move h.wired moves ?_⟩
      cases carries with
      | back _ runs' good =>
        cases runs.symm.trans runs'
        exact good r rfl
      | given stack | told stack | written stack | heard stack => cases top.symm.trans stack

include h goes in
theorem next (listens : ∀ a, m.act = some a → ∀ k owner, a ≠ .listen k owner)
    (starts : ∀ s, m.act ≠ some (.call (.startSession s))) : Bridged limit (ms ++ [m]) w' := by
  have moves := goes.kept h.sound listens
  have first (g : Frame) (begins : m.Begins g) : g.boots = false := by
    obtain ⟨c, act, rfl⟩ := begins
    cases c with
    | startSession s => exact absurd act (starts s)
    | _ => rfl
  obtain ⟨running, tended⟩ := goes.tends moves
  exact {
    sound := goes.sound h.sound listens
    wired := h.wired.move h.sound moves.move first
    bodyLimit := (congrArg Bridge.bodyLimit tended).trans h.bodyLimit
    places := h.places_move goes moves
    slot := h.slot_move goes moves }

end Bridged

section Start

variable {config : Config} {settings : Settings} {roots : List Root} {launcher : Roster.Launcher}
variable {ws : Workspace} {shell : Shell} {plans : List Backend.Plan} {ms : List Moment}

theorem Path.bridged (made : Workspace.make config settings roots launcher = .ok ws)
    (path : Path (start ws shell plans) ms w) (listens : ∀ a ∈ acts ms, ∀ k owner, a ≠ .listen k owner)
    (starts : ∀ a ∈ acts ms, ∀ s, a ≠ .call (.startSession s)) : Bridged ws.bridge.bodyLimit ms w := by
  obtain ⟨-, -, -, reports⟩ := Workspace.of_make made
  have unused : (start ws shell plans).Unused := unused_start reports
  refine path.keeps (I := fun ms w => (∀ a ∈ acts ms, ∀ k owner, a ≠ .listen k owner) →
    (∀ a ∈ acts ms, ∀ s, a ≠ .call (.startSession s)) → Bridged ws.bridge.bodyLimit ms w)
    (fun _ _ => ?_) (fun ms m w' _ ih goes listens starts => ?_) listens starts
  · refine ⟨unused.sound, unused.wired rfl, rfl, fun t f hf => ?_, fun p filled => ?_⟩
    · rw [unused.stack t] at hf
      cases hf
    · have empty : (start ws shell plans).bridge.last = none := Workspace.last_of_make made
      rw [empty] at filled
      cases filled
  · rw [acts_next] at listens starts
    exact (ih (fun a ha => listens a (List.mem_append_left _ ha))
      fun a ha => starts a (List.mem_append_left _ ha)).next goes
      (fun a act => listens a (List.mem_append_right _ (by simp [act])))
      fun s act => starts _ (List.mem_append_right _ (by simp [act])) s rfl

/-- Whatever is done, what the bridge shows has been posted, and a backend has got it, unless a session
keeps it until it is ready, or has kept it and been stopped, or lost its connection. -/
theorem slot_handed (made : Workspace.make config settings roots launcher = .ok ws)
    (path : Path (start ws shell plans) ms w) (listens : ∀ a ∈ acts ms, ∀ k owner, a ≠ .listen k owner)
    (starts : ∀ a ∈ acts ms, ∀ s, a ≠ .call (.startSession s)) (filled : w.bridge.last = some p) :
    Accepted ws.bridge.bodyLimit ms w p :=
  (path.bridged made listens starts).slot p filled

/-- A snapshot is posted to a bridge with a session that is ready, and shown after that. -/
theorem posted_handed : ∃ ws, Workspace.make .standard .empty [] .stub = .ok ws ∧
    let first := start ws default [.standard]
    ∃ ms w, Path first ms w ∧ w.bridge.last = some ⟨.text "X", none⟩ ∧
      Accepted ws.bridge.bodyLimit ms w ⟨.text "X", none⟩ := by
  let body : List Char := "\x7b\"DataModel\": \"X\"\x7d".toList
  let request : Bridge.Request := ⟨"POST", "/update", [], body.map fun c => UInt8.ofNat c.toNat⟩
  have made : Workspace.make .standard .empty [] .stub = .ok _ := rfl
  refine ⟨_, made, ?_⟩
  intro first
  have run : Run first [.call (.ensure none), .call (.receive request)]
      ((((first.take (.call (.ensure none))).settle 60).take (.call (.receive request))).settle 20) :=
    (((Run.first.take rfl _).settle 60).take (by decide +kernel) _).settle 20
  obtain ⟨ms, path, done⟩ := run_iff_path.1 run
  refine ⟨ms, _, path, by decide +kernel, ?_⟩
  refine slot_handed made path (fun a ha => ?_) (fun a ha => ?_) (by decide +kernel)
  · rw [done] at ha
    rcases List.mem_pair.1 ha with rfl | rfl <;> exact fun _ _ => nofun
  · rw [done] at ha
    rcases List.mem_pair.1 ha with rfl | rfl <;> exact fun _ => nofun

end Start

end World
end LanguageClient
