import LanguageClient.Proofs.World.Connection
import LanguageClient.Session.Run

/-!
The steps of a session: its start, its stop, its end, and the steps of those who use it.
-/

namespace LanguageClient.World

open Schedule

variable {A : Licence} {R : CellId → Prop} {begun : List Frame}
variable {w w' : World} {f : Frame} {o : Outcome Result}

theorem setSession_congr {s : SessionId} {f g : Session → Session} {w : World}
    (h : f (w.session s) = g (w.session s)) : w.setSession s f = w.setSession s g := by
  have same : w.sessions.modify s f = w.sessions.modify s g := by
    refine modify_congr fun x found => ?_
    have known : w.session s = x := by
      rw [World.session, List.getD_eq_getElem?_getD, found]
      rfl
    rwa [known] at h
  rw [setSession, setSession, same]

theorem yields_path (uri : String) : Yields (fun _ => True) (Uri.path uri) := by
  have after (cs : List Char) : Yields (fun _ => True) (Uri.afterAuthority cs) := by
    unfold Uri.afterAuthority
    split
    · dsimp only
      split
      · trivial
      · exact calm_error (by simp)
    · trivial
  have told := after (Uri.splitScheme (Uri.clean uri.toList)).2
  unfold Uri.path
  dsimp only
  cases h : Uri.afterAuthority (Uri.splitScheme (Uri.clean uri.toList)).2 with
  | error e =>
    rw [h] at told
    exact told
  | ok rest =>
    simp only [bind, Except.bind]
    split <;> trivial

theorem yields_map {α β : Type} {good : β → Prop} {f : α → β} {x : Except Failure α}
    (h : Yields (fun a => good (f a)) x) : Yields good (x.map f) := by
  cases x with
  | ok a => exact h
  | error e => exact h

theorem yields_startFolder (x : Session) : Yields (fun _ => True) (startFolder x) := by
  unfold startFolder
  split
  · trivial
  · next r _ => exact yields_map (yields_path r.uri)

theorem yields_initializeParams (x : Session) : Yields (fun _ => True) x.initializeParams := by
  unfold Session.initializeParams Session.path
  cases x.root with
  | none => trivial
  | some r =>
    have told := yields_path r.uri
    cases h : Uri.path r.uri with
    | error e =>
      rw [h] at told
      simp only [Root.path, h]
      exact told
    | ok path =>
      simp only [Root.path, h]
      trivial

theorem initializeParams_of_root {x y : Session} (h : y.root = x.root) :
    y.initializeParams = x.initializeParams := by
  simp only [Session.initializeParams, Session.path, h]

theorem failStart_spec (s : SessionId) (w : World) :
    Keeps A R [] w (w.failStart s) ∧
      (w.failStart s).core = w.core.setSession s Session.spent := by
  have moved : Keeps A R [] w
      (w.setSession s fun x => { x.moveToStopped with outbox := [] }) := by
    refine (Keeps.refl w).noteSession s fun _ => ?_
    exact ⟨rfl, rfl⟩
  have core : (w.setSession s fun x => { x.moveToStopped with outbox := [] }).core =
      w.core.setSession s fun x => { x.moveToStopped with outbox := [] } :=
    core_setSession_eq (fun _ => by rfl) s w
  obtain ⟨closed, core'⟩ := closeBus_spec (A := A) (R := R) s
    (w.setSession s fun x => { x.moveToStopped with outbox := [] })
  refine ⟨moved.trans closed, core'.trans ?_⟩
  rw [core, Core.setSession, Core.setSession, List.modify_modify_eq]
  rfl

theorem fails_turn {s : SessionId} {p : Session.Stage} {r : Result} (reason : String)
    (start : p.starts = true) (kept : Keeps (w.Answers (.session s p)) R [] w w')
    (core : w'.core.setSession s Session.spent = w.core.setSession s Session.spent) :
    Turn R w (.session s p) (.ok r) [] ((w'.failStart s).fail (w'.launchFailure s reason)) := by
  obtain ⟨failed, core'⟩ := failStart_spec (A := w.Answers (.session s p))
    (R := R) s w'
  exact .shows (kept.trans failed) (core'.trans core) (.fails start) (fun _ _ => by simp)
    fun _ hg => nomatch hg

theorem startSession_turn (s : SessionId) (r : Result) (w : World) :
    Turn R w (.session s .start) (.ok r) [] (w.startSession s) := by
  unfold startSession
  split
  · next e refused =>
    refine .fail (.refl w) fun _ => calm_error ?_
    rw [Session.move] at refused
    split at refused
    · cases refused
    · cases refused
      simp
  · next session moved =>
    obtain ⟨fresh, rfl⟩ : (w.session s).state = .unstarted ∧
        session = { w.session s with state := .starting } := by
      rw [Session.move] at moved
      split at moved
      · next allowed =>
        cases moved
        refine ⟨?_, rfl⟩
        cases state : (w.session s).state with
        | unstarted => rfl
        | _ =>
          rw [state] at allowed
          cases allowed
      · cases moved
    have begun : w.setSession s (fun _ => { w.session s with state := .starting }) =
        w.setSession s fun x => { x with state := .starting } := setSession_congr rfl
    rw [begun]
    have kept : Keeps (w.Answers (.session s .start)) R [] w
        (w.setSession s fun x => { x with state := .starting }) := by
      refine (Keeps.refl w).noteSession s fun _ => ?_
      exact ⟨rfl, rfl⟩
    have core : (w.setSession s fun x => { x with state := .starting }).core =
        w.core.setSession s fun x => { x with state := .starting } :=
      core_setSession_eq (fun _ => by rfl) s w
    have told := yields_startFolder { w.session s with state := .starting }
    dsimp only
    split
    · next e failed =>
      rw [failed] at told
      exact .shows kept core (.stumbles fresh told) (fun _ _ => by simp) (by simp [Flow.frames])
    · next folder _ =>
      split
      · refine fails_turn _ rfl kept ?_
        rw [core, Core.setSession, Core.setSession, List.modify_modify_eq]
        rfl
      · obtain ⟨named, asked, core'⟩ := requestBackend_spec
          (A := w.Answers (.session s .start)) (R := R) (w.session s).command folder
          (w.setSession s fun x => { x with state := .starting })
        rw [core] at core'
        have kept' := kept.trans asked
        split
        · exact .shows kept' core' (.launches fresh (.inl rfl)) (fun _ _ => by simp)
            (List.forall_mem_singleton.2 rfl)
        · obtain ⟨slept, made⟩ := quiet_sleep (A := w.Answers (.session s .start))
            (R := R) rfl _ ((w.setSession s fun x => { x with state := .starting }).requestBackend
              (w.session s).command folder).2
          refine ⟨kept'.trans slept.keeps, ⟨?_, ?_⟩, ?_⟩
          · intro c g same
            cases same
            exact .inr (.inr
              ⟨Nat.le_trans kept'.ops.length_cells made.new, made.inside, made.members⟩)
          · exact List.forall_mem_singleton.2 (by simp [Frame.names])
          · refine Eq.subst (motive := fun x => Change w _ _ _ _ x)
              (slept.core.trans core').symm ?_
            exact .launches fresh (.inr ⟨_, rfl⟩)

/-- A new connection to a backend, and a task that reads from it. -/
theorem connect_spec (s : SessionId) (b : BackendId) (w : World) :
    (w.connect s b).1 = w.connections.length ∧
      Keeps A R [.connection w.connections.length (.read .start)] w (w.connect s b).2 ∧
      (w.connect s b).2.core =
        { w.core.setSession s fun x => { x with connection := some w.connections.length } with
          connections := w.core.connections ++
            [Connection.opened b s w.loop.tasks.length] } := by
  let x := Connection.make ("backend:" ++ (w.session s).key) b (.session s) (w.session s).timeout
    [("workspace/configuration", .configuration)]
  let added := (w.addConnection x).2
  have made : Keeps A R [] w added := by
    refine (Keeps.refl w).extend rfl rfl rfl (fun _ => .inl rfl) (fun _ => .inl rfl) ?_
      (fun _ => .inl rfl)
    intro k
    refine (getD_concat w.connections x default k).imp_right ?_
    rintro ⟨-, fresh⟩
    exact ⟨congrArg Connection.pending fresh, congrArg Connection.reader fresh,
      congrArg Connection.answers fresh⟩
  let reading := (added.spawn (.connection w.connections.length (.read .start))).2
  have begun : Keeps A R [.connection w.connections.length (.read .start)] w reading :=
    made.spawn _
  have known : Keeps A R [.connection w.connections.length (.read .start)] w
      (reading.setConnection w.connections.length fun x =>
        { x with reader := some w.loop.tasks.length }) := by
    refine begun.setConnection _ (fun _ _ hp => .inl hp) ?_ (fun _ _ ht => .inl ht)
    intro x t ht
    cases ht
    exact .inr (.only (fun _ => rfl) rfl)
  refine ⟨rfl, known.noteSession s fun _ => ?_, ?_⟩
  · exact ⟨rfl, rfl⟩
  · have first : (reading.setConnection w.connections.length fun x =>
        { x with reader := some w.loop.tasks.length }).core =
        { w.core with connections := w.core.connections ++
          [Connection.opened b s w.loop.tasks.length] } := by
      refine (core_setConnection_eq (g := fun y => { y with reader := some w.loop.tasks.length })
        (fun _ => by rfl) _ reading).trans ?_
      rw [show reading.core = added.core from rfl, core_addConnection, Core.setConnection]
      have count : w.core.connections.length = w.connections.length := List.length_map _
      dsimp only
      rw [← count, modify_concat]
      rfl
    have second := core_setSession_eq
      (f := fun x : Session => { x with connection := some w.connections.length })
      (g := fun x => { x with connection := some w.connections.length }) (fun _ => rfl) s
      (reading.setConnection w.connections.length fun x =>
        { x with reader := some w.loop.tasks.length })
    exact second.trans (congrArg (Core.setSession s _) first)

theorem launched_turn (s : SessionId) (b : BackendId) (r : Result) (w : World) :
    ∃ begun, Turn R w (.session s (.launched b)) (.ok r) begun (w.launched s b) := by
  unfold launched
  split
  · next reason _ => exact ⟨[], fails_turn reason rfl (.refl w) rfl⟩
  · let arrived := (w.beginBackend b).setSession s fun x => { x with backend := some b }
    have kept : Keeps (w.Answers (.session s (.launched b))) R [] w arrived := by
      refine (beginBackend_spec b w).1.noteSession s fun _ => ?_
      exact ⟨rfl, rfl⟩
    have core : arrived.core =
        (w.core.spawn b).setSession s fun x => { x with backend := some b } := by
      rw [← (beginBackend_spec (A := .none) (R := fun _ => False) b w).2]
      exact core_setSession_eq (fun _ => by rfl) s _
    have session : (arrived.session s).stopping = (w.session s).stopping ∧
        (arrived.session s).root = (w.session s).root := by
      rcases session_setSession s s (fun x => { x with backend := some b }) (w.beginBackend b) with
        same | ⟨-, same⟩
      · exact ⟨congrArg Session.stopping same, congrArg Session.root same⟩
      · have stopping := congrArg Session.stopping same
        have root := congrArg Session.root same
        exact ⟨stopping, root⟩
    dsimp only
    cases stopping : (w.session s).stopping with
    | true =>
      rw [if_pos (session.1.trans stopping)]
      exact ⟨[], .shows kept core (.arrives stopping) (fun _ _ => by simp)
        (List.forall_mem_singleton.2 rfl)⟩
    | false =>
      rw [if_neg (by rw [session.1, stopping]; simp)]
      obtain ⟨named, connected, core'⟩ := connect_spec
        (A := w.Answers (.session s (.launched b))) (R := R) s b arrived
      have shown : (arrived.connect s b).2.core = { (w.core.spawn b).setSession s fun x =>
          { x with backend := some b, connection := some w.connections.length } with
        connections := w.core.connections ++ [Connection.opened b s w.loop.tasks.length] } := by
        rw [core', core, Core.setSession, Core.setSession, List.modify_modify_eq]
        rfl
      have root : ((arrived.connect s b).2.session s).root = (w.session s).root := by
        have same := session_core s (arrived.connect s b).2
        have before := congrArg Session.root (session_core s w)
        rw [shown] at same
        rcases getD_modify s s (fun x : Session =>
          { x with backend := some b, connection := some w.connections.length }) w.core.sessions
          (Session.core default) with kept | ⟨-, kept⟩
        · have known := congrArg Session.root (same.symm.trans kept)
          exact known.trans before
        · have known := congrArg Session.root (same.symm.trans kept)
          exact known.trans before
      have told := yields_initializeParams (w.session s)
      rw [initializeParams_of_root root]
      split
      · next e failed =>
        rw [failed] at told
        exact ⟨_, .shows (kept.trans connected) shown
          (.connects stopping (.inr ⟨e, rfl, told⟩)) (fun _ _ => by simp) (by simp [Flow.frames])⟩
      · next params known =>
        exact ⟨_, .shows (kept.trans connected) shown
          (.connects stopping (.inl ⟨params, _, known, rfl⟩)) (fun _ _ => by simp)
          (List.forall_mem_cons.2 ⟨rfl, List.forall_mem_singleton.2 rfl⟩)⟩

/-- A call of a session's connection, or what comes after it if there is none. -/
theorem callConnection_cases (s : SessionId) (p : Connection.Stage) (next : Session.Stage)
    (w : World) :
    (∃ k, (w.session s).connection = some k ∧
      w.callConnection s p next = (.call (.connection k p) (.session s next), w)) ∨
    (w.session s).connection = none ∧
      w.callConnection s p next = (.goto (.session s next), w) := by
  unfold callConnection
  cases h : (w.session s).connection with
  | some k => exact .inl ⟨k, rfl, rfl⟩
  | none => exact .inr ⟨rfl, rfl⟩

theorem greets_turn (s : SessionId) (r : Result) (w : World) :
    Turn R w (.session s .initializeAnswered) (.ok r) []
      (w.callConnection s (.notify "initialized" (.map [])) .initializedSent) := by
  rcases callConnection_cases s (.notify "initialized" (.map [])) .initializedSent w with
    ⟨k, connected, same⟩ | ⟨alone, same⟩
  · rw [same]
    exact .shows (.refl w) rfl (.greets (.inl ⟨k, connected, rfl⟩)) (fun _ _ => by simp)
      (List.forall_mem_cons.2 ⟨rfl, List.forall_mem_singleton.2 rfl⟩)
  · rw [same]
    exact .shows (.refl w) rfl (.greets (.inr ⟨alone, rfl⟩)) (fun _ _ => by simp)
      (List.forall_mem_singleton.2 rfl)

theorem dismisses_turn (s : SessionId) (timeout : Timeout) (r : Result) (w : World) :
    Turn R w (.session s (.shutdownAnswered timeout)) (.ok r) []
      (w.callConnection s (.notify "exit" .null) (.exitSent timeout)) := by
  rcases callConnection_cases s (.notify "exit" .null) (.exitSent timeout) w with
    ⟨k, connected, same⟩ | ⟨alone, same⟩
  · rw [same]
    exact .shows (.refl w) rfl (.dismisses (.inl ⟨k, connected, rfl⟩)) (fun _ _ => by simp)
      (List.forall_mem_cons.2 ⟨rfl, List.forall_mem_singleton.2 rfl⟩)
  · rw [same]
    exact .shows (.refl w) rfl (.dismisses (.inr ⟨alone, rfl⟩)) (fun _ _ => by simp)
      (List.forall_mem_singleton.2 rfl)

theorem abandon_turn {s : SessionId} {p : Session.Stage} (e : Failure)
    (start : p = .initializeAnswered ∨ p = .initializedSent) (w : World) :
    Turn R w (.session s p) (.error e) [] (w.abandon s e) := by
  unfold abandon
  split
  · exact .fail_on w
  · split
    · exact .finish (.refl w)
    · next going =>
      have kept : Keeps (w.Answers (.session s p)) R [] w
          (w.setSession s fun x => { x with stopping := true }) := by
        refine (Keeps.refl w).noteSession s fun _ => ?_
        exact ⟨rfl, rfl⟩
      exact .shows kept (core_setSession_eq (fun _ => by rfl) s w)
        (.abandons start (Bool.eq_false_iff.2 going)) (fun _ _ => by simp)
        (List.forall_mem_cons.2 ⟨rfl, List.forall_mem_singleton.2 rfl⟩)

theorem writes_spec (k : ConnectionId) (kept : List (String × Value)) (w : World) :
    Keeps A R [] w (kept.foldl
      (fun w (method, params) => w.write k (Connection.notification method params)) w) ∧
    Sends (w.connection k).backend (kept.map fun n => Connection.notification n.1 n.2) w.core
      (kept.foldl
        (fun w (method, params) => w.write k (Connection.notification method params)) w).core := by
  induction kept generalizing w with
  | nil => exact ⟨.refl w, .nil w.core⟩
  | cons n rest ih =>
    obtain ⟨written, last, core⟩ := send_spec (A := A) (R := R)
      (w.connection k).backend (Connection.notification n.1 n.2) w
    obtain ⟨kept, sends⟩ := ih (w.write k (Connection.notification n.1 n.2))
    have backend : ((w.write k (Connection.notification n.1 n.2)).connection k).backend =
        (w.connection k).backend := by
      have same := connection_core k (w.write k (Connection.notification n.1 n.2))
      rw [show (w.write k (Connection.notification n.1 n.2)).core = _ from core] at same
      have known := congrArg Connection.backend (same.symm.trans (connection_core k w))
      exact known
    rw [backend, show (w.write k (Connection.notification n.1 n.2)).core = _ from core] at sends
    exact ⟨written.trans kept, .cons last sends⟩

theorem flush_spec (s : SessionId) (k : ConnectionId) (w : World) :
    Keeps A R [] w (w.flush s k) ∧ ∃ x, Sends (w.connection k).backend
      ((w.session s).outbox.map fun n => Connection.notification n.1 n.2)
      (w.core.setSession s fun x => { x with outbox := [] }) x ∧
      (w.flush s k).core = x.setSession s fun x => { x with state := .ready } := by
  have cleared : Keeps A R [] w (w.setSession s fun x => { x with outbox := [] }) := by
    refine (Keeps.refl w).noteSession s fun _ => ?_
    exact ⟨rfl, rfl⟩
  obtain ⟨written, sends⟩ := writes_spec (A := A) (R := R) k
    (w.session s).outbox (w.setSession s fun x => { x with outbox := [] })
  rw [core_setSession_eq (g := fun x : Session => { x with outbox := [] }) (fun _ => by rfl)]
    at sends
  refine ⟨(cleared.trans written).noteSession s fun _ => ?_, _, sends, ?_⟩
  · exact ⟨rfl, rfl⟩
  · exact core_setSession_eq (fun _ => by rfl) s _

theorem completeStart_turn (s : SessionId) (r : Result) (w : World) :
    Turn R w (.session s .initializedSent) (.ok r) [] (w.completeStart s) := by
  unfold completeStart
  split
  · exact .finish (.refl w)
  · next starting =>
    let done := w.setSession s fun x => { x with started := true }
    have quiet : Quiet (w.Answers (.session s .initializedSent)) R [] w done := by
      refine .noteSession s (fun _ => ?_) (fun _ => ?_) w
      · rfl
      · exact ⟨rfl, rfl⟩
    have session : (done.session s).core = (w.session s).core := session_of_core quiet.core s
    have connection : (done.session s).connection = (w.session s).connection := by
      have known := congrArg Session.connection session
      exact known
    have outbox : (done.session s).outbox = (w.session s).outbox := by
      have known := congrArg Session.outbox session
      exact known
    dsimp only
    split
    · exact .finish quiet
    · next k connected =>
      have connected' : (w.session s).connection = some k := connection.symm.trans connected
      split
      · next dead =>
        have kept : Keeps (w.Answers (.session s .initializedSent)) R [] w
            (done.setSession s fun x => { x with outbox := [] }) := by
          refine quiet.keeps.noteSession s fun _ => ?_
          exact ⟨rfl, rfl⟩
        have core : (done.setSession s fun x => { x with outbox := [] }).core =
            w.core.setSession s fun x => { x with outbox := [] } := by
          rw [← quiet.core]
          exact core_setSession_eq (fun _ => by rfl) s done
        have closed : (w.connection k).closed = true := (Bool.and_eq_true_iff.1 dead).1
        exact .shows kept core (.drops connected' closed (calm_ended k _)) (fun _ _ => by simp)
          fun _ hg => nomatch hg
      · next sound =>
        obtain ⟨flushed, x, sends, core⟩ := flush_spec
          (A := w.Answers (.session s .initializedSent)) (R := R) s k done
        rw [outbox, quiet.core] at sends
        have state : (w.session s).state = .starting := Decidable.not_not.1 starting
        refine .shows (quiet.keeps.trans flushed) core (.readies state connected' ?_ sends)
          (fun _ _ => by simp) (List.forall_mem_cons.2 ⟨rfl, List.forall_mem_singleton.2 rfl⟩)
        intro closed
        cases kept : (w.session s).outbox with
        | nil => rfl
        | cons n rest =>
          refine absurd ?_ sound
          rw [outbox, kept]
          simp only [List.isEmpty_cons, Bool.not_false, Bool.and_true]
          exact closed

theorem notifySession_turn (s : SessionId) (method : String) (params : Value) (r : Result)
    (w : World) :
    Turn R w (.session s (.notify method params)) (.ok r) []
      (w.notifySession s method params) := by
  unfold notifySession
  dsimp only
  split
  · next early =>
    have kept : Keeps (w.Answers (.session s (.notify method params))) R [] w
        (w.setSession s fun x => { x with outbox := x.outbox ++ [(method, params)] }) := by
      refine (Keeps.refl w).noteSession s fun _ => ?_
      exact ⟨rfl, rfl⟩
    exact .shows kept (core_setSession_eq (fun _ => by rfl) s w) (.buffers early)
      (fun _ _ => by simp) fun _ hg => nomatch hg
  · split
    · next k ready connected =>
      exact .shows (.refl w) rfl (.tells ready connected) (fun _ _ => by simp)
        (List.forall_mem_cons.2 ⟨rfl, List.forall_mem_singleton.2 rfl⟩)
    · exact .fail (.refl w) fun _ => calm_error (by simp)

/-- A session that a stop has begun to stop. -/
def stopped (x : Session) : Session := { x.moveToStopped with outbox := [], stopping := true }

theorem stopSession_turn (s : SessionId) (timeout : Timeout) (r : Result) (w : World) :
    Turn R w (.session s (.stop timeout)) (.ok r) [] (w.stopSession s timeout) := by
  unfold stopSession
  dsimp only
  split
  · exact .finish (.refl w)
  · next going =>
    have idle : (w.session s).stopping = false := Bool.eq_false_iff.2 going
    let marked := w.setSession s fun x => { x with stopping := true }
    have kept : Keeps (w.Answers (.session s (.stop timeout))) R [] w marked := by
      refine (Keeps.refl w).noteSession s fun _ => ?_
      exact ⟨rfl, rfl⟩
    have core : marked.core = w.core.setSession s fun x => { x with stopping := true } :=
      core_setSession_eq (fun _ => by rfl) s w
    split
    · next t reaped =>
      refine ⟨kept, ⟨?_, ?_⟩, ?_⟩
      · intro c g same
        cases same
        exact .inr (.inl ⟨false, t, .reaper reaped, rfl⟩)
      · exact List.forall_mem_singleton.2 fun _ hc => nomatch hc
      · refine Eq.subst (motive := fun x => Change w _ _ _ _ x) core.symm ?_
        exact .joins idle reaped
    · next unreaped =>
      let moved := marked.setSession s fun x => { x.moveToStopped with outbox := [] }
      have kept' : Keeps (w.Answers (.session s (.stop timeout))) R [] w moved := by
        refine kept.noteSession s fun _ => ?_
        exact ⟨rfl, rfl⟩
      have core' : moved.core = w.core.setSession s stopped := by
        have second := core_setSession_eq
          (f := fun x : Session => { x.moveToStopped with outbox := [] })
          (g := fun x => { x.moveToStopped with outbox := [] }) (fun _ => rfl) s marked
        refine second.trans ?_
        rw [core, Core.setSession, Core.setSession, List.modify_modify_eq]
        rfl
      have goes (grace : Timeout) : Turn R w (.session s (.stop timeout)) (.ok r) []
          (moved.continueAt (.session s (.shutdown grace))) :=
        .shows kept' core' (.stops idle unreaped) (fun _ _ => by simp)
          (List.forall_mem_singleton.2 rfl)
      split
      · exact goes _
      · next ready =>
        have ready' : (w.session s).state = .ready := by simpa using ready
        split
        · next k connected =>
          split
          · exact goes _
          · next alive =>
            exact .shows kept' core' (.asks idle unreaped ready' connected
              (Bool.eq_false_iff.2 alive)) (fun _ _ => by simp)
              (List.forall_mem_cons.2 ⟨rfl, List.forall_mem_singleton.2 rfl⟩)
        · exact goes _

/-- A step towards the end of a process goes on at one place. -/
theorem closing_goto {s : SessionId} {p : Session.Stage} {q : Session.Stage}
    (closes : p.closes = true) (ends : q.ends = true)
    (h : Quiet (w.Answers (.session s p)) R [] w w') :
    Turn R w (.session s p) o [] (w'.continueAt (.session s q)) := by
  refine .shows h.keeps h.core (.closing closes ?_ ?_) (fun _ _ => by simp)
    (List.forall_mem_singleton.2 rfl)
  · exact List.forall_mem_singleton.2 (.stage ends)
  · exact fun _ _ same => nomatch same

theorem closing_done {s : SessionId} {p : Session.Stage} {o' : Outcome Result}
    (closes : p.closes = true) (calm : Calm o → Calm o')
    (h : Quiet (w.Answers (.session s p)) R [] w w') :
    Turn R w (.session s p) o [] (.done o', w') := by
  refine .shows h.keeps h.core (.closing closes (fun _ hg => nomatch hg) ?_) (fun _ _ => by simp)
    fun _ hg => nomatch hg
  intro calm' o'' same
  cases same
  exact calm calm'

theorem kind?_awaitExit (b : BackendId) (w : World) :
    (w.awaitExit b).2.loop.kind? w.loop.cells.length = some .plain := by
  unfold awaitExit
  dsimp only
  split
  · exact (Loop.kind?_settle _ _ _ _).trans (kind?_newCell w)
  · exact kind?_newCell w

theorem awaitProcess_turn {s : SessionId} {p next : Session.Stage} {timeout : Timeout}
    (closes : p.closes = true) (ends : next.ends = true)
    (h : Quiet (w.Answers (.session s p)) R [] w w')
    (offers : ∀ b, (w.session s).backend = some b → w.Offers (.session s p) (.exit b)) :
    Turn R w (.session s p) o [] (w'.awaitProcess s timeout next) := by
  unfold awaitProcess
  split
  · next b found =>
    split
    · exact closing_goto closes rfl h
    · have same := congrArg (Core.session s) h.core
      rw [session_core, session_core] at same
      have known : (w'.session s).core.backend = (w.session s).core.backend :=
        congrArg Session.backend same
      have waits : Quiet (w.Answers (.session s p)) R [] w (w'.awaitExit b).2 :=
        h.trans (quiet_awaitExit (offers b (known.symm.trans found)) w')
      refine ⟨waits.keeps, ⟨(fun _ _ same => nomatch same), ?_⟩, ?_⟩
      · refine List.forall_mem_cons.2 ⟨fun c hc => ?_, List.forall_mem_singleton.2
          fun _ hc => nomatch hc⟩
        rw [List.mem_singleton.1 hc]
        exact .inr ⟨h.keeps.ops.length_cells, kind?_awaitExit b w'⟩
      · refine Eq.subst (motive := fun x => Change w _ _ _ _ x) waits.core.symm ?_
        refine .closing closes ?_ fun _ _ same => nomatch same
        exact List.forall_mem_cons.2 ⟨.wait _, List.forall_mem_singleton.2 (.stage ends)⟩
  · exact closing_goto closes rfl h

theorem shutdown_turn (s : SessionId) (grace : Timeout) (w : World) :
    Turn R w (.session s (.shutdown grace)) o [] (w.shutdown s grace) := by
  unfold shutdown
  split
  · split
    · exact closing_goto rfl rfl (.refl w)
    · exact awaitProcess_turn rfl rfl (.refl w) fun b found => ⟨b, found, rfl⟩
  · exact closing_goto rfl rfl (.refl w)

theorem terminateSession_turn (s : SessionId) (w : World) :
    Turn R w (.session s .terminate) o [] (w.terminateSession s) := by
  unfold terminateSession
  split
  · next b _ =>
    have told := quiet_terminate (A := w.Answers (.session s .terminate)) (R := R)
      b w
    split
    · next w' same =>
      rw [same] at told
      exact awaitProcess_turn rfl rfl told fun b found => ⟨b, found, rfl⟩
    · next w' same =>
      rw [same] at told
      exact closing_goto rfl rfl told
  · exact closing_goto rfl rfl (.refl w)

theorem quiet_killSession (s : SessionId) (w : World) :
    Quiet A R [] w (w.killSession s) := by
  unfold killSession
  split
  · exact quiet_killBackend _ w
  · exact .refl w

theorem release_turn (s : SessionId) (r : Result) (w : World) :
    Turn R w (.session s .release) (.ok r) [] (w.callConnection s .close .released) := by
  rcases callConnection_cases s .close .released w with ⟨k, connected, same⟩ | ⟨-, same⟩
  · rw [same]
    refine .shows (.refl w) rfl (.closing rfl ?_ fun _ _ same => nomatch same) (fun _ _ => by simp)
      (List.forall_mem_cons.2 ⟨rfl, List.forall_mem_singleton.2 rfl⟩)
    exact List.forall_mem_cons.2 ⟨.close connected, List.forall_mem_singleton.2 (.stage rfl)⟩
  · rw [same]
    exact closing_goto rfl rfl (.refl w)

theorem follows_awoken (s : SessionId) (taker : Session.Consumer) (c : CellId) :
    (Frame.session s (.consume taker)).Follows (.session s (.consumeAwoken taker c)) := by
  refine ⟨⟨rfl, fun _ => rfl, fun s' k h => ?_⟩, fun _ _ takes => takes⟩
  cases taker with
  | relay r => exact h
  | recorder => exact h

theorem follows_consume {s : SessionId} {taker : Session.Consumer} {p : Session.Stage}
    (h : p = .consume taker ∨ ∃ c, p = .consumeAwoken taker c) :
    (Frame.session s p).Follows (.session s (.consume taker)) := by
  refine ⟨⟨rfl, fun _ => rfl, fun s' k local_ => ?_⟩, fun s' r takes => ?_⟩
  · rcases h with rfl | ⟨c, rfl⟩
    · exact local_
    · cases taker with
      | relay r => exact local_
      | recorder => exact local_
  · rcases h with rfl | ⟨c, rfl⟩ <;> exact takes

theorem follows_dispatch (s : SessionId) (r : RelayId) (e : Event) :
    (Frame.session s (.consume (.relay r))).Follows (.relay r (.dispatch e)) := by
  refine ⟨⟨rfl, fun _ => rfl, fun _ _ h => h⟩, fun s' r' takes => ?_⟩
  obtain rfl : r = r' := by simpa [Frame.takesFor] using takes
  simp [Frame.takesFor]

theorem takeEvent_turn (s : SessionId) (taker : Session.Consumer) (r : Result) (w : World) :
    Turn R w (.session s (.consume taker)) (.ok r) [] (w.takeEvent s taker) := by
  unfold takeEvent
  split
  · have queued : Quiet (w.Answers (.session s (.consume taker))) R [] w
        (w.newCell.2.setSession s fun x => { x with takers := x.takers ++ [w.loop.cells.length] }) := by
      refine ⟨(Keeps.refl w).newCell.setSession s ?_ (fun _ _ ht => .inl ht),
        core_setSession (fun _ => by rfl) s _⟩
      intro x c hc
      refine (List.mem_append.1 hc).imp_right fun new => ?_
      rw [List.mem_singleton.1 new]
      exact ⟨Keeps.fresh_newCell w, rfl⟩
    exact .await queued (.inr (.inr (made_of_plain (Nat.le_refl _) (kind?_newCell w))))
      (follows_awoken s taker _) (fun _ hd => nomatch hd) fun _ => trivial
  · next e bus took =>
    have same : w.setSession s (fun x => { x with bus := bus }) =
        w.setSession s fun x => { x with bus := { x.bus with queue := bus.queue } } := by
      refine setSession_congr ?_
      rw [Bus.take?] at took
      split at took
      · cases took
      · cases took
        rfl
    have taken : Quiet (w.Answers (.session s (.consume taker))) R [] w
        (w.setSession s fun x => { x with bus := bus }) :=
      same ▸ .setBus s (f := fun b => { b with queue := bus.queue }) (fun _ => rfl) w
    dsimp only
    split
    · exact .finish (taken.trans (quiet_see _ _))
    · exact .finish taken
    · exact .goto (taken.trans (quiet_see _ _)) (follows_consume (.inl rfl)) rfl fun _ => trivial
    · exact .call taken (follows_dispatch s _ _) (follows_consume (.inl rfl))
        (fun _ hc => by rcases hc with hc | hc <;> cases hc) fun _ => ⟨trivial, trivial⟩

theorem quiet_leaveTakers (s : SessionId) (c : CellId) (w : World) :
    Quiet A R [] w (w.leaveTakers s c) := by
  have left : Quiet A R [] w
      (w.setSession s fun x => { x with takers := x.takers.filter (· ≠ c) }) := by
    refine ⟨(Keeps.refl w).setSession s (fun _ _ hd => .inl (List.mem_filter.1 hd).1)
      (fun _ _ ht => .inl ht), core_setSession (fun _ => by rfl) s _⟩
  have either (stays : Bool) : Quiet A R [] w (if stays
      then w.setSession s fun x => { x with takers := x.takers.filter (· ≠ c) }
      else (w.setSession s fun x => { x with takers := x.takers.filter (· ≠ c) }).wakeTaker s) := by
    cases stays with
    | true => exact left
    | false => exact left.trans (quiet_wakeTaker s _)
  exact either _

theorem resumeSession_turn (s : SessionId) (p : Session.Stage) (o : Outcome Result) (w : World) :
    ∃ begun, Turn R w (.session s p) o begun (w.resumeSession s p o) := by
  cases o with
  | ok r =>
    cases p with
    | start => exact ⟨[], startSession_turn s r w⟩
    | launched b => exact launched_turn s b r w
    | initializeAnswered => exact ⟨[], greets_turn s r w⟩
    | initializedSent => exact ⟨[], completeStart_turn s r w⟩
    | abandoned e => exact ⟨[], fails_turn _ rfl (.refl w) rfl⟩
    | flushed => exact ⟨[], .finish (.refl w)⟩
    | notify method params => exact ⟨[], notifySession_turn s method params r w⟩
    | notified method => exact ⟨[], .finish (.refl w)⟩
    | stop timeout => exact ⟨[], stopSession_turn s timeout r w⟩
    | shutdownAnswered timeout => exact ⟨[], dismisses_turn s timeout r w⟩
    | exitSent timeout => exact ⟨[], closing_goto rfl rfl (.refl w)⟩
    | shutdown grace => exact ⟨[], shutdown_turn s grace w⟩
    | graceOver => exact ⟨[], closing_goto rfl rfl (.refl w)⟩
    | terminate => exact ⟨[], terminateSession_turn s w⟩
    | terminateOver => exact ⟨[], closing_goto rfl rfl (.refl w)⟩
    | killed => exact ⟨[], closing_goto rfl rfl (.refl w)⟩
    | release => exact ⟨[], release_turn s r w⟩
    | released =>
      obtain ⟨closed, core⟩ := closeBus_spec (A := w.Answers (.session s .released)) (R := R) s w
      exact ⟨[], .shows closed core .shuts (fun _ _ => by simp) fun _ hg => nomatch hg⟩
    | consume taker => exact ⟨[], takeEvent_turn s taker r w⟩
    | consumeAwoken taker c =>
      exact ⟨[], .goto (.refl w) (follows_consume (.inr ⟨c, rfl⟩)) rfl fun _ => trivial⟩
  | error e =>
    -- Failures are answered where a start or a stop talks to the backend, and where time is up.
    have passed {p : Session.Stage} (closes : p.closes = true) :
        Turn R w (.session s p) (.error e) [] (w.fail e) :=
      closing_done closes (fun calm => calm) (.refl w)
    cases p with
    | initializeAnswered => exact ⟨[], abandon_turn e (.inl rfl) w⟩
    | initializedSent => exact ⟨[], abandon_turn e (.inr rfl) w⟩
    | flushed =>
      cases e with
      | closed name cause => exact ⟨[], .finish (.refl w)⟩
      | _ => exact ⟨[], .fail_on w⟩
    | notified method =>
      cases e with
      | closed name cause => exact ⟨[], .fail (.refl w) fun _ => calm_error (by simp)⟩
      | _ => exact ⟨[], .fail_on w⟩
    | shutdownAnswered timeout =>
      refine ⟨[], ?_⟩
      show Turn R w _ _ _ (if isExpected e then _ else _)
      split
      · exact closing_goto rfl rfl (.refl w)
      · exact passed rfl
    | exitSent timeout =>
      refine ⟨[], ?_⟩
      show Turn R w _ _ _ (if isExpected e then _ else _)
      split
      · exact closing_goto rfl rfl (.refl w)
      · exact passed rfl
    | graceOver =>
      cases e with
      | timeout => exact ⟨[], closing_goto rfl rfl (.refl w)⟩
      | _ => exact ⟨[], passed rfl⟩
    | terminateOver =>
      cases e with
      | timeout => exact ⟨[], awaitProcess_turn rfl rfl (quiet_killSession s w) fun b found =>
        ⟨b, found, rfl⟩⟩
      | _ => exact ⟨[], passed rfl⟩
    | shutdown grace => exact ⟨[], passed rfl⟩
    | terminate => exact ⟨[], passed rfl⟩
    | killed => exact ⟨[], passed rfl⟩
    | release => exact ⟨[], passed rfl⟩
    | released => exact ⟨[], passed rfl⟩
    | consumeAwoken taker c => exact ⟨[], .fail (quiet_leaveTakers s c w) fun easy => easy.outcome⟩
    | _ => exact ⟨[], .fail_on w⟩

end LanguageClient.World
