import LanguageClient.Proofs.World.Waits

/-!
The steps of a connection. Three of them write a message, and three places come to the end of the
connection; the others are quiet.
-/

namespace LanguageClient.World

open Schedule

variable {A : Licence} {R : CellId → Prop} {begun : List Frame}
variable {w w' : World} {f : Frame} {o : Outcome Result}

theorem connection_of_core (h : w'.core = w.core) (k : ConnectionId) :
    (w'.connection k).core = (w.connection k).core := by
  rw [← connection_core, h, connection_core]

theorem session_of_core (h : w'.core = w.core) (s : SessionId) :
    (w'.session s).core = (w.session s).core := by
  rw [← session_core, h, session_core]

/-- A change of a connection that adds no request and no task. -/
theorem Keeps.noteConnection (h : Keeps A R begun w w') (k : ConnectionId)
    {f : Connection → Connection} (pending : ∀ x, ∀ p ∈ (f x).pending, p ∈ x.pending)
    (reader : ∀ x, (f x).reader = x.reader) (answers : ∀ x, ∀ t ∈ (f x).answers, t ∈ x.answers) :
    Keeps A R begun w (w'.setConnection k f) := by
  refine h.setConnection k ?_ ?_ ?_
  · exact fun x p hp => .inl (pending x p hp)
  · exact fun x t ht => .inl (reader x ▸ ht)
  · exact fun x t ht => .inl (answers x t ht)

theorem calm_ended (k : ConnectionId) (w : World) : Calm (.error (w.ended k)) :=
  calm_error (by simp [ended])

/-- Requests fail that still wait for a response. -/
theorem failPending_spec (h : Keeps A R begun w w') (k : ConnectionId)
    (ends : ∀ id name, A.settles k id (.error (.closed name .ended))) {pending : List (Nat × CellId)}
    (known : ∀ p ∈ pending, w.Held (.request k p.1) p.2) :
    Keeps A R begun w
      (pending.foldl (fun w p => w.onLoop (·.settle p.2 (.error (w.ended k)))) w') ∧
    (pending.foldl (fun w p => w.onLoop (·.settle p.2 (.error (w.ended k)))) w').core =
      w'.core := by
  induction pending generalizing w' with
  | nil => exact ⟨h, rfl⟩
  | cons p rest ih =>
    obtain ⟨first, others⟩ := List.forall_mem_cons.1 known
    have lives : (.error (w'.ended k) : Outcome Result) ≠ .error .cancelled := by simp [ended]
    exact ih (h.settle p.2 (calm_ended k w') lives (.inl ⟨_, first, ends p.1 _⟩)) others

/-- No request is made where a connection can come to its end. -/
theorem not_offers_request {f : Frame} {k : ConnectionId} {id : Nat} (h : f.mayEnd k) :
    ¬ w.Offers f (.request k id) := by
  intro offers
  cases f with
  | connection k' p =>
    cases p with
    | read => cases offers
    | answersStopped => cases offers
    | _ => cases h
  | _ => cases h

/-- What comes of a connection that ends here, or has ended before. -/
theorem endConnection_turn {k : ConnectionId} {p : Connection.Stage} {o' : Outcome Result}
    (mayEnd : (Frame.connection k p).mayEnd k) (h : Quiet (w.Answers (.connection k p)) R [] w w')
    (calm : Calm o') :
    ∃ begun, Turn R w (.connection k p) o begun (.done o', w'.endConnection k) ∧
      ∀ g ∈ begun, w.Engages (.connection k p) o g := by
  have same := connection_of_core h.core k
  have idle {w'' : World} : Awaits R w (.connection k p) (.done o', w'') :=
    .idle (fun _ _ => by simp) fun _ hg => nomatch hg
  cases closed : (w'.connection k).closed with
  | true =>
    rw [endConnection, closed]
    exact ⟨[], .done h fun _ => calm, fun _ hg => nomatch hg⟩
  | false =>
    let marked := w'.setConnection k fun x => { x with closed := true, pending := [] }
    let failed := (w'.connection k).pending.foldl
      (fun w p => w.onLoop (·.settle p.2 (.error (w.ended k)))) marked
    have alive : (w.connection k).closed = false := (congrArg Connection.closed same).symm.trans closed
    have owner : (w'.connection k).owner = (w.connection k).owner := by
      have known := congrArg Connection.owner same
      exact known
    have noted : Keeps (w.Answers (.connection k p)) R [] w marked := by
      refine h.keeps.noteConnection k (fun _ p hp => ?_) (fun _ => ?_) fun _ t ht => ?_
      · cases hp
      · rfl
      · exact ht
    have known : ∀ q ∈ (w'.connection k).pending, w.Held (.request k q.1) q.2 := by
      intro q hq
      rcases h.keeps.held _ _ (.data (.pending hq)) with old | ⟨-, gives⟩
      · exact old
      · exact absurd gives (not_offers_request mayEnd)
    obtain ⟨kept, told⟩ := failPending_spec noted k (fun _ name => .inr ⟨mayEnd, name, rfl⟩) known
    have core : failed.core = w.core.setConnection k Connection.cease := by
      refine told.trans ?_
      rw [← h.core]
      exact core_setConnection_eq (fun _ => by rfl) k w'
    have sessions (s : SessionId) : (failed.session s).stopping = (w.session s).stopping := by
      have same : failed.core.session s = w.core.session s := by
        rw [core]
        rfl
      rw [session_core, session_core] at same
      have known := congrArg Session.stopping same
      exact known
    rw [endConnection, closed]
    simp only [Bool.false_eq_true, if_false]
    cases who : (w'.connection k).owner with
    | recorder hears =>
      have others (s : SessionId) (hs : (w.connection k).owner = .session s) :
          (w.session s).stopping = true := by
        rw [← owner, who] at hs
        cases hs
      cases hears with
      | false =>
        refine ⟨[], ⟨kept, idle, ?_⟩, fun _ hg => nomatch hg⟩
        dsimp only
        rw [core]
        exact .closes others calm
      | true =>
        refine ⟨[], ⟨kept.aside rfl rfl rfl rfl rfl rfl rfl, idle, ?_⟩, fun _ hg => nomatch hg⟩
        dsimp only
        rw [core_see, core]
        exact .closes others calm
    | session s =>
      rw [owner] at who
      dsimp only
      cases stopping : (w.session s).stopping with
      | true =>
        rw [connectionLost_stopping ((sessions s).trans stopping)]
        refine ⟨[], ⟨kept, idle, ?_⟩, fun _ hg => nomatch hg⟩
        dsimp only
        rw [core]
        refine .closes (fun s' hs => ?_) calm
        rw [who] at hs
        cases hs
        exact stopping
      | false =>
        obtain ⟨lost, roster, strikes, core'⟩ := connectionLost_spec
          (A := w.Answers (.connection k p)) (R := R) ((sessions s).trans stopping)
        have count : failed.loop.tasks.length = w.loop.tasks.length :=
          length_tasks_of_ops kept.ops
        rw [core] at strikes core'
        rw [count] at core'
        refine ⟨_, ⟨kept.trans lost, idle, ?_⟩, List.forall_mem_singleton.2 (.inl ⟨_, _, rfl⟩)⟩
        dsimp only
        rw [core']
        exact .loses who alive stopping strikes calm

theorem Turn.after {o' : Outcome Result} {w'' : World}
    (h : Turn R w f o begun (.done o', w')) (then_ : Quiet (w.Answers f) R [] w' w'') :
    Turn R w f o begun (.done o', w'') where
  keeps := by
    have all := h.keeps.trans then_.keeps
    rwa [List.append_nil] at all
  awaits := .idle (fun _ _ => by simp) fun _ hg => nomatch hg
  change := by
    have change := h.change
    dsimp only at change ⊢
    rwa [then_.core]

theorem drain_turn (k : ConnectionId) (r : Result) (w : World) :
    Turn R w (.connection k .drain) (.ok r) [] (w.drain k) := by
  unfold drain
  dsimp only
  split
  · have queued : Quiet (w.Answers (.connection k .drain)) R [] w
        (w.newCell.2.setBackend (w.connection k).backend fun x =>
          { x with writers := x.writers ++ [w.loop.cells.length] }) := by
      refine ⟨(Keeps.refl w).newCell.setBackend _ (fun _ _ hc => .inl hc) ?_
        (fun _ _ hc => .inl hc) (fun _ hx => hx), core_setBackend (fun _ => by rfl) _ _⟩
      intro x c hc
      refine (List.mem_append.1 hc).imp_right fun new => ?_
      rw [List.mem_singleton.1 new]
      exact ⟨Keeps.fresh_newCell w, rfl⟩
    exact .await queued (.inr (.inr (made_of_plain (Nat.le_refl _) (kind?_newCell w))))
      (.of_idle ⟨rfl, fun _ => rfl, fun _ _ h => h⟩ rfl) (fun _ hd => nomatch hd) fun _ => trivial
  · exact .goto (.refl w) (.of_idle ⟨rfl, fun _ => rfl, fun _ _ h => h⟩ rfl) rfl fun _ => trivial

theorem drained_turn (k : ConnectionId) (r : Result) (w : World) :
    Turn R w (.connection k .drained) (.ok r) [] (w.drained k) := by
  unfold drained
  split
  · exact .fail (.refl w) fun _ => calm_error (by simp [brokenPipe])
  · exact .finish (.refl w)

theorem drain_frames (k : ConnectionId) (w : World) : (w.drain k).1.frames = [.connection k .drained] := by
  unfold drain
  dsimp only
  split <;> rfl

/-- Writing fails only because the input of the backend is broken. -/
theorem drained_cases (k : ConnectionId) (w : World) :
    (w.drained k).1 = .done (.error (w.brokenPipe k)) ∨
      (w.backend (w.connection k).backend).broken = false ∧ (w.drained k).1 = .done (.ok .nothing) := by
  unfold drained
  split
  · exact .inl rfl
  · next intact => exact .inr ⟨Bool.eq_false_iff.2 intact, rfl⟩

theorem sendNotification_turn (k : ConnectionId) (method : String) (params : Value) (r : Result)
    (w : World) :
    Turn R w (.connection k (.notify method params)) (.ok r) []
      (w.sendNotification k method params) := by
  unfold sendNotification
  split
  · exact .fail (.refl w) fun _ => calm_ended k w
  · next alive =>
    obtain ⟨kept, last, core⟩ := send_spec
      (A := w.Answers (.connection k (.notify method params))) (R := R)
      (w.connection k).backend (Connection.notification method params) w
    exact .shows kept core (.notes last (Bool.eq_false_iff.2 alive)) (fun _ _ => by simp)
      (List.forall_mem_singleton.2 rfl)

/-- A request that is sent has been given its number before. -/
theorem sendRequest_spec {k : ConnectionId} (method : String) (params : Value) (timeout : Timeout)
    (alive : (w.connection k).closed = false)
    (gives : A.gives (.request k (w.connection k).nextId)) :
    Keeps A R [] w (w.sendRequest k method params timeout).2 ∧
      (w.sendRequest k method params timeout).1 = .call (.connection k .drain)
        (.connection k (.requestWritten (w.connection k).nextId w.loop.cells.length timeout)) ∧
      (w.sendRequest k method params timeout).2.loop.kind? w.loop.cells.length = some .plain ∧
      ∃ last, (w.sendRequest k method params timeout).2.core =
        (w.core.setConnection k
            (Connection.enroll (w.connection k).nextId w.loop.cells.length)).send
          (w.connection k).backend (Connection.request (w.connection k).nextId method params)
          last := by
  let asked := w.newCell.2.setConnection k fun x => { x with
    nextId := x.nextId + 1
    pending := x.pending ++ [((w.connection k).nextId, w.loop.cells.length)] }
  have sent : w.sendRequest k method params timeout = (.call (.connection k .drain)
      (.connection k (.requestWritten (w.connection k).nextId w.loop.cells.length timeout)),
      asked.write k (Connection.request (w.connection k).nextId method params)) := by
    rw [sendRequest, alive]
    rfl
  have kept : Keeps A R [] w asked := by
    refine (Keeps.refl w).newCell.setConnection k ?_ (fun _ _ ht => .inl ht) (fun _ _ ht => .inl ht)
    intro x p hp
    refine (List.mem_append.1 hp).imp_right fun new => ?_
    rw [List.mem_singleton.1 new]
    exact ⟨Keeps.fresh_newCell w, gives⟩
  have core : asked.core =
      w.core.setConnection k (Connection.enroll (w.connection k).nextId w.loop.cells.length) :=
    core_setConnection_eq (fun _ => by rfl) k w.newCell.2
  have backend : (asked.connection k).backend = (w.connection k).backend := by
    rcases connection_setConnection k k (fun x => { x with
      nextId := x.nextId + 1
      pending := x.pending ++ [((w.connection k).nextId, w.loop.cells.length)] })
      w.newCell.2 with same | ⟨-, same⟩
    · exact congrArg Connection.backend same
    · have known := congrArg Connection.backend same
      exact known
  obtain ⟨written, last, core'⟩ := send_spec (A := A) (R := R) (asked.connection k).backend
    (Connection.request (w.connection k).nextId method params) asked
  rw [sent]
  refine ⟨kept.trans written, rfl, ?_, last, ?_⟩
  · have inside : w.loop.cells.length < asked.loop.cells.length := by
      rw [show asked.loop = w.newCell.2.loop from rfl, length_cells_newCell]
      exact Nat.lt_succ_self _
    exact (written.ops.kind? inside).trans (kind?_newCell w)
  · rw [← backend, ← core]
    exact core'

theorem sendRequest_turn (k : ConnectionId) (method : String) (params : Value) (timeout : Timeout)
    (r : Result) (w : World) :
    Turn R w (.connection k (.request method params timeout)) (.ok r) []
      (w.sendRequest k method params timeout) := by
  cases closed : (w.connection k).closed with
  | true =>
    rw [sendRequest, closed]
    exact .fail (.refl w) fun _ => calm_ended k w
  | false =>
    obtain ⟨kept, flow, plain, last, core⟩ := sendRequest_spec method params timeout
      (A := w.Answers (.connection k (.request method params timeout))) (R := R) closed rfl
    refine ⟨kept, ⟨fun c g same => ?_, fun g hg c hc => ?_⟩, ?_⟩
    · rw [flow] at same
      cases same
    · rw [flow] at hg
      rcases List.mem_cons.1 hg with rfl | hg
      · cases hc
      · rw [List.mem_singleton.1 hg] at hc
        rw [List.mem_singleton.1 hc]
        exact .inr ⟨Nat.le_refl _, plain⟩
    · rw [flow, core]
      exact .requests last closed

theorem sendAnswer_turn (k : ConnectionId) (id : Value) (result : Except Failure Value) (r : Result)
    (w : World) :
    Turn R w (.connection k (.answerReady id result)) (.ok r) [] (w.sendAnswer k id result) := by
  unfold sendAnswer
  split
  · exact .finish (.refl w)
  · obtain ⟨kept, last, core⟩ := send_spec
      (A := w.Answers (.connection k (.answerReady id result))) (R := R)
      (w.connection k).backend (Connection.response id result) w
    exact .shows kept core (.answers last) (fun _ _ => by simp)
      (List.forall_mem_cons.2 ⟨rfl, List.forall_mem_singleton.2 rfl⟩)

theorem calm_unhashable (kind : String) : Calm (.error (.unhashable kind)) :=
  calm_error (by simp)

/-- Comes to a good end, or fails by no launch. -/
def Yields {α : Type} (good : α → Prop) : Except Failure α → Prop
  | .ok a => good a
  | .error e => Calm (.error e)

theorem yields_ofResponse (payload : Value) :
    Yields (fun e => Calm (.error e) ∧ e ≠ .cancelled) (Failure.ofResponse payload) := by
  unfold Failure.ofResponse
  split
  · exact ⟨calm_error (by simp), by simp⟩
  · exact calm_error (by simp)

/-- A response settles nothing but the cell of the request that it names. -/
theorem yields_respond {k : ConnectionId} {id : Value} {message : Entries}
    (answers : ∀ key (n : Nat) o, id.key? = some key → (Key.int n).same key = true →
      Connection.reply? message = some o → A.settles k n o) (w : World) :
    Yields (Quiet A R [] w) (w.respond k id message) := by
  unfold respond
  split
  · exact calm_unhashable _
  · next key hkey =>
    split
    · exact Quiet.refl w
    · next cell hcell =>
      obtain ⟨p, found, rfl⟩ := Option.map_eq_some_iff.1 hcell
      have held : w.Held (.request k p.1) p.2 := .data (.pending (List.mem_of_find?_eq_some found))
      have named : (Key.int p.1).same key = true := by
        have known := List.find?_some found
        exact known
      split
      · exact Quiet.refl w
      · split
        · next e hasError =>
          have told := yields_ofResponse (if e.truthy = true then e else .map [])
          cases read : Failure.ofResponse (if e.truthy = true then e else .map []) with
          | error e =>
            rw [read] at told
            exact told
          | ok failure =>
            rw [read] at told
            have reply : Connection.reply? message = some (.error failure) := by
              simp only [Connection.reply?, hasError, read]
            exact Quiet.mk ((Keeps.refl w).settle p.2 told.1 (fun same => told.2 (Except.error.inj same))
              (.inl ⟨_, held, answers key p.1 _ hkey named reply⟩)) rfl
        · next noError =>
          have reply : Connection.reply? message =
              some (.ok (.value ((Entries.field? "result" message).getD .null))) := by
            simp only [Connection.reply?, noError]
          exact Quiet.mk ((Keeps.refl w).settle p.2 (calm_ok _) (fun same => nomatch same)
            (.inl ⟨_, held, answers key p.1 _ hkey named reply⟩)) rfl

theorem quiet_startAnswer (k : ConnectionId) (id method params : Value) (w : World) :
    Quiet A R [.connection k (.answer id method params)] w
      (w.startAnswer k id method params) := by
  have begun : Keeps A R [.connection k (.answer id method params)] w
      (w.spawn (.connection k (.answer id method params))).2 := (Keeps.refl w).spawn _
  have noted : Keeps A R [.connection k (.answer id method params)] w
      ((w.spawn (.connection k (.answer id method params))).2.setConnection k fun x =>
        { x with answers := x.answers ++ [w.loop.tasks.length] }) := by
    refine begun.setConnection k (fun _ _ hp => .inl hp) (fun _ _ ht => .inl ht) ?_
    intro x t ht
    refine (List.mem_append.1 ht).imp_right fun new => ?_
    exact Begun.only (fun _ => rfl) (List.mem_singleton.1 new)
  have core : ((w.spawn (.connection k (.answer id method params))).2.setConnection k fun x =>
      { x with answers := x.answers ++ [w.loop.tasks.length] }).core = w.core :=
    core_setConnection (fun _ => by rfl) k _
  exact ⟨noted.aloof (f := fun l => l.watch (l.taskCell w.loop.tasks.length)
    (.call (.answerDone k w.loop.tasks.length))) fun c => .watch _ rfl (by simp [Waker.released?]) _,
    core⟩

theorem quiet_see (x : Sight) (w : World) : Quiet A R [] w (w.see x) :=
  ⟨(Keeps.refl w).aside rfl rfl rfl rfl rfl rfl rfl, rfl⟩

theorem quiet_showError (message : String) (w : World) :
    Quiet A R [] w (w.showError message) :=
  ⟨(Keeps.refl w).aside rfl rfl rfl rfl rfl rfl rfl, rfl⟩

theorem quiet_notify (k : ConnectionId) (method params : Value) (w : World) :
    Quiet A R [] w (w.notify k method params) := by
  unfold notify
  split
  · exact quiet_hear _ method params w
  · exact quiet_see _ w

/-- A message that is handed on may begin an answer. -/
theorem yields_dispatch {k : ConnectionId} (message : Entries)
    (answers : ∀ key (n : Nat) o, (Entries.field? "method" message).getD .null = .null →
      ((Entries.field? "id" message).getD .null).key? = some key →
      (Key.int n).same key = true → Connection.reply? message = some o → A.settles k n o)
    (w : World) :
    Yields (fun w' => ∃ begun, (∀ g ∈ begun, ∃ id method params,
      g = .connection k (.answer id method params) ∧
        Connection.demand? message = some (id, method, params)) ∧ Quiet A R begun w w')
      (w.dispatch k message) := by
  unfold dispatch
  dsimp only
  split
  · next noMethod =>
    split
    · exact ⟨[], (fun _ hg => nomatch hg), .refl w⟩
    · have told := yields_respond (R := R)
        (fun key n o hkey same reply => answers key n o noMethod hkey same reply) w
      cases done : w.respond k ((Entries.field? "id" message).getD .null) message with
      | ok w' =>
        rw [done] at told
        exact ⟨[], (fun _ hg => nomatch hg), told⟩
      | error e =>
        rw [done] at told
        exact told
  · next hasMethod =>
    split
    · exact ⟨[], (fun _ hg => nomatch hg), quiet_notify k _ _ w⟩
    · next hasId =>
      refine ⟨_, List.forall_mem_singleton.2 ⟨_, _, _, rfl, ?_⟩, quiet_startAnswer k _ _ _ w⟩
      exact if_neg (not_or.2 ⟨hasId, hasMethod⟩)

theorem follows_connection {k : ConnectionId} {p q : Connection.Stage}
    (h : (Frame.connection k q).isPlain = true) :
    (Frame.connection k p).Follows (.connection k q) :=
  .of_idle ⟨h, fun _ => rfl, fun _ _ h => h⟩ rfl

theorem readOn_turn (k : ConnectionId) (point : Wire.Point) (r : Result) (w : World) :
    ∃ begun, Turn R w (.connection k (.read point)) (.ok r) begun (w.readOn k point) ∧
      ∀ g ∈ begun, w.Engages (.connection k (.read point)) (.ok r) g := by
  unfold readOn
  dsimp only
  generalize read : Wire.read point (w.backend (w.connection k).backend).output = reading
  obtain ⟨reading, output⟩ := reading
  have taken : Quiet (w.Answers (.connection k (.read point))) R [] w
      (w.setBackend (w.connection k).backend fun x => { x with output := output }) := by
    refine .noteBackend _ (fun _ => ?_) (fun _ => ?_) w
    · rfl
    · exact ⟨rfl, rfl, rfl, rfl⟩
  have again {begun : List Frame} {w' : World}
      (begun_ : ∀ g ∈ begun, ∃ id method params, g = .connection k (.answer id method params))
      (h : Quiet (w.Answers (.connection k (.read point))) R begun w w') :
      Turn R w (.connection k (.read point)) (.ok r) begun
        (w'.continueAt (.connection k (.read .start))) := by
    refine .goto_begun h (fun g hg => ?_) (follows_connection rfl) rfl fun _ => trivial
    obtain ⟨id, method, params, rfl⟩ := begun_ g hg
    exact ⟨(follows_connection rfl).toSucceeds, rfl, trivial, rfl, rfl, fun _ _ same => nomatch same⟩
  dsimp only
  split
  · next entries =>
    have told := yields_dispatch (k := k) entries
      (A := w.Answers (.connection k (.read point))) (R := R)
      (fun key n o noMethod hkey same reply =>
        .inl ⟨point, entries, output, key, rfl, read, noMethod, hkey, same, reply⟩)
      (w.setBackend (w.connection k).backend fun x => { x with output := output })
    split
    · next w' done =>
      rw [done] at told
      obtain ⟨begun, begun_, quiet⟩ := told
      refine ⟨begun, again (fun g hg => ?_) (taken.trans quiet), fun g hg => ?_⟩
      · obtain ⟨id, method, params, same, -⟩ := begun_ g hg
        exact ⟨id, method, params, same⟩
      · obtain ⟨id, method, params, same, demand⟩ := begun_ g hg
        exact .inr ⟨r, k, id, method, params, rfl, same, point, entries, output, rfl, read, demand⟩
    · next e failed =>
      rw [failed] at told
      exact endConnection_turn rfl taken told
  · exact ⟨[], again (fun _ hg => nomatch hg) taken, fun _ hg => nomatch hg⟩
  · exact ⟨[], again (fun _ hg => nomatch hg) taken, fun _ hg => nomatch hg⟩
  · exact endConnection_turn rfl taken (calm_ok _)
  · next point' =>
    have queued : Quiet (w.Answers (.connection k (.read point))) R [] w
        ((w.setBackend (w.connection k).backend fun x =>
          { x with output := output }).newCell.2.setBackend (w.connection k).backend fun x =>
            { x with readers := x.readers ++ [w.loop.cells.length] }) := by
      refine ⟨taken.keeps.newCell.setBackend _ ?_ (fun _ _ hc => .inl hc)
        (fun _ _ hc => .inl hc) (fun _ hx => hx),
        (core_setBackend (fun _ => by rfl) _ _).trans taken.core⟩
      intro x c hc
      refine (List.mem_append.1 hc).imp_right fun new => ?_
      rw [List.mem_singleton.1 new]
      have fresh := Keeps.fresh_newCell w
      exact ⟨⟨fresh.new, fresh.inside, fresh.kind⟩, rfl⟩
    exact ⟨[], .await queued (.inr (.inr (made_of_plain (Nat.le_refl _) (kind?_newCell _))))
      (follows_connection rfl) (fun _ hd => nomatch hd) fun _ => trivial, fun _ hg => nomatch hg⟩

theorem answer_turn (k : ConnectionId) (id method params : Value) (r : Result) (w : World) :
    Turn R w (.connection k (.answer id method params)) (.ok r) []
      (w.answer k id method params) := by
  have ready (result : Except Failure Value) :
      Turn R w (.connection k (.answer id method params)) (.ok r) []
        (w.continueAt (.connection k (.answerReady id result))) :=
    .goto (.refl w) (follows_connection rfl) rfl fun _ => trivial
  unfold answer
  dsimp only
  split
  · exact .fail (.refl w) fun _ => calm_unhashable _
  · split
    · exact ready _
    · exact ready _
    · exact ready _
    · exact ready _
    · obtain ⟨slept, made⟩ := quiet_sleep
        (A := w.Answers (.connection k (.answer id method params))) (R := R)
        rfl 1000000000 w
      exact .await slept (.inr (.inr made)) (follows_connection rfl) (fun _ hd => nomatch hd)
        fun _ => trivial
    · exact .await (quiet_newCell w) (.inr (.inr (made_newCell w))) (follows_connection rfl)
        (fun _ hd => nomatch hd) fun _ => trivial

theorem closeConnection_turn {k : ConnectionId} (r : Result)
    (reaches : w.Reaches (.connection k .close) R) :
    Turn R w (.connection k .close) (.ok r) [] (w.closeConnection k) := by
  unfold closeConnection
  split
  · next t reader =>
    have known : R (w.loop.taskCell t) := reaches.refers t (.reader reader)
    split
    · exact .goto (.refl w) (follows_connection rfl) rfl fun _ => trivial
    · exact .await ⟨(Keeps.refl w).cancelTask known, rfl⟩
        (.inr (.inl ⟨true, t, .reader reader, rfl⟩)) (follows_connection rfl)
        (fun _ hd => nomatch hd) fun _ => trivial
  · exact .goto (.refl w) (follows_connection rfl) rfl fun _ => trivial

theorem reach_taskCell {l l' : Loop Frame Result Notice} {may : Outcome Result → Prop}
    {R' : CellId → Prop} {guards : Prop} (steps : Loop.Ops may R' guards begun l l')
    (inside : ∀ c, R c → c < l.cells.length) {t : TaskId} (h : R (l.taskCell t)) :
    R (l'.taskCell t) := by
  rwa [steps.taskCell (Loop.lt_of_taskCell_lt (inside _ h))]

/-- Tasks are given up, and waited for. -/
theorem giveUp_turn {tasks : List TaskId} {g : Frame} (gives : w.Offers f .loose)
    (inside : ∀ c, R c → c < w.loop.cells.length)
    (known : ∀ t ∈ tasks, R (w.loop.taskCell t)) (follows : f.Follows g)
    (names : g.names = []) (calm : g.IsCalm) :
    Turn R w f o []
      (let w := tasks.foldl (fun w t => w.onLoop (·.cancelTask t)) w
      if tasks.isEmpty then w.continueAt g
      else
        let (cell, w) := w.gather tasks
        (.await cell g, w)) := by
  have given : Quiet (w.Answers f) R [] w
      (tasks.foldl (fun w t => w.onLoop (·.cancelTask t)) w) := quiet_cancels known inside
  dsimp only
  split
  · exact .goto given follows names fun _ => calm
  · obtain ⟨gathered, made⟩ := quiet_gather (A := w.Answers f) (R := R)
      gives (w := tasks.foldl (fun w t => w.onLoop (·.cancelTask t)) w)
      (fun t ht => reach_taskCell given.keeps.ops inside (known t ht))
    refine .await (given.trans gathered) (.inr (.inr ?_)) follows ?_ fun _ => calm
    · exact ⟨Nat.le_trans given.keeps.ops.length_cells made.new, made.inside, made.members⟩
    · intro d hd
      rw [names] at hd
      cases hd

theorem dropRequest_turn {k : ConnectionId} {p : Connection.Stage} {id : Nat} (o : Outcome Result)
    (about : (∃ c timeout, p = .requestWritten id c timeout) ∨ p = .requestSettled id) (w : World) :
    Turn R w (.connection k p) o [] (.done o, w.dropRequest k id) := by
  refine .shows ?_ (core_setConnection_eq (fun _ => by rfl) k w) (.withdraws about)
    (fun _ _ => by simp) fun _ hg => nomatch hg
  refine (Keeps.refl w).noteConnection k (fun _ p hp => ?_) (fun _ => ?_) fun _ t ht => ?_
  · exact (List.mem_filter.1 hp).1
  · rfl
  · exact ht

theorem resumeConnection_turn {k : ConnectionId} (p : Connection.Stage) (o : Outcome Result)
    {w : World} (reaches : w.Reaches (.connection k p) R) :
    ∃ begun, Turn R w (.connection k p) o begun (w.resumeConnection k p o) ∧
      ∀ g ∈ begun, w.Engages (.connection k p) o g := by
  have still {step : Step} (turn : Turn R w (.connection k p) o [] step) :
      ∃ begun, Turn R w (.connection k p) o begun step ∧ ∀ g ∈ begun, w.Engages (.connection k p) o g :=
    ⟨[], turn, fun _ hg => nomatch hg⟩
  cases o with
  | error e =>
    -- Four places look at a failure; the others pass it on.
    cases p with
    | requestWritten id c timeout =>
      exact still (dropRequest_turn _ (.inl ⟨c, timeout, rfl⟩) w)
    | requestSettled id => exact still (dropRequest_turn _ (.inr rfl) w)
    | read point => exact endConnection_turn rfl (.refl w) (calm_ok _)
    | answerNever => exact still (.fail (quiet_see _ w) fun easy => easy.outcome)
    | answerWritten =>
      cases e with
      | closed name cause => exact still (.finish (.refl w))
      | _ => exact still (.fail_on w)
    | readerStopped =>
      cases e with
      | cancelled =>
        exact still (giveUp_turn rfl reaches.inside (fun t ht => reaches.refers t (.answer ht))
          (follows_connection rfl) rfl trivial)
      | _ => exact still (.fail_on w)
    | _ => exact still (.fail_on w)
  | ok r =>
    cases p with
    | drain => exact still (drain_turn k r w)
    | drained => exact still (drained_turn k r w)
    | notify method params => exact still (sendNotification_turn k method params r w)
    | request method params timeout => exact still (sendRequest_turn k method params timeout r w)
    | requestWritten id c timeout =>
      refine still (.call (.refl w) (.of_idle ⟨rfl, fun _ => rfl, fun _ _ _ => trivial⟩ rfl)
        (follows_connection rfl) (fun d hd => ?_) fun _ => ⟨trivial, trivial⟩)
      rcases hd with hd | hd
      · exact hd
      · cases hd
    | requestSettled id => exact still (dropRequest_turn _ (.inr rfl) w)
    | read point => exact readOn_turn k point r w
    | answer id method params => exact still (answer_turn k id method params r w)
    | answerDelayed id params =>
      exact still (.goto (.refl w) (follows_connection rfl) rfl fun _ => trivial)
    | answerNever => exact still (.finish (.refl w))
    | answerReady id result => exact still (sendAnswer_turn k id result r w)
    | answerWritten => exact still (.finish (.refl w))
    | close => exact still (closeConnection_turn r reaches)
    | readerStopped =>
      exact still (giveUp_turn rfl reaches.inside (fun t ht => reaches.refers t (.answer ht))
        (follows_connection rfl) rfl trivial)
    | answersStopped =>
      obtain ⟨begun, turn, engaged⟩ := endConnection_turn (R := R) (o := .ok r)
        (p := .answersStopped) rfl (.refl w) (calm_ok .nothing)
      have closed : Quiet (w.Answers (.connection k .answersStopped)) R [] (w.endConnection k)
          ((w.endConnection k).closeInput ((w.endConnection k).connection k).backend) :=
        quiet_note (by simp) _ _
      exact ⟨begun, turn.after closed, engaged⟩

end LanguageClient.World
