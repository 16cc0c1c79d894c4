import LanguageClient.Proofs.Schedule.Orderly
import LanguageClient.Proofs.World.Session
import LanguageClient.Proofs.World.Steady
import Mathlib.Data.List.TakeWhile

/-!
The way of an event to whoever takes it: what a step publishes to a session's consumers, and what it
leaves alone.
-/

namespace LanguageClient

open Schedule

/-- The event that a notification, by its method and its parameters, is for a session of a root. -/
def Session.event? (root : Option Root) (n : Value × Value) : Option Event :=
  match n.1 with
  | .text method => Event.ofNotification? method n.2 (some (keyOf root))
  | _ => none

/-- The notification that a message is: its method and its parameters. -/
def Connection.notification? (message : Entries) : Option (Value × Value) :=
  let member (name : String) : Value := (Entries.field? name message).getD .null
  if member "method" = .null ∨ member "id" ≠ .null then none
  else some (member "method", member "params")

/-- The part of a session that its events pass through. -/
def Session.mail (x : Session) : Option Root × Bus × List CellId := (x.root, x.bus, x.takers)

/-- What the events of all sessions pass through, and what relays show of their status. -/
structure Post where
  boxes : List (Option Root × Bus × List CellId)
  marks : List StatusIndicator

/-- What the events of one session pass through, and what one relay shows of its status. -/
structure Box where
  root : Option Root
  bus : Bus
  takers : List CellId
  mark : StatusIndicator

namespace World

variable {s s' : SessionId} {r : RelayId} {k : ConnectionId} {w w' w'' : World} {e : Event}
variable {e? : Option Event}

def post (w : World) : Post where
  boxes := w.sessions.map Session.mail
  marks := w.relays.map (·.indicator)

def box (s : SessionId) (r : RelayId) (w : World) : Box where
  root := (w.session s).root
  bus := (w.session s).bus
  takers := (w.session s).takers
  mark := (w.relay r).indicator

theorem steady_post : Steady post where
  loop _ _ := rfl
  current _ _ := rfl
  backends _ _ := rfl
  plans _ _ := rfl
  connections _ _ := rfl
  sights _ _ := rfl

theorem steady_sessions : Steady fun w => w.sessions.length where
  loop _ _ := rfl
  current _ _ := rfl
  backends _ _ := rfl
  plans _ _ := rfl
  connections _ _ := rfl
  sights _ _ := rfl

theorem box_of_post (h : w'.post = w.post) (s : SessionId) (r : RelayId) :
    w'.box s r = w.box s r := by
  let pick (p : Post) : Box :=
    let x := p.boxes.getD s (Session.mail default)
    ⟨x.1, x.2.1, x.2.2, p.marks.getD r (default : Relay).indicator⟩
  have known (w : World) : w.box s r = pick w.post := by
    simp only [box, session, relay, post, pick, List.getD_eq_getElem?_getD, List.getElem?_map]
    cases w.sessions[s]? <;> cases w.relays[r]? <;> rfl
  rw [known, known, h]

theorem post_setSession {f : Session → Session} (h : ∀ x, (f x).mail = x.mail) (s : SessionId)
    (w : World) : (w.setSession s f).post = w.post :=
  congrArg (Post.mk · _) (map_modify_same h s w.sessions)

theorem post_setRelay {f : Relay → Relay} (h : ∀ x, (f x).indicator = x.indicator) (r : RelayId)
    (w : World) : (w.setRelay r f).post = w.post :=
  congrArg (Post.mk _) (map_modify_same h r w.relays)

theorem session_setSession_ne (h : s ≠ s') (f : Session → Session) (w : World) :
    (w.setSession s' f).session s = w.session s := by
  rcases session_setSession s' s f w with same | ⟨same, -⟩
  · exact same
  · exact absurd same h

theorem session_setSession_self (h : s < w.sessions.length) (f : Session → Session) :
    (w.setSession s f).session s = f (w.session s) := by
  simp [setSession, session, List.getD_eq_getElem?_getD, h]

theorem box_setSession_ne (h : s ≠ s') (f : Session → Session) (w : World) :
    (w.setSession s' f).box s r = w.box s r := by
  have same := session_setSession_ne h f w
  rw [box, box, same]
  rfl

/-- Cells that were settled still are. -/
structure Ripens (w w' : World) : Prop where
  settles : Loop.Settles (fun _ => True) w.loop w'.loop
  cells : w.loop.cells.length ≤ w'.loop.cells.length

theorem Ripens.of_loop (h : w'.loop = w.loop) : Ripens w w' where
  settles := h ▸ .refl _
  cells := h ▸ Nat.le_refl _

theorem Ripens.trans (h : Ripens w w') (h' : Ripens w' w'') : Ripens w w'' :=
  ⟨h.settles.trans h'.settles, Nat.le_trans h.cells h'.cells⟩

theorem Ripens.settle (c : CellId) (o : Outcome Result) (w : World) :
    Ripens w (w.onLoop (·.settle c o)) where
  settles := .settle trivial c w.loop
  cells := Nat.le_of_eq (Loop.length_cells_settle c o w.loop).symm

theorem Ripens.spawn (f : Frame) (w : World) : Ripens w (w.spawn f).2 where
  settles := .of_eq fun d => Loop.outcome?_newCell _ d w.loop
  cells := by simp [World.spawn, Loop.spawn, Loop.newCell, Loop.push]

theorem Ripens.settled (h : Ripens w w') {c : CellId} (hc : w.loop.isSettled c = true) :
    w'.loop.isSettled c = true := Loop.isSettled_mono h.settles hc

/-- Whoever alone still waits for an event of a session is woken. -/
structure Woken (s : SessionId) (w w' : World) : Prop where
  takers : (w'.session s).takers ⊆ (w.session s).takers
  wakes : ∀ c ∈ (w.session s).takers, c < w.loop.cells.length →
    (∀ d ∈ (w.session s).takers, d = c ∨ w.loop.isSettled d = true) → w'.loop.isSettled c = true

theorem Woken.after (h : Woken s w w') (takers : (w''.session s).takers = (w'.session s).takers)
    (ripens : Ripens w' w'') : Woken s w w'' where
  takers := takers ▸ h.takers
  wakes c hc inside others := ripens.settled (h.wakes c hc inside others)

theorem Woken.before (h : Woken s w' w'') (takers : (w'.session s).takers = (w.session s).takers)
    (ripens : Ripens w w') : Woken s w w'' where
  takers := takers ▸ h.takers
  wakes c hc inside others :=
    h.wakes c (takers ▸ hc) (Nat.lt_of_lt_of_le inside ripens.cells) fun d hd =>
      (others d (takers ▸ hd)).imp_right ripens.settled

theorem wakeTaker_woken (s : SessionId) (w : World) : Woken s w (w.wakeTaker s) := by
  have dropped : (w.session s).takers.dropWhile (w.loop.isSettled ·) ⊆ (w.session s).takers :=
    (List.dropWhile_suffix _).subset
  unfold wakeTaker
  split
  · next none =>
    refine ⟨?_, fun c hc _ _ => List.dropWhile_eq_nil_iff.1 none c hc⟩
    rcases session_setSession s s (fun x => { x with takers := [] }) w with same | ⟨-, same⟩
    · exact fun c hc => same ▸ hc
    · exact fun c hc => by simp [same] at hc
  · next c rest found =>
    constructor
    · have taken : ((w.setSession s fun x => { x with takers := rest }).session s).takers ⊆
          (w.session s).takers := by
        rcases session_setSession s s (fun x => { x with takers := rest }) w with same | ⟨-, same⟩
        · exact fun d hd => same ▸ hd
        · rw [same]
          exact fun d hd => dropped (found ▸ List.mem_cons_of_mem c hd)
      exact taken
    · intro d hd inside others
      have mem : c ∈ (w.session s).takers := dropped (found ▸ List.mem_cons_self)
      have first : w.loop.isSettled c = false := by
        have known := List.head?_dropWhile_not (w.loop.isSettled ·) (w.session s).takers
        rw [found] at known
        exact known
      rcases others c mem with rfl | settled
      · have after : (w.loop.settle c (.ok .nothing)).outcome? c = some (.ok .nothing) := by
          refine Loop.outcome?_settle_self inside ?_
          exact Option.not_isSome_iff_eq_none.1 (Bool.eq_false_iff.1 first)
        exact Option.isSome_iff_exists.2 ⟨_, after⟩
      · rw [settled] at first
        cases first

theorem box_wakeTaker (s s' : SessionId) (r : RelayId) (w : World) :
    ∃ takers, (w.wakeTaker s').box s r = { w.box s r with takers := takers } := by
  have kept (cs : List CellId) : ∃ takers,
      (w.setSession s' fun x => { x with takers := cs }).box s r =
        { w.box s r with takers := takers } := by
    rw [box]
    rcases session_setSession s' s (fun x => { x with takers := cs }) w with same | ⟨-, same⟩
    · rw [same]
      exact ⟨_, rfl⟩
    · rw [same]
      exact ⟨cs, rfl⟩
  unfold wakeTaker
  split
  · exact kept []
  · exact kept _

theorem box_wakeTaker_ne (h : s ≠ s') (r : RelayId) (w : World) :
    (w.wakeTaker s').box s r = w.box s r := by
  unfold wakeTaker
  split
  · exact box_setSession_ne h _ w
  · exact box_setSession_ne h _ w

/-- What becomes of a session's events: one is published, their end is, or nothing is. -/
inductive Posts (s : SessionId) (r : RelayId) (w w' : World) : Option Event → Prop
  | rests (same : w'.box s r = w.box s r) : Posts s r w w' none
  | publishes {e : Event} {takers : List CellId} (alive : (w.box s r).bus.closed = false)
    (same : w'.box s r =
      { w.box s r with bus := (w.box s r).bus.publish e, takers := takers })
    (woken : (w.box s r).bus.accepts = true → Woken s w w') : Posts s r w w' (some e)
  | closes {takers : List CellId} (alive : (w.box s r).bus.closed = false)
    (same : w'.box s r = { w.box s r with bus := (w.box s r).bus.close, takers := takers })
    (woken : Woken s w w') : Posts s r w w' none

namespace Posts

theorem refl (w : World) : Posts s r w w none := .rests rfl

theorem of_post (h : w'.post = w.post) : Posts s r w w' none := .rests (box_of_post h s r)

theorem after (h : Posts s r w w' e?) (box : w''.box s r = w'.box s r) (ripens : Ripens w' w'') :
    Posts s r w w'' e? := by
  have takers : (w''.session s).takers = (w'.session s).takers := congrArg Box.takers box
  cases h with
  | rests same => exact .rests (box.trans same)
  | publishes alive same woken =>
    exact .publishes alive (box.trans same) fun accepts => (woken accepts).after takers ripens
  | closes alive same woken => exact .closes alive (box.trans same) (woken.after takers ripens)

theorem before (h : Posts s r w' w'' e?) (box : w'.box s r = w.box s r) (ripens : Ripens w w') :
    Posts s r w w'' e? := by
  have takers : (w'.session s).takers = (w.session s).takers := congrArg Box.takers box
  cases h with
  | rests same => exact .rests (same.trans box)
  | publishes alive same woken =>
    rw [box] at alive same woken
    exact .publishes alive same fun accepts => (woken accepts).before takers ripens
  | closes alive same woken =>
    rw [box] at alive same
    exact .closes alive same (woken.before takers ripens)

end Posts

section Bus

/-- A change of the bus wakes whoever waits. -/
theorem setBus_spec (known : s < w.sessions.length) (r : RelayId) (f : Bus → Bus) :
    (∃ takers, ((w.setSession s fun x => { x with bus := f x.bus }).wakeTaker s).box s r =
      { w.box s r with bus := f (w.box s r).bus, takers := takers }) ∧
      Woken s w ((w.setSession s fun x => { x with bus := f x.bus }).wakeTaker s) := by
  have session := session_setSession_self known fun x => { x with bus := f x.bus }
  constructor
  · obtain ⟨takers, same⟩ := box_wakeTaker s s r (w.setSession s fun x => { x with bus := f x.bus })
    refine ⟨takers, same.trans ?_⟩
    rw [box, session]
    rfl
  · exact (wakeTaker_woken s _).before ((congrArg Session.takers session).trans rfl) (.of_loop rfl)

theorem publish_posts (known : s < w.sessions.length) (alive : (w.session s).bus.closed = false)
    (e : Event) : Posts s r w (w.publish s e) (some e) := by
  unfold publish
  split
  · obtain ⟨⟨takers, same⟩, woken⟩ := setBus_spec known r (·.publish e)
    exact .publishes alive same fun _ => woken
  · next refused =>
    have bus : (w.box s r).bus.publish e = (w.box s r).bus := by
      rw [Bus.publish]
      exact if_neg refused
    have same : w.box s r = { w.box s r with
        bus := (w.box s r).bus.publish e, takers := (w.box s r).takers } := by rw [bus]
    exact .publishes alive same fun accepts => absurd accepts refused

theorem publish_of_closed (closed : (w.session s).bus.closed = true) (e : Event) :
    w.publish s e = w := by
  have refuses : (w.session s).bus.accepts = false := by simp [Bus.accepts, closed]
  rw [publish, refuses]
  rfl

theorem box_publish_ne (h : s ≠ s') (e : Event) (w : World) :
    (w.publish s' e).box s r = w.box s r := by
  unfold publish
  split
  · exact (box_wakeTaker_ne h r _).trans (box_setSession_ne h _ w)
  · rfl

theorem closeBus_posts (known : s < w.sessions.length) (s' : SessionId) :
    Posts s r w (w.closeBus s') none := by
  unfold closeBus
  split
  · exact .refl w
  · next going =>
    by_cases same : s = s'
    · subst same
      obtain ⟨⟨takers, same⟩, woken⟩ := setBus_spec known r (·.close)
      exact .closes (Bool.eq_false_iff.2 going) same woken
    · exact .rests ((box_wakeTaker_ne same r _).trans (box_setSession_ne same _ w))

theorem failStart_posts (known : s < w.sessions.length) (s' : SessionId) :
    Posts s r w (w.failStart s') none := by
  let w₁ := w.setSession s' fun x => { x.moveToStopped with outbox := [] }
  have known₁ : s < w₁.sessions.length := by simpa [w₁, setSession] using known
  refine (closeBus_posts known₁ s').before (box_of_post ?_ s r) (.of_loop rfl)
  exact post_setSession (fun _ => by rfl) s' w

end Bus

/-- The notification that a step hands on to a session. -/
def handed? (s : SessionId) (f : Frame) (o : Outcome Result) (w : World) : Option (Value × Value) :=
  match f, o with
  | .connection k (.read point), .ok _ =>
    if (w.connection k).owner = .session s then
      match (Wire.read point (w.backend (w.connection k).backend).output).1 with
      | .message (.map entries) => Connection.notification? entries
      | _ => none
    else none
  | _, _ => none

/-- The event that a notification is for a session, unless its events have come to their end. -/
def event? (s : SessionId) (n : Value × Value) (w : World) : Option Event :=
  if (w.session s).bus.closed then none else Session.event? (w.session s).root n

section Connection

theorem hear_posts (known : s < w.sessions.length) (method params : Value) :
    Posts s r w (w.hear s method params) (w.event? s (method, params)) := by
  unfold hear
  split
  · next m =>
    cases told : Event.ofNotification? m params (some (w.session s).key) with
    | none =>
      have event : Session.event? (w.session s).root (.text m, params) = none := told
      rw [event?, event, ite_self]
      exact .refl w
    | some e =>
      have event : Session.event? (w.session s).root (.text m, params) = some e := told
      rw [event?, event]
      by_cases closed : (w.session s).bus.closed = true
      · rw [if_pos closed]
        exact .rests (congrArg (box s r) (publish_of_closed closed e))
      · rw [if_neg closed]
        exact publish_posts known (Bool.eq_false_iff.2 closed) e
  · next other =>
    have event : Session.event? (w.session s).root (method, params) = none := by
      unfold Session.event?
      split
      · next m same => exact absurd same (other m)
      · rfl
    rw [event?, event, ite_self]
    exact .refl w

theorem box_hear_ne (h : s ≠ s') (method params : Value) (w : World) :
    (w.hear s' method params).box s r = w.box s r := by
  unfold hear
  split
  · split
    · exact box_publish_ne h _ w
    · rfl
  · rfl

theorem notify_posts (known : s < w.sessions.length) (method params : Value) :
    Posts s r w (w.notify k method params)
      (if (w.connection k).owner = .session s then w.event? s (method, params) else none) := by
  unfold notify
  split
  · next s' owner =>
    by_cases same : s = s'
    · subst same
      rw [if_pos owner]
      exact hear_posts known method params
    · rw [owner, if_neg fun h => same (Connection.Owner.session.inj h).symm]
      exact .rests (box_hear_ne same method params w)
  · next owner =>
    rw [owner, if_neg fun h => nomatch h]
    exact .rests rfl

theorem dispatch_posts (known : s < w.sessions.length) {message : Entries}
    (told : w.dispatch k message = .ok w') :
    Posts s r w w' (if (w.connection k).owner = .session s then
      (Connection.notification? message).bind (w.event? s) else none) := by
  have silent (none : Connection.notification? message = none) :
      (if (w.connection k).owner = .session s then
        (Connection.notification? message).bind (w.event? s) else Option.none) = Option.none := by
    rw [none, Option.bind_none, ite_self]
  unfold dispatch at told
  dsimp only at told
  split at told
  · next method =>
    have none : Connection.notification? message = none := by
      simp [Connection.notification?, method]
    rw [silent none]
    split at told
    · cases told
      exact .refl w
    · exact .of_post (steady_post.respond k w told)
  · next method =>
    cases told
    split
    · next id =>
      have some : Connection.notification? message =
          some ((Entries.field? "method" message).getD .null,
            (Entries.field? "params" message).getD .null) := by
        have other : (Entries.field? "method" message).getD .null ≠ .null := method
        simp [Connection.notification?, id, other]
      rw [some, Option.bind_some]
      exact notify_posts known _ _
    · next id =>
      have none : Connection.notification? message = none := by
        simp [Connection.notification?, id]
      rw [silent none]
      exact .of_post (steady_post.startAnswer k w _ _ _)

theorem connectionLost_posts (known : s < w.sessions.length) (s' : SessionId) :
    Posts s r w (w.connectionLost s') none := by
  unfold connectionLost
  split
  · exact .refl w
  · let w₁ := w.setSession s' fun x => { x.moveToStopped with outbox := [] }
    have stopped : w₁.post = w.post :=
      post_setSession (fun _ => by rfl) s' w
    have told (watchers : List Session.Watcher) (w : World) :
        (watchers.foldl (fun w watcher => w.tellExit s' watcher) w).post = w.post ∧
          (watchers.foldl (fun w watcher => w.tellExit s' watcher) w).loop = w.loop := by
      constructor
      · refine foldl_reading (fun w watcher => ?_) watchers w
        unfold tellExit
        split <;> rfl
      · refine foldl_reading (fun w watcher => ?_) watchers w
        unfold tellExit
        split <;> rfl
    have known₁ : s < w₁.sessions.length := by simpa [w₁, setSession] using known
    have closed : Posts s r w (w₁.closeBus s') none :=
      (closeBus_posts known₁ s').before (box_of_post stopped s r) (.of_loop rfl)
    obtain ⟨post, loop⟩ := told ((w₁.closeBus s').session s').watchers (w₁.closeBus s')
    have heard := closed.after (box_of_post post s r) (.of_loop loop)
    let f := Frame.session s' (.shutdown Session.killGrace)
    refine (heard.after (box_of_post (steady_post.spawn _ f) s r) (.spawn f _)).after
      (box_of_post ?_ s r) (.of_loop rfl)
    exact post_setSession (fun _ => by rfl) s' _

theorem endConnection_posts (known : s < w.sessions.length) (k : ConnectionId) :
    Posts s r w (w.endConnection k) none := by
  have settled (k : ConnectionId) (pending : List (Nat × CellId)) (w : World) :
      Ripens w (pending.foldl (fun w p => w.onLoop (·.settle p.2 (.error (w.ended k)))) w) := by
    induction pending generalizing w with
    | nil => exact .of_loop rfl
    | cons p rest ih => exact (Ripens.settle p.2 _ w).trans (ih _)
  unfold endConnection
  dsimp only
  split
  · exact .refl w
  · let w₁ := w.setConnection k fun x => { x with closed := true, pending := [] }
    have post := steady_post.settleAll k w₁ (w.connection k).pending
    have ripens := settled k (w.connection k).pending w₁
    split
    · next s' _ =>
      have sessions := (steady_sessions.settleAll k w₁ (w.connection k).pending)
      have lost := connectionLost_posts (s := s) (r := r) (by rw [sessions]; exact known) s'
      exact lost.before (box_of_post post s r) ((Ripens.of_loop rfl : Ripens w w₁).trans ripens)
    · exact .of_post post
    · exact .of_post post

/-- A step of a task that reads. -/
theorem readOn_posts (known : s < w.sessions.length) (k : ConnectionId) (point : Wire.Point)
    (x : Result) : Posts s r w (w.readOn k point).2
      ((w.handed? s (.connection k (.read point)) (.ok x)).bind (w.event? s)) := by
  have silent : (if (w.connection k).owner = .session s then (none : Option (Value × Value))
      else none).bind (w.event? s) = none := by
    rw [ite_self]
    rfl
  let w₁ := w.setBackend (w.connection k).backend fun y =>
    { y with output := (Wire.read point (w.backend (w.connection k).backend).output).2 }
  have read : w₁.box s r = w.box s r := rfl
  unfold readOn handed?
  dsimp only
  split
  · next entries said =>
    rw [said]
    dsimp only
    split
    · next w₂ told =>
      have same : (if (w.connection k).owner = .session s then Connection.notification? entries
          else none).bind (w.event? s) = if (w.connection k).owner = .session s then
            (Connection.notification? entries).bind (w.event? s) else none := by
        split <;> rfl
      rw [same]
      exact (dispatch_posts (w := w₁) known told).before read (.of_loop rfl)
    · next e told =>
      have none : Connection.notification? entries = none := by
        unfold dispatch at told
        dsimp only at told
        split at told
        · next method => simp [Connection.notification?, method]
        · cases told
      rw [none, silent]
      exact (endConnection_posts (w := w₁) known k).before read (.of_loop rfl)
  · next v other said =>
    rw [said]
    cases v with
    | map entries => exact absurd rfl (other entries)
    | _ => exact silent ▸ .rests read
  · next said =>
    rw [said]
    exact silent ▸ .rests read
  · next said =>
    rw [said]
    exact silent ▸ (endConnection_posts (w := w₁) known k).before read (.of_loop rfl)
  · next said =>
    rw [said]
    exact silent ▸ .rests rfl

theorem resumeConnection_posts (known : s < w.sessions.length) (k : ConnectionId)
    (p : Connection.Stage) (o : Outcome Result) : Posts s r w (w.resumeConnection k p o).2
      ((w.handed? s (.connection k p) o).bind (w.event? s)) := by
  unfold resumeConnection
  split
  · exact .of_post (steady_post.drain k w)
  · exact .of_post (Steady.drained k w)
  · exact .of_post (steady_post.sendNotification k w _ _)
  · exact .of_post (steady_post.sendRequest k w _ _ _)
  · exact .refl w
  · exact .of_post rfl
  · exact .of_post rfl
  · exact readOn_posts known k _ _
  · exact endConnection_posts known k
  · exact .of_post (steady_post.answer k w _ _ _)
  · exact .refl w
  · exact .of_post rfl
  · exact .refl w
  · exact .of_post (steady_post.sendAnswer k w _ _)
  · exact .refl w
  · exact .refl w
  · exact .of_post (steady_post.closeConnection k w)
  · exact .of_post (steady_post.stopAnswers k w)
  · exact .of_post (steady_post.stopAnswers k w)
  · exact (endConnection_posts known k).after rfl (.of_loop rfl)
  · next e _ _ _ _ _ _ =>
    have silent : w.handed? s (.connection k p) (.error e) = none := by cases p <;> rfl
    rw [silent]
    exact .refl w

end Connection

section Session

theorem startSession_posts (known : s < w.sessions.length) (s' : SessionId) :
    Posts s r w (w.startSession s').2 none := by
  unfold startSession
  split
  · exact .refl w
  · next session moved =>
    have same : (w.setSession s' fun _ => session).post = w.post := by
      rw [Session.move] at moved
      split at moved
      · cases moved
        rw [setSession_congr (g := fun x => { x with state := .starting }) rfl]
        exact post_setSession (fun _ => by rfl) s' w
      · cases moved
    let w₁ := w.setSession s' fun _ => session
    have known₁ : s < w₁.sessions.length := by simpa [w₁, setSession] using known
    dsimp only
    split
    · exact .of_post same
    split
    · exact (failStart_posts known₁ s').before (box_of_post same s r) (.of_loop rfl)
    · next folder _ _ =>
      have asked := (steady_post.requestBackend w₁ session.command folder).trans same
      split
      · exact .of_post asked
      · exact .of_post ((steady_post.sleep _ _).trans asked)

theorem launched_posts (known : s < w.sessions.length) (s' : SessionId) (b : BackendId) :
    Posts s r w (w.launched s' b).2 none := by
  unfold launched
  split
  · exact failStart_posts known s'
  · dsimp only
    let w₁ := (w.beginBackend b).setSession s' fun x => { x with backend := some b }
    have begun : w₁.post = w.post :=
      (post_setSession (fun _ => by rfl) s' _).trans (steady_post.backends w _)
    have connected : (w₁.connect s' b).2.post = w.post := by
      refine Eq.trans (post_setSession (fun _ => by rfl) s' _) (Eq.trans ?_ begun)
      exact (steady_post.startReading _ _).trans (steady_post.connections w₁ _)
    split
    · exact .of_post begun
    split
    · exact .of_post connected
    · exact .of_post connected

theorem post_abandon (s : SessionId) (e : Failure) (w : World) : (w.abandon s e).2.post = w.post := by
  unfold abandon
  split
  · rfl
  split
  · rfl
  · exact post_setSession (fun _ => by rfl) s w

theorem post_flush (s : SessionId) (k : ConnectionId) (w : World) : (w.flush s k).post = w.post := by
  refine (post_setSession (fun _ => by rfl) s _).trans ?_
  refine (foldl_reading (fun w n => steady_post.write k w _) _ _).trans ?_
  exact post_setSession (fun _ => by rfl) s w

theorem post_completeStart (s : SessionId) (w : World) : (w.completeStart s).2.post = w.post := by
  have started : (w.setSession s fun x => { x with started := true }).post = w.post :=
    post_setSession (fun _ => by rfl) s w
  unfold completeStart
  split
  · rfl
  dsimp only
  split
  · exact started
  split
  · exact (post_setSession (fun _ => by rfl) s _).trans started
  · exact (post_flush s _ _).trans started

theorem post_notifySession (s : SessionId) (method : String) (params : Value) (w : World) :
    (w.notifySession s method params).2.post = w.post := by
  unfold notifySession
  dsimp only
  split
  · exact post_setSession (fun _ => by rfl) s w
  split
  · rfl
  · rfl

theorem post_stopSession (s : SessionId) (timeout : Timeout) (w : World) :
    (w.stopSession s timeout).2.post = w.post := by
  have marked : (w.setSession s fun x => { x with stopping := true }).post = w.post :=
    post_setSession (fun _ => by rfl) s w
  have stopped : ((w.setSession s fun x => { x with stopping := true }).setSession s fun x =>
      { x.moveToStopped with outbox := [] }).post = w.post :=
    (post_setSession (fun _ => by rfl) s _).trans marked
  unfold stopSession
  dsimp only
  split
  · rfl
  split
  · exact marked
  split
  · exact stopped
  split
  · split <;> exact stopped
  · exact stopped

theorem box_takeEvent_ne (h : s ≠ s') (taker : Session.Consumer) (w : World) :
    (w.takeEvent s' taker).2.box s r = w.box s r := by
  unfold takeEvent
  split
  · exact box_setSession_ne h _ w.newCell.2
  · next e bus _ =>
    have taken : (w.setSession s' fun x => { x with bus := bus }).box s r = w.box s r :=
      box_setSession_ne h _ w
    dsimp only
    split <;> exact taken

theorem box_leaveTakers_ne (h : s ≠ s') (c : CellId) (w : World) :
    (w.leaveTakers s' c).box s r = w.box s r := by
  have left : (w.setSession s' fun x => { x with takers := x.takers.filter (· ≠ c) }).box s r =
      w.box s r := box_setSession_ne h _ w
  unfold leaveTakers
  dsimp only
  split
  all_goals
    split
    · exact left
    · exact (box_wakeTaker_ne h r _).trans left

theorem resumeSession_posts (known : s < w.sessions.length) {p : Session.Stage}
    (idle : (Frame.session s' p).takesFor s r = false) (o : Outcome Result) :
    Posts s r w (w.resumeSession s' p o).2 none := by
  have other {taker : Session.Consumer} (h : (decide (s' = s) || decide (taker = .relay r)) = false) :
      s ≠ s' := by
    rintro rfl
    simp at h
  unfold resumeSession
  split
  · exact startSession_posts known s'
  · exact launched_posts known s' _
  · exact .of_post (Steady.callConnection s' w _ _)
  · exact .of_post (post_abandon s' _ w)
  · exact .of_post (post_abandon s' _ w)
  · exact .of_post (post_completeStart s' w)
  · exact failStart_posts known s'
  · exact .refl w
  · exact .refl w
  · exact .of_post (post_notifySession s' _ _ w)
  · exact .refl w
  · exact .refl w
  · exact .of_post (post_stopSession s' _ w)
  · exact .of_post (Steady.callConnection s' w _ _)
  · exact .refl w
  · split <;> exact .refl w
  · split <;> exact .refl w
  · exact .of_post (steady_post.shutdown s' w _)
  · exact .refl w
  · exact .refl w
  · exact .refl w
  · exact .refl w
  · exact .of_post (steady_post.terminateSession s' w)
  · exact .of_post ((steady_post.awaitProcess s' _ _ _).trans (steady_post.killSession s' w))
  · exact .of_post (Steady.callConnection s' w _ _)
  · exact closeBus_posts known s'
  · exact .rests (box_takeEvent_ne (other idle) _ w)
  · exact .refl w
  · exact .rests (box_leaveTakers_ne (other idle) _ w)
  · exact .refl w

end Session

section Relay

variable {r' : RelayId}

theorem box_showStatus_ne (h : r ≠ r') (f : StatusIndicator → StatusIndicator) (w : World) :
    ((w.setIndicator r' f).showStatus r').2.box s r = w.box s r := by
  show (w.setIndicator r' f).box s r = w.box s r
  have same : (w.setIndicator r' f).relay r = w.relay r := by
    rcases relay_setRelay r' r (fun x => { x with indicator := f x.indicator }) w with
      same | ⟨same, -⟩
    · exact same
    · exact absurd same h
  rw [box, same]
  rfl

theorem post_runCommand (r : RelayId) (name data : Value) (w : World) :
    (w.runCommand r name data).2.post = w.post := by
  unfold runCommand
  split
  · rfl
  split
  · unfold runLocal
    split <;> rfl
  · rfl

theorem post_decorate (r : RelayId) (uri items : Value) (kind : String)
    (item : Entries → Except Failure Decoration) (w : World) :
    (w.decorate r uri items kind item).2.post = w.post := by
  unfold decorate
  dsimp only
  split <;> rfl

theorem box_applyEvent_ne (h : r ≠ r') (what : Happening) (w : World) :
    (w.applyEvent r' what).2.box s r = w.box s r := by
  cases what with
  | command name data => exact box_of_post (post_runCommand r' name data w) s r
  | statusShow => exact box_showStatus_ne h _ w
  | statusHide => exact box_showStatus_ne h _ w
  | statusReport text tooltip => exact box_showStatus_ne h _ w
  | hint uri edits => exact box_of_post (post_decorate r' uri edits "hint" Relay.hint w) s r
  | comment uri ranges => exact box_of_post (post_decorate r' uri ranges "comment" Relay.comment w) s r
  | other name => rfl

theorem box_dispatchEvent_ne (h : r ≠ r') (e : Event) (w : World) :
    (w.dispatchEvent r' e).box s r = w.box s r := by
  have applied := box_applyEvent_ne (s := s) h e.what w
  unfold dispatchEvent
  split
  · next same => rwa [same] at applied
  · next same =>
    rw [same] at applied
    exact applied

theorem post_spanOf (r : RelayId) (what : Happening) (w : World) :
    (w.spanOf r what).2.post = w.post := by
  unfold spanOf
  dsimp only
  split
  · split
    · rfl
    split <;> rfl
  · rfl

theorem box_dispatchAfter_ne (h : r ≠ r') (e : Event) (span : Nat) (w : World) :
    (w.dispatchAfter r' e span).2.box s r = w.box s r := by
  cases span with
  | zero => exact box_dispatchEvent_ne h e w
  | succ span => rfl

theorem post_shown {o : Outcome Result} (h : w.shown o = .ok w') : w'.post = w.post := by
  unfold shown at h
  split at h
  · cases h
    rfl
  · split at h
    · cases h
      rfl
    · cases h

theorem resumeRelay_posts {p : Relay.Stage} (idle : (Frame.relay r' p).takesFor s r = false)
    (o : Outcome Result) : Posts s r w (w.resumeRelay r' p o).2 none := by
  have other (h : decide (r' = r) = false) : r ≠ r' := by
    rintro rfl
    simp at h
  unfold resumeRelay
  split
  · next e _ =>
    unfold relayEvent
    exact .rests ((box_dispatchAfter_ne (other idle) e _ _).trans
      (box_of_post (post_spanOf r' e.what w) s r))
  · exact .rests (box_dispatchAfter_ne (other idle) _ _ w)
  · unfold closeRelay
    split
    · exact .refl w
    split
    · exact .refl w
    · exact .of_post rfl
  · exact .refl w
  · exact .refl w
  · exact .of_post (post_setRelay (fun _ => by rfl) r' w)
  · split
    · next same => exact .of_post (post_shown same)
    · exact .refl w
  · exact .refl w
  · split
    · next same => exact .of_post (post_shown same)
    · exact .refl w
  · exact .refl w

end Relay

section Roster

theorem box_addSession (known : s < w.sessions.length) (x : Session) (r : RelayId) :
    (w.addSession x).2.box s r = w.box s r := by
  have same : (w.addSession x).2.session s = w.session s := by
    simp [addSession, session, List.getD_eq_getElem?_getD, List.getElem?_append_left known]
  rw [box, same]
  rfl

theorem box_addRelay (known : r < w.relays.length) (x : Relay) (s : SessionId) :
    (w.addRelay x).2.box s r = w.box s r := by
  have same : (w.addRelay x).2.relay r = w.relay r := by
    simp [addRelay, relay, List.getD_eq_getElem?_getD, List.getElem?_append_left known]
  rw [box, same]
  rfl

theorem box_createSession (known : s < w.sessions.length) (root : Option Root) (r : RelayId) :
    (w.createSession root).2.box s r = w.box s r := by
  unfold createSession
  split
  · rfl
  dsimp only
  split
  · rfl
  · refine (box_of_post (post_setSession (fun _ => by rfl) _ _) s r).trans ?_
    exact box_addSession known _ r

theorem box_reportLaunch (e : Failure) (w : World) : (w.reportLaunch e).2.box s r = w.box s r := by
  unfold reportLaunch
  split <;> rfl

theorem box_ensure (known : s < w.sessions.length) (root : Option Root) (r : RelayId) :
    (w.ensure root).2.box s r = w.box s r := by
  have start (w₁ : World) (box : w₁.box s r = w.box s r) (known : s < w₁.sessions.length)
      {step : Step} (fails : ∀ e w₂, w₁.createSession root = (.error e, w₂) → step = w₂.reportLaunch e)
      (starts : ∀ s' w₂, w₁.createSession root = (.ok s', w₂) →
        step.2 = w₂.setRoster (·.insert (Session.keyOf root) s')) : step.2.box s r = w.box s r := by
    have made := (box_createSession known root r).trans box
    rcases created : w₁.createSession root with ⟨result, w₂⟩
    rw [created] at made
    cases result with
    | error e =>
      rw [fails e w₂ created]
      exact (box_reportLaunch e w₂).trans made
    | ok s' =>
      rw [starts s' w₂ created]
      exact made
  unfold ensure
  dsimp only
  split
  · split
    · rfl
    · exact start (w.setRoster (·.remove (Session.keyOf root))) rfl known
        (fun _ _ created => by rw [created]) fun _ _ created => by rw [created]
  · exact start w rfl known (fun _ _ created => by rw [created]) fun _ _ created => by rw [created]

theorem box_addSessionRelay (known : r < w.relays.length) (s s' : SessionId) :
    (w.addSessionRelay s').box s r = w.box s r := by
  let x := Relay.make s' [(Workspace.configCommand, .configure)] Workspace.statusClickCommand
  let w₁ := (w.addRelay x).2.setWorkspace fun ws =>
    { ws with relays := Workspace.putRelay (w.session s').key w.relays.length ws.relays }
  have added : w₁.box s r = w.box s r := box_addRelay known x s
  have begun : (w₁.startRelay w.relays.length).post = w₁.post := post_setRelay (fun _ => by rfl) _ _
  exact (box_of_post begun s r).trans added

theorem box_sessionStarted (known : r < w.relays.length) (key : String) (s s' : SessionId)
    (o : Outcome Result) : (w.sessionStarted key s' o).2.box s r = w.box s r := by
  unfold sessionStarted
  split
  · split
    · rfl
    · dsimp only
      unfold runHook
      split
      · rfl
      · rfl
      · exact box_addSessionRelay (w := w.setRoster fun r => { r with lastStarted := some key })
          known s s'
  · dsimp only
    split <;> exact box_reportLaunch _ _
  · rfl

theorem post_stopAll (timeout : Timeout) (w : World) : (w.stopAll timeout).2.post = w.post := by
  unfold stopAll
  dsimp only
  split
  · rfl
  · have spawned := steady_post.spawnStops (w.setRoster fun r =>
      { r with sessions := [], lastStarted := none }) timeout w.roster.sessions
    cases timeout <;> exact spawned

theorem resumeRoster_posts (known : s < w.sessions.length) (known' : r < w.relays.length)
    (p : Roster.Stage) (o : Outcome Result) : Posts s r w (w.resumeRoster p o).2 none := by
  unfold resumeRoster
  split
  · exact .rests (box_ensure known _ r)
  · exact .rests (box_sessionStarted known' _ s _ _)
  · unfold stopRoot
    dsimp only
    split
    · exact .refl w
    · exact .of_post rfl
  · exact .of_post (post_stopAll _ w)
  · dsimp only
    split
    · split
      · exact .of_post (steady_post.killLate _ _)
      · exact .of_post (steady_post.killLate _ _)
    · split
      · exact .of_post rfl
      · exact .refl w
  · split
    · exact .refl w
    · exact .refl w
  · exact .refl w

end Roster

section Workspace

theorem post_forgetView (uri : String) (w : World) : (w.forgetView uri).post = w.post := by
  refine (foldl_reading (fun w e => ?_) _ _).trans rfl
  exact post_setRelay (fun _ => by rfl) e.2 w

theorem post_resumeWorkspace (p : Workspace.Stage) (o : Outcome Result) (w : World) :
    (w.resumeWorkspace p o).2.post = w.post := by
  unfold resumeWorkspace
  split
  · unfold activate
    dsimp only
    split
    · rfl
    · split <;> rfl
  · rfl
  · unfold openEach
    split <;> rfl
  · unfold openDocument
    split
    · rfl
    · split <;> rfl
  · rfl
  · unfold startEach
    split
    · rfl
    · dsimp only
      split <;> rfl
  · unfold startEach
    split
    · rfl
    · dsimp only
      split <;> rfl
  · unfold startEach
    split
    · rfl
    · dsimp only
      split <;> rfl
  · unfold deactivate
    split <;> rfl
  · rfl
  · unfold closeEach
    split
    · rfl
    · dsimp only
      split
      · exact steady_post.cancelAll w _
      · exact (steady_post.gather _ _).trans (steady_post.cancelAll w _)
  · rfl
  · unfold changeFolders
    split
    · dsimp only
      split <;> rfl
    · rfl
  · rfl
  · unfold showView
    split
    · rfl
    · dsimp only
      split <;> rfl
  · exact foldl_reading (fun w uri => post_forgetView uri w) _ w
  · rfl
  · rfl
  · unfold clickStatus
    dsimp only
    split <;> rfl
  · rfl
  · unfold reportEach
    split
    · rfl
    · split
      · rfl
      · split <;> rfl
  · rfl
  · rfl
  · split <;> rfl
  · rfl
  · rfl
  · rfl
  · rfl
  · rfl
  · rfl
  · rfl
  · unfold receive
    split
    · rfl
    · rfl
    · split
      · rfl
      · split
        · rfl
        · rfl
        · unfold forward
          split <;> rfl
  · unfold forwarded
    split
    · rfl
    · split <;> rfl
  · rfl

end Workspace

/-- What a step of a task that takes nothing for a relay or from its session does to their events. -/
theorem resume_posts (known : s < w.sessions.length) (known' : r < w.relays.length) (t : TaskId)
    {f : Frame} (idle : f.takesFor s r = false) (o : Outcome Result) :
    Posts s r w (w.resume t f o).2 ((w.handed? s f o).bind (w.event? s)) := by
  cases f with
  | wait p => exact .of_post (steady_post.resumeWait t w p o)
  | pass => exact .refl w
  | connection k p => exact resumeConnection_posts known k p o
  | session s' p => exact resumeSession_posts known idle o
  | relay r' p => exact resumeRelay_posts idle o
  | roster p => exact resumeRoster_posts known known' p o
  | workspace p => exact .of_post (post_resumeWorkspace p o w)

end World
end LanguageClient
