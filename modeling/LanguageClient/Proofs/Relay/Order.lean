import LanguageClient.Proofs.Client.Dues
import LanguageClient.Proofs.Event.Delivery
import LanguageClient.Proofs.Relay.Applying
import LanguageClient.Proofs.Relay.Takers
import LanguageClient.Proofs.World.Attentive

/-!
A relay applies the events of its session one after the other, in the order in which the session's
connection hands them on, whatever becomes of each of them.
-/

namespace LanguageClient

open Schedule

namespace World

/-- The event that a relay begins with at a step. -/
def begins? (r : RelayId) (f : Frame) (o : Outcome Result) : Option Event :=
  match f, o with
  | .relay r' (.dispatch e), .ok _ => if r' = r then some e else none
  | _, _ => none

/-- The event that a relay applies at a step, and the world in which it does. -/
def applies? (r : RelayId) (f : Frame) (o : Outcome Result) (w : World) : Option (Event × World) :=
  match f, o with
  | .relay r' (.dispatch e), .ok _ =>
    if r' = r ∧ (w.spanOf r e.what).1 = 0 then some (e, (w.spanOf r e.what).2) else none
  | .relay r' (.dispatchLater e 0), .ok _ => if r' = r then some (e, w) else none
  | _, _ => none

end World

namespace Moment

/-- The notification that a session's connection hands on to it. -/
def handed? (s : SessionId) (m : Moment) : Option (Value × Value) :=
  m.top?.bind fun (f, o) => m.world.handed? s f o

/-- The event that a session hears of. -/
def heard? (s : SessionId) (m : Moment) : Option Event := (m.handed? s).bind (m.world.event? s)

/-- An event, or the end of events, comes to a bus that is full. -/
def crowds (s : SessionId) (m : Moment) : Bool :=
  (m.world.session s).bus.isFull && ((m.heard? s).isSome ||
    (!(m.world.session s).bus.closed && (m.world.step.session s).bus.closed))

def begins? (r : RelayId) (m : Moment) : Option Event :=
  m.top?.bind fun (f, o) => World.begins? r f o

def applies? (r : RelayId) (m : Moment) : Option (Event × World) :=
  m.top?.bind fun (f, o) => { m.world with current := none }.applies? r f o

end Moment

namespace World

/-- What the connection of a session hands on to it before its events come to their end. -/
def notifications (s : SessionId) (ms : List Moment) : List (Value × Value) :=
  ms.filterMap fun m => if (m.world.session s).bus.closed then none else m.handed? s

/-- The events that a relay has begun with, in order. -/
def begunWith (r : RelayId) (ms : List Moment) : List Event := ms.filterMap (·.begins? r)

/-- The events that a relay has applied, in order. -/
def applied (r : RelayId) (ms : List Moment) : List Event :=
  ms.filterMap fun m => (m.applies? r).map Prod.fst

/-- The notifications that are events for a session of a root. -/
def heard (root : Option Root) (s : SessionId) (ms : List Moment) : List Event :=
  (notifications s ms).filterMap (Session.event? root)

variable {may : Frame → Prop} {R : CellId → Prop} {w w' w₂ : World} {t u : TaskId} {f g : Frame}
variable {o : Outcome Result} {rest frames : List Frame} {flow : Flow Frame Result} {c : CellId}
variable {s : SessionId} {r : RelayId} {m : Moment} {ms : List Moment} {root : Option Root}
variable {e? : Option Event} {e : Event} {es hand late front all : List Event}

section History

theorem heard_snoc (same : (m.world.session s).root = root) :
    heard root s (ms ++ [m]) = heard root s ms ++ (m.heard? s).toList := by
  subst same
  have last : ([m].filterMap fun m => if (m.world.session s).bus.closed then none else m.handed? s).filterMap
      (Session.event? (m.world.session s).root) = (m.heard? s).toList := by
    unfold Moment.heard?
    cases handed : m.handed? s with
    | none => simp [handed]
    | some n =>
      by_cases closed : (m.world.session s).bus.closed = true
      · simp [event?, closed]
      · cases known : Session.event? (m.world.session s).root n <;> simp [handed, event?, closed, known]
  rw [heard, notifications, List.filterMap_append, List.filterMap_append, last]
  rfl

theorem begunWith_snoc (r : RelayId) (ms : List Moment) (m : Moment) :
    begunWith r (ms ++ [m]) = begunWith r ms ++ (m.begins? r).toList := by
  rw [begunWith, List.filterMap_append]
  cases h : m.begins? r <;> simp [begunWith, h]

theorem applied_snoc (r : RelayId) (ms : List Moment) (m : Moment) :
    applied r (ms ++ [m]) = applied r ms ++ ((m.applies? r).map Prod.fst).toList := by
  rw [applied, List.filterMap_append]
  cases h : m.applies? r <;> simp [applied, h]

end History

section Posting

/-- What somebody else's step does to a session's events. -/
theorem Strides.posts (strides : Strides R w w' t f o rest frames flow w₂)
    (known : s < w.sessions.length) (known' : r < w.relays.length)
    (idle : f.takesFor s r = false) :
    Posts s r w w' ((w.handed? s f o).bind (w.event? s)) := by
  have posts := resume_posts (w := { w with current := none }) known known' t idle o
  rw [strides.steps] at posts
  have kept := strides.lands.aside.kept .none
  have same : w'.box s r = w₂.box s r := by
    rw [strides.lands.aside.same]
    rfl
  have ripens : Ripens w₂ w' := by
    refine ⟨fun c => ?_, kept.cells⟩
    exact (kept.settles c).imp_right fun ⟨before, o, after, _⟩ => ⟨before, o, after, trivial⟩
  exact (posts.after same ripens).before rfl (.of_loop rfl)

/-- Everything that a session has heard has been taken, up to some events, or is still in its bus. -/
def Stocks (s : SessionId) (heard taken : List Event) (w : World) : Prop :=
  ∃ es, (w.session s).bus.Holds es ∧ heard = taken ++ es

theorem Stocks.later (h : w.Stocks s all front) (posts : Posts s r w w' e?)
    (room : e?.isSome = true ∨ (w'.session s).bus.closed ≠ (w.session s).bus.closed →
      (w.session s).bus.isFull = false) : w'.Stocks s (all ++ e?.toList) front := by
  obtain ⟨es, holds, rfl⟩ := h
  cases posts with
  | rests same =>
    have bus : (w'.session s).bus = (w.session s).bus := congrArg Box.bus same
    exact ⟨es, bus ▸ holds, by simp⟩
  | @publishes e _ alive same =>
    have bus : (w'.session s).bus = (w.session s).bus.publish e := congrArg Box.bus same
    exact ⟨es ++ [e], bus ▸ holds.publish alive (room (.inl rfl)), by simp⟩
  | closes alive same =>
    have bus : (w'.session s).bus = (w.session s).bus.close := congrArg Box.bus same
    have alive : (w.session s).bus.closed = false := alive
    refine ⟨es, bus ▸ holds.close alive (room (.inr ?_)), by simp⟩
    rw [bus, Bus.closed_close, alive]
    simp

/-- Nobody waits for an event of a session, unless by some cells. -/
def Unawaited (s : SessionId) (but : CellId → Prop) (w : World) : Prop :=
  ∀ d ∈ (w.session s).takers, but d ∨ w.loop.isSettled d = true

theorem Posts.takers (posts : Posts s r w w' e?)
    (room : e?.isSome = true → (w.session s).bus.isFull = false) :
    (w'.session s).takers = (w.session s).takers ∧ (w'.session s).bus = (w.session s).bus ∨
      Woken s w w' := by
  cases posts with
  | rests same => exact .inl ⟨congrArg Box.takers same, congrArg Box.bus same⟩
  | publishes alive same woken =>
    have alive : (w.session s).bus.closed = false := alive
    refine .inr (woken ?_)
    show (w.session s).bus.accepts = true
    simp [Bus.accepts, alive, room rfl]
  | closes _ _ woken => exact .inr woken

theorem Unawaited.later {but : CellId → Prop} (h : w.Unawaited s but) (moved : Moved w w')
    (takers : (w'.session s).takers ⊆ (w.session s).takers) : w'.Unawaited s but := by
  intro d hd
  exact (h d (takers hd)).imp_right fun settled => Loop.isSettled_mono moved.settles settled

end Posting

/-- Where a relay's task goes on that waits for nothing: with what in hand, and what of that it has
begun with. -/
inductive Place (s : SessionId) (r : RelayId) : List Frame → (hand late : List Event) → Prop
  | takes : Place s r [.session s (.consume (.relay r))] [] []
  | applies (e : Event) :
    Place s r [.relay r (.dispatch e), .session s (.consume (.relay r))] [e] []
  | delays (e : Event) (span : Nat) :
    Place s r [.relay r (.dispatchLater e span), .session s (.consume (.relay r))] [e] [e]

/-- If a task runs, it goes on with what has not failed. -/
def Fine (t : TaskId) (w : World) : Prop := ∀ o, w.current = some (t, o) → ∃ x, o = .ok x

theorem Fine.of_runs {x : Result} (runs : w.current = some (t, .ok x)) : w.Fine t := by
  intro o runs'
  rw [runs] at runs'
  cases runs'
  exact ⟨x, rfl⟩

theorem Fine.of_rests (rests : ∀ o, w.current ≠ some (t, o)) : w.Fine t :=
  fun o runs => absurd runs (rests o)

theorem Fine.of_idle (idle : w.current = none) : w.Fine t := .of_rests fun o => by simp [idle]

/-- What has been begun with has been heard in this order, and applied before the next. -/
def Ordered (heard begun applied : List Event) : Prop :=
  ∃ late rest, heard = begun ++ rest ∧ begun = applied ++ late ∧ late.length ≤ 1

/-- How far a relay's task has come. -/
inductive Phase (s : SessionId) (r : RelayId) (t : TaskId) (ms : List Moment) (w : World)
    (heard begun applied : List Event) : Prop
  | goesOn {stack : List Frame} {hand late : List Event} (place : Place s r stack hand late)
    (top : w.stack t = stack) (fine : w.Fine t)
    (waits : w.loop.waits t = none) (unawaited : w.Unawaited s fun _ => False)
    (stocks : w.Stocks s heard (applied ++ hand)) (begun_ : begun = applied ++ late)
  | awaits {c : CellId} (top : w.stack t = [.session s (.consumeAwoken (.relay r) c)])
    (typed : Typed ms w .loose c)
    (state : (w.loop.waits t = some c ∧ ∀ o, w.current ≠ some (t, o)) ∨
      (∃ x, w.current = some (t, .ok x)) ∧ w.loop.isSettled c = true)
    (unawaited : w.Unawaited s (· = c))
    (empty : w.loop.isSettled c = false → c ∈ (w.session s).takers ∧ (w.session s).bus.queue = [])
    (stocks : w.Stocks s heard applied) (begun_ : begun = applied)
  | finished (top : w.stack t = []) (fine : w.Fine t)
    (closed : (w.session s).bus.closed = true) (heard_ : heard = applied) (begun_ : begun = applied)
  | givenUp (top : ∀ f ∈ w.stack t, f.takesFor s r = true)
    (state : w.current = some (t, .error .cancelled) ∨
      w.loop.outcome? (w.loop.taskCell t) = some (.error .cancelled))
    (ordered : Ordered heard begun applied)

variable {begun applied : List Event}

theorem Place.ordered {stack : List Frame} (place : Place s r stack hand late)
    (stocks : w.Stocks s all (applied ++ hand)) (begun_ : begun = applied ++ late) :
    Ordered all begun applied := by
  obtain ⟨es, -, rfl⟩ := stocks
  subst begun_
  cases place with
  | takes => exact ⟨[], es, by simp, rfl, by simp⟩
  | applies e => exact ⟨[], e :: es, by simp, rfl, by simp⟩
  | delays e span => exact ⟨[e], es, by simp, rfl, by simp⟩

namespace Phase

theorem ordered (h : Phase s r t ms w all begun applied) : Ordered all begun applied := by
  cases h with
  | goesOn place _ _ _ _ stocks begun_ => exact place.ordered stocks begun_
  | awaits _ _ _ _ _ stocks begun_ =>
    obtain ⟨es, -, rfl⟩ := stocks
    exact ⟨[], es, by rw [begun_], by rw [begun_, List.append_nil], by simp⟩
  | finished _ _ _ heard_ begun_ =>
    exact ⟨[], [], by rw [heard_, begun_, List.append_nil], by rw [begun_, List.append_nil], by simp⟩
  | givenUp _ _ ordered => exact ordered

end Phase

theorem Ordered.later (h : Ordered all begun applied) (more : List Event) :
    Ordered (all ++ more) begun applied := by
  obtain ⟨late, rest, rfl, same, few⟩ := h
  exact ⟨late, rest ++ more, List.append_assoc .., same, few⟩

theorem Place.ne_nil {stack : List Frame} (place : Place s r stack hand late) : stack ≠ [] := by
  cases place <;> exact List.cons_ne_nil _ _

theorem Place.takes_for {stack : List Frame} (place : Place s r stack hand late) :
    ∀ f ∈ stack, f.takesFor s r = true := by
  have consume : (Frame.session s (.consume (.relay r))).takesFor s r = true := by
    simp [Frame.takesFor]
  cases place with
  | takes => exact List.forall_mem_singleton.2 consume
  | applies e =>
    exact List.forall_mem_cons.2 ⟨by simp [Frame.takesFor], List.forall_mem_singleton.2 consume⟩
  | delays e span =>
    exact List.forall_mem_cons.2 ⟨by simp [Frame.takesFor], List.forall_mem_singleton.2 consume⟩

theorem takes_for_awoken (s : SessionId) (r : RelayId) (c : CellId) :
    (Frame.session s (.consumeAwoken (.relay r) c)).takesFor s r = true := by
  simp [Frame.takesFor]

/-- What is known of a move by which a relay's task makes no step. -/
structure Passes (s : SessionId) (r : RelayId) (t : TaskId) (m : Moment) (w' : World) : Prop where
  sound : m.world.Sound
  goes : m.Goes w'
  moves : ∃ may R, Moves may R m.world w'
  begun : t < m.world.loop.tasks.length
  posts : Posts s r m.world w' (m.heard? s)
  room : (m.heard? s).isSome = true ∨
    (w'.session s).bus.closed ≠ (m.world.session s).bus.closed → (m.world.session s).bus.isFull = false

namespace Passes

variable (h : Passes s r t m w')

include h

theorem moved : Moved m.world w' := let ⟨_, _, moves⟩ := h.moves; moves.moved

theorem takers : (w'.session s).takers = (m.world.session s).takers ∧
    (w'.session s).bus = (m.world.session s).bus ∨ Woken s m.world w' :=
  h.posts.takers fun hears => h.room (.inl hears)

theorem takers_subset : (w'.session s).takers ⊆ (m.world.session s).takers := by
  rcases h.takers with ⟨same, -⟩ | woken
  · exact fun c hc => same ▸ hc
  · exact woken.takers

theorem unawaited {but : CellId → Prop} (known : m.world.Unawaited s but) : w'.Unawaited s but :=
  known.later h.moved h.takers_subset

theorem stocks (known : m.world.Stocks s all front) :
    w'.Stocks s (all ++ (m.heard? s).toList) front := known.later h.posts h.room

/-- Whoever is still not woken has nothing to take. -/
theorem empty (unawaited : m.world.Unawaited s (· = c)) (inside : c < m.world.loop.cells.length)
    (known : m.world.loop.isSettled c = false → c ∈ (m.world.session s).takers ∧
      (m.world.session s).bus.queue = [])
    (waits : w'.loop.isSettled c = false) :
    c ∈ (w'.session s).takers ∧ (w'.session s).bus.queue = [] := by
  have before : m.world.loop.isSettled c = false := by
    refine Bool.eq_false_iff.2 fun settled => ?_
    rw [Loop.isSettled_mono h.moved.settles settled] at waits
    cases waits
  obtain ⟨member, queue⟩ := known before
  rcases h.takers with ⟨takers, bus⟩ | woken
  · rw [takers, bus]
    exact ⟨member, queue⟩
  · rw [woken.wakes c member inside unawaited] at waits
    cases waits

theorem silent_of_closed (closed : (m.world.session s).bus.closed = true) :
    (w'.session s).bus.closed = true ∧ m.heard? s = none := by
  generalize heard : m.heard? s = e?
  have posts := h.posts
  rw [heard] at posts
  cases posts with
  | rests same => exact ⟨(congrArg (·.bus.closed) same :).trans closed, rfl⟩
  | publishes alive =>
    have alive : (m.world.session s).bus.closed = false := alive
    rw [closed] at alive
    cases alive
  | closes alive =>
    have alive : (m.world.session s).bus.closed = false := alive
    rw [closed] at alive
    cases alive

theorem given_up (known : m.world.loop.outcome? (m.world.loop.taskCell t) = some (.error .cancelled)) :
    w'.loop.outcome? (w'.loop.taskCell t) = some (.error .cancelled) := by
  rw [h.moved.taskCell t h.begun]
  exact h.moved.settles.outcome known

/-- Only who has not come to its end is woken. -/
theorem going (idle : m.world.current = none) (runs : w'.current = some (t, o)) :
    m.world.loop.taskDone t = false := by
  obtain ⟨may, R, moves⟩ := h.moves
  cases moves.move with
  | rests _ _ idle' => exact absurd (idle'.symm.trans runs) (by simp)
  | ends _ idle' => exact absurd (idle'.symm.trans runs) (by simp)
  | wakes _ _ going runs' =>
    cases runs'.symm.trans runs
    exact going
  | goes runs' => exact absurd (idle.symm.trans runs') (by simp)

end Passes

namespace Phase

theorem stays (h : Phase s r t ms m.world all begun applied) (passes : Passes s r t m w')
    (stack : w'.stack t = m.world.stack t) (waits : w'.loop.waits t = m.world.loop.waits t)
    (before : ∀ o, m.world.current ≠ some (t, o)) (after : ∀ o, w'.current ≠ some (t, o)) :
    Phase s r t (ms ++ [m]) w' (all ++ (m.heard? s).toList) begun applied := by
  cases h with
  | goesOn place top fine waits' unawaited stocks begun_ =>
    exact .goesOn place (stack.trans top) (.of_rests after)
      (waits.trans waits') (passes.unawaited unawaited) (passes.stocks stocks) begun_
  | awaits top typed state unawaited empty stocks begun_ =>
    refine .awaits (stack.trans top) (typed.later passes.goes passes.sound passes.moved) ?_
      (passes.unawaited unawaited) (passes.empty unawaited typed.inside empty) (passes.stocks stocks)
      begun_
    rcases state with ⟨waits', -⟩ | ⟨⟨x, runs⟩, -⟩
    · exact .inl ⟨waits.trans waits', after⟩
    · exact absurd runs (before _)
  | finished top fine closed heard_ begun_ =>
    obtain ⟨closed', silent⟩ := passes.silent_of_closed closed
    refine .finished (stack.trans top) (.of_rests after) closed' ?_ begun_
    rw [silent, heard_, Option.toList_none, List.append_nil]
  | givenUp top state ordered =>
    refine .givenUp (stack ▸ top) ?_ (ordered.later _)
    rcases state with runs | done
    · exact absurd runs (before _)
    · exact .inr (passes.given_up done)

theorem ends (h : Phase s r t ms m.world all begun applied) (passes : Passes s r t m w')
    (ends : m.world.Ends t o) (stack : w'.stack t = []) (after : w'.current = none) :
    Phase s r t (ms ++ [m]) w' (all ++ (m.heard? s).toList) begun applied := by
  have idle (o : Outcome Result) : w'.current ≠ some (t, o) := by simp [after]
  cases h with
  | goesOn place top => exact absurd (top.symm.trans ends.2) place.ne_nil
  | awaits top => exact absurd (top.symm.trans ends.2) (List.cons_ne_nil _ _)
  | finished top fine closed heard_ begun_ =>
    obtain ⟨closed', silent⟩ := passes.silent_of_closed closed
    refine .finished stack (.of_rests idle) closed' ?_ begun_
    rw [silent, heard_, Option.toList_none, List.append_nil]
  | givenUp top state ordered =>
    refine .givenUp (by rw [stack]; exact fun _ hf => nomatch hf) (.inr ?_) (ordered.later _)
    rcases state with runs | done
    · have same := ends.1.symm.trans runs
      cases same
      obtain ⟨may, R, moves⟩ := passes.moves
      rw [passes.moved.taskCell t passes.begun]
      exact Sound.ended moves.move ends
    · exact passes.given_up done

theorem wakes (h : Phase s r t ms m.world all begun applied) (passes : Passes s r t m w')
    {waited : Option CellId} (idle : m.world.current = none) (stack : w'.stack t = m.world.stack t)
    (before : m.world.loop.waits t = waited) (waits : w'.loop.waits t = none)
    (runs : w'.current = some (t, o))
    (outcome : if m.world.loop.due t then o = .error .cancelled
      else (waited = none ∧ o = .ok .nothing) ∨
        ∃ c, waited = some c ∧ m.world.loop.outcome? c = some o) :
    Phase s r t (ms ++ [m]) w' (all ++ (m.heard? s).toList) begun applied := by
  have up (top : ∀ f ∈ m.world.stack t, f.takesFor s r = true) (ordered : Ordered all begun applied)
      (late : o = .error .cancelled) :
      Phase s r t (ms ++ [m]) w' (all ++ (m.heard? s).toList) begun applied := by
    subst late
    exact .givenUp (stack ▸ top) (.inl runs) (ordered.later _)
  cases h with
  | goesOn place top fine waits' unawaited stocks begun_ =>
    have unwaited : waited = none := before.symm.trans waits'
    split at outcome
    · exact up (top ▸ place.takes_for) (place.ordered stocks begun_) outcome
    · rcases outcome with ⟨-, rfl⟩ | ⟨c, same, -⟩
      · exact .goesOn place (stack.trans top) (.of_runs runs) waits (passes.unawaited unawaited)
          (passes.stocks stocks) begun_
      · rw [unwaited] at same
        cases same
  | @awaits c top typed state unawaited empty stocks begun_ =>
    have ordered : Ordered all begun applied :=
      (Phase.awaits top typed state unawaited empty stocks begun_ : Phase s r t ms m.world _ _ _).ordered
    have takes : ∀ f ∈ m.world.stack t, f.takesFor s r = true :=
      top ▸ List.forall_mem_singleton.2 (takes_for_awoken s r c)
    split at outcome
    · exact up takes ordered outcome
    · rcases state with ⟨waits', -⟩ | ⟨⟨x, runs'⟩, -⟩
      · rcases outcome with ⟨same, -⟩ | ⟨d, same, settled⟩
        · rw [← before, waits'] at same
          cases same
        · have here : c = d := Option.some.inj (waits'.symm.trans (before.trans same))
          subst here
          rcases typed.settled o settled with late | due
          · exact up takes ordered late
          · cases due
            refine .awaits (stack.trans top) (typed.later passes.goes passes.sound passes.moved)
              (.inr ⟨⟨_, runs⟩, ?_⟩) (passes.unawaited unawaited)
              (passes.empty unawaited typed.inside empty) (passes.stocks stocks) begun_
            exact Loop.isSettled_mono passes.moved.settles
              (Option.isSome_iff_exists.2 ⟨_, settled⟩)
      · rw [idle] at runs'
        cases runs'
  | finished top =>
    have done := (passes.sound.done t passes.begun).2 ⟨top, fun o runs' => by simp [idle] at runs'⟩
    rw [passes.going idle runs] at done
    cases done
  | givenUp top state ordered =>
    rcases state with runs' | done
    · rw [idle] at runs'
      cases runs'
    · have settled : m.world.loop.taskDone t = true := Option.isSome_iff_exists.2 ⟨_, done⟩
      rw [passes.going idle runs] at settled
      cases settled

end Phase

/-- A consumer takes the next event, or the end of events, or comes to wait. -/
theorem takeEvent_cases (s : SessionId) (r : RelayId) (w : World) :
    ((w.session s).bus.queue = [] ∧ w.takeEvent s (.relay r) =
      (.await w.loop.cells.length (.session s (.consumeAwoken (.relay r) w.loop.cells.length)),
        w.newCell.2.setSession s fun x => { x with takers := x.takers ++ [w.loop.cells.length] })) ∨
    (∃ rest, (w.session s).bus.queue = none :: rest ∧ w.takeEvent s (.relay r) =
      (w.setSession s fun x => { x with bus := { (w.session s).bus with queue := rest } }).finish) ∨
    ∃ e rest, (w.session s).bus.queue = some e :: rest ∧ w.takeEvent s (.relay r) =
      (.call (.relay r (.dispatch e)) (.session s (.consume (.relay r))),
        w.setSession s fun x => { x with bus := { (w.session s).bus with queue := rest } }) := by
  cases queue : (w.session s).bus.queue with
  | nil =>
    refine .inl ⟨rfl, ?_⟩
    have none : (w.session s).bus.take? = none := by rw [Bus.take?, queue]
    rw [takeEvent, none]
    rfl
  | cons e? rest =>
    right
    have some : (w.session s).bus.take? = some (e?, { (w.session s).bus with queue := rest }) := by
      rw [Bus.take?, queue]
    cases e? with
    | none =>
      refine .inl ⟨rest, rfl, ?_⟩
      rw [takeEvent, some]
    | some e =>
      refine .inr ⟨e, rest, rfl, ?_⟩
      rw [takeEvent, some]

theorem Stocks.of_bus (h : w.Stocks s all front) (bus : (w'.session s).bus = (w.session s).bus) :
    w'.Stocks s all front :=
  let ⟨es, holds, same⟩ := h
  ⟨es, bus ▸ holds, same⟩

/-- The phase that comes of a moment. -/
def Phase.Next (s : SessionId) (r : RelayId) (t : TaskId) (ms : List Moment) (m : Moment) (w' : World)
    (heard begun applied : List Event) : Prop :=
  Phase s r t (ms ++ [m]) w' (heard ++ (m.heard? s).toList) (begun ++ (m.begins? r).toList)
    (applied ++ ((m.applies? r).map Prod.fst).toList)

section Steps

variable (strides : Strides R m.world w' t f o rest frames flow w₂) (sound : m.world.Sound)

include strides in
theorem Phase.next_of_silent (silent : m.world.handed? s f o = none)
    (h : Phase s r t (ms ++ [m]) w' all (begun ++ (World.begins? r f o).toList)
      (applied ++ (({ m.world with current := none }.applies? r f o).map Prod.fst).toList)) :
    Phase.Next s r t ms m w' all begun applied := by
  have top := Moment.top?_of_runs strides.runs strides.top
  have heard : m.heard? s = none := by
    rw [Moment.heard?, Moment.handed?, top]
    show (m.world.handed? s f o).bind _ = none
    rw [silent]
    rfl
  rw [Phase.Next, heard, Moment.begins?, Moment.applies?, top, Option.toList_none, List.append_nil]
  exact h

include strides in
theorem Strides.box_eq : w'.box s r = w₂.box s r := by
  rw [strides.lands.aside.same]
  rfl

include strides sound in
theorem Strides.stack_eq : w'.stack t = flow.frames ++ rest :=
  (strides.turn.piles (sound.running strides.runs) strides.lands).1

end Steps

section Takes

variable {x : Result} {e? : Option Event} {left : List (Option Event)}
variable (strides : Strides R m.world w' t (.session s (.consume (.relay r))) (.ok x) [] frames flow w₂)
variable (sound : m.world.Sound) (moves : Moves may R m.world w')
variable (known : s < m.world.sessions.length)
variable (unawaited : m.world.Unawaited s fun _ => False) (stocks : m.world.Stocks s all applied)

include strides known in
/-- What is left once something has been taken. -/
theorem Strides.taken (same : w₂ = { m.world with current := none }.setSession s fun y =>
    { y with bus := { (m.world.session s).bus with queue := left } }) :
    (w'.session s).bus = { (m.world.session s).bus with queue := left } ∧
      (w'.session s).takers = (m.world.session s).takers := by
  have box := strides.box_eq (s := s) (r := r)
  have session := session_setSession_self (w := { m.world with current := none }) known
    fun y => { y with bus := { (m.world.session s).bus with queue := left } }
  rw [same] at box
  exact ⟨(congrArg Box.bus box).trans (congrArg Session.bus session),
    (congrArg Box.takers box).trans ((congrArg Session.takers session).trans rfl)⟩

include moves unawaited in
theorem Unawaited.kept (but : CellId → Prop) (takers : (w'.session s).takers = (m.world.session s).takers) :
    w'.Unawaited s but := by
  intro d hd
  have settled := (unawaited d (takers ▸ hd)).resolve_left id
  exact .inr (Loop.isSettled_mono moves.moved.settles settled)

include moves in
/-- A task goes on, and the events of its session are where they were. -/
theorem Phase.of_box {stack : List Frame} {hand late : List Event} {i : StatusIndicator}
    (place : Place s r stack hand late) (top : w'.stack t = stack) (fine : w'.Fine t)
    (waits : w'.loop.waits t = none) (box : w'.box s r = { m.world.box s r with mark := i })
    (unawaited : m.world.Unawaited s fun _ => False)
    (stocks : m.world.Stocks s all (applied ++ hand)) (begun_ : begun = applied ++ late) :
    Phase s r t ms w' all begun applied :=
  .goesOn place top fine waits (unawaited.kept moves _ (congrArg Box.takers box))
    (stocks.of_bus (congrArg Box.bus box)) begun_

include strides sound moves known unawaited stocks in
/-- There is nothing to take yet. -/
theorem Phase.next_of_empty (queue : (m.world.session s).bus.queue = [])
    (same : flow = .await m.world.loop.cells.length
      (.session s (.consumeAwoken (.relay r) m.world.loop.cells.length)))
    (same₂ : w₂ = { m.world with current := none }.newCell.2.setSession s fun y =>
      { y with takers := y.takers ++ [m.world.loop.cells.length] }) :
    Phase s r t (ms ++ [m]) w' all applied applied := by
  let c := m.world.loop.cells.length
  have stack := strides.stack_eq sound
  have box := strides.box_eq (s := s) (r := r)
  have next := strides.lands.next
  have session := session_setSession_self (w := { m.world with current := none }.newCell.2) known
    fun y => { y with takers := y.takers ++ [c] }
  rw [same] at stack next
  rw [same₂] at box
  have takers : (w'.session s).takers = (m.world.session s).takers ++ [c] :=
    (congrArg Box.takers box).trans (congrArg Session.takers session)
  have bus : (w'.session s).bus = (m.world.session s).bus :=
    (congrArg Box.bus box).trans ((congrArg Session.bus session).trans rfl)
  have typed : Typed (ms ++ [m]) w' .loose c :=
    .made sound moves.moved (Nat.le_refl _) (strides.kind sound same (Nat.le_refl _))
      (fun r' given => strides.gives given) fun _ _ => by simp
  have waits : w'.Unawaited s (· = c) := by
    intro d hd
    rw [takers] at hd
    rcases List.mem_append.1 hd with old | new
    · have settled := (unawaited d old).resolve_left id
      exact .inr (Loop.isSettled_mono moves.moved.settles settled)
    · exact .inl (List.mem_singleton.1 new)
  have empty : c ∈ (w'.session s).takers ∧ (w'.session s).bus.queue = [] := by
    rw [takers, bus]
    exact ⟨List.mem_append_right _ List.mem_cons_self, queue⟩
  have stocked := stocks.of_bus bus
  have awaits (state : (w'.loop.waits t = some c ∧ ∀ o, w'.current ≠ some (t, o)) ∨
      (∃ x, w'.current = some (t, .ok x)) ∧ w'.loop.isSettled c = true) :
      Phase s r t (ms ++ [m]) w' all applied applied :=
    .awaits stack typed state waits (fun _ => empty) stocked rfl
  rcases next with ⟨o, settled, runs, -⟩ | ⟨idle, waits'⟩
  · rcases typed.settled o settled with late | due
    · subst late
      have ordered : Ordered all applied applied := by
        obtain ⟨es, -, same⟩ := stocks
        exact ⟨[], es, same, by simp, by simp⟩
      exact .givenUp (stack ▸ List.forall_mem_singleton.2 (takes_for_awoken s r c)) (.inl runs) ordered
    · cases due
      exact awaits (.inr ⟨⟨_, runs⟩, Option.isSome_iff_exists.2 ⟨_, settled⟩⟩)
  · exact awaits (.inl ⟨waits', fun o runs => by simp [idle] at runs⟩)

include strides sound known stocks in
/-- The end of events has been taken. -/
theorem Phase.next_of_end (queue : (m.world.session s).bus.queue = none :: left)
    (same : flow = .done (.ok .nothing))
    (same₂ : w₂ = { m.world with current := none }.setSession s fun y =>
      { y with bus := { (m.world.session s).bus with queue := left } }) :
    Phase s r t (ms ++ [m]) w' all applied applied := by
  have stack := strides.stack_eq sound
  have next := strides.lands.next
  rw [same] at stack next
  obtain ⟨bus, takers⟩ := strides.taken known same₂
  obtain ⟨es, holds, heard⟩ := stocks
  rw [Bus.Holds, queue] at holds
  cases es with
  | nil =>
    have closed : (m.world.session s).bus.closed = true := by
      cases closed : (m.world.session s).bus.closed with
      | true => rfl
      | false => simp [closed] at holds
    exact .finished stack (.of_runs next.1) (by rw [bus, closed]) (by rw [heard, List.append_nil]) rfl
  | cons e es => simp at holds

include strides sound moves known unawaited stocks in
/-- An event has been taken. -/
theorem Phase.next_of_event {e : Event} (queue : (m.world.session s).bus.queue = some e :: left)
    (same : flow = .call (.relay r (.dispatch e)) (.session s (.consume (.relay r))))
    (same₂ : w₂ = { m.world with current := none }.setSession s fun y =>
      { y with bus := { (m.world.session s).bus with queue := left } }) :
    Phase s r t (ms ++ [m]) w' all applied applied := by
  have stack := strides.stack_eq sound
  have next := strides.lands.next
  rw [same] at stack next
  obtain ⟨bus, takers⟩ := strides.taken known same₂
  obtain ⟨es, holds, heard⟩ := stocks
  rw [Bus.Holds, queue] at holds
  cases es with
  | nil =>
    cases closed : (m.world.session s).bus.closed <;> simp [closed] at holds
  | cons e' es =>
    simp only [List.map_cons, List.cons_append, List.cons.injEq, Option.some.injEq] at holds
    obtain ⟨rfl, left_⟩ := holds
    have holds : (w'.session s).bus.Holds es := by rw [bus, Bus.Holds, left_]
    exact .goesOn (.applies e) stack (.of_runs next.1) next.2 (unawaited.kept moves _ takers)
      ⟨es, holds, by rw [heard]; simp⟩ (by simp)

include strides sound moves known unawaited stocks in
theorem Phase.next_of_takes : Phase.Next s r t ms m w' all applied applied := by
  refine .next_of_silent strides rfl ?_
  have steps : { m.world with current := none }.takeEvent s (.relay r) = (flow, w₂) := strides.steps
  show Phase s r t (ms ++ [m]) w' all (applied ++ []) (applied ++ [])
  rw [List.append_nil]
  rcases takeEvent_cases s r { m.world with current := none } with ⟨queue, same⟩ | ⟨left, queue, same⟩ |
    ⟨e, left, queue, same⟩
  · obtain ⟨flow_, world⟩ := Prod.mk.inj (steps.symm.trans same)
    exact .next_of_empty strides sound moves known unawaited stocks queue flow_ world
  · obtain ⟨flow_, world⟩ := Prod.mk.inj (steps.symm.trans same)
    exact .next_of_end strides sound known stocks queue flow_ world
  · obtain ⟨flow_, world⟩ := Prod.mk.inj (steps.symm.trans same)
    exact .next_of_event strides sound moves known unawaited stocks queue flow_ world

end Takes

section Applies

variable {x : Result} {w₁ : World} {span : Nat}
variable (strides : Strides R m.world w' t f o [.session s (.consume (.relay r))] frames flow w₂)
variable (sound : m.world.Sound) (moves : Moves may R m.world w') (known : r < m.world.relays.length)
variable (unawaited : m.world.Unawaited s fun _ => False)
variable (stocks : m.world.Stocks s all (applied ++ [e]))

include strides sound moves known unawaited stocks

/-- An event is applied, or delayed once more. -/
theorem Phase.of_dispatchAfter (post : w₁.post = m.world.post)
    (steps : w₁.dispatchAfter r e span = (flow, w₂)) :
    Phase s r t (ms ++ [m]) w' all (applied ++ [e]) (applied ++ if span = 0 then [e] else []) := by
  have stack := strides.stack_eq sound
  have next := strides.lands.next
  have box := strides.box_eq (s := s) (r := r)
  have same := box_of_post post s r
  cases span with
  | zero =>
    cases steps
    have marked := box_dispatchEvent (known.trans_eq (lengths_of_post post).2.symm) s e
    rw [marked, same] at box
    exact .of_box moves .takes stack (.of_runs next.1) next.2 box unawaited (by simpa using stocks)
      (by simp)
  | succ span =>
    cases steps
    rw [same] at box
    exact .of_box moves (.delays e span) stack (.of_idle next.1) next.2 box unawaited
      (by simpa using stocks) (by simp)

end Applies

section Steps

variable {x : Result}
variable (sound : m.world.Sound) (moves : Moves may R m.world w')
variable (known : s < m.world.sessions.length) (known' : r < m.world.relays.length)

include sound moves

include known known' in
theorem Phase.next_of_place {hand late : List Event} (place : Place s r (f :: rest) hand late)
    (strides : Strides R m.world w' t f (.ok x) rest frames flow w₂)
    (unawaited : m.world.Unawaited s fun _ => False)
    (stocks : m.world.Stocks s all (applied ++ hand)) :
    Phase.Next s r t ms m w' all (applied ++ late) applied := by
  cases place with
  | takes =>
    rw [List.append_nil] at stocks ⊢
    exact .next_of_takes strides sound moves known unawaited stocks
  | applies e =>
    refine .next_of_silent strides rfl ?_
    let w₀ : World := { m.world with current := none }
    have steps : (w₀.spanOf r e.what).2.dispatchAfter r e (w₀.spanOf r e.what).1 = (flow, w₂) :=
      strides.steps
    have post : (w₀.spanOf r e.what).2.post = m.world.post := post_spanOf r e.what w₀
    have phase : Phase s r t (ms ++ [m]) w' all (applied ++ [e])
        (applied ++ if (w₀.spanOf r e.what).1 = 0 then [e] else []) :=
      .of_dispatchAfter strides sound moves known' unawaited stocks post steps
    have begins : World.begins? r (.relay r (.dispatch e)) (.ok x) = some e := by
      simp [World.begins?]
    have applies : ((w₀.applies? r (.relay r (.dispatch e)) (.ok x)).map Prod.fst).toList =
        if (w₀.spanOf r e.what).1 = 0 then [e] else [] := by
      by_cases now : (w₀.spanOf r e.what).1 = 0 <;> simp [World.applies?, now]
    rw [begins, applies]
    simpa using phase
  | delays e span =>
    refine .next_of_silent strides rfl ?_
    let w₀ : World := { m.world with current := none }
    have steps : w₀.dispatchAfter r e span = (flow, w₂) := strides.steps
    have post : w₀.post = m.world.post := rfl
    have phase : Phase s r t (ms ++ [m]) w' all (applied ++ [e])
        (applied ++ if span = 0 then [e] else []) :=
      .of_dispatchAfter strides sound moves known' unawaited stocks post steps
    have applies : (({ m.world with current := none } : World).applies? r
        (.relay r (.dispatchLater e span)) (.ok x)).map Prod.fst =
          if span = 0 then some e else none := by
      cases span <;> simp [World.applies?]
    have begins : World.begins? r (.relay r (.dispatchLater e span)) (.ok x) = none := rfl
    rw [begins, applies]
    split
    · next now => simpa [now] using phase
    · next later => simpa [later] using phase

/-- Who has been woken goes on to take. -/
theorem Phase.next_of_awoken
    (strides : Strides R m.world w' t (.session s (.consumeAwoken (.relay r) c)) (.ok x) [] frames flow w₂)
    (settled : m.world.loop.isSettled c = true) (unawaited : m.world.Unawaited s (· = c))
    (stocks : m.world.Stocks s all applied) : Phase.Next s r t ms m w' all applied applied := by
  refine .next_of_silent strides rfl ?_
  have stack := strides.stack_eq sound
  have next := strides.lands.next
  have box := strides.box_eq (s := s) (r := r)
  have steps : ((.goto (.session s (.consume (.relay r))), { m.world with current := none }) : Step) =
      (flow, w₂) := strides.steps
  cases steps
  have nobody : m.world.Unawaited s fun _ => False := by
    intro d hd
    rcases unawaited d hd with rfl | known
    · exact .inr settled
    · exact .inr known
  show Phase s r t (ms ++ [m]) w' all (applied ++ []) (applied ++ [])
  rw [List.append_nil]
  exact .of_box moves .takes stack (.of_runs next.1) next.2 box nobody (by simpa using stocks)
    (by simp)

end Steps

/-- Whoever takes events gives up with what makes it fail. -/
theorem resume_of_failed (takes : f.takesFor s r = true) (e : Failure) (t : TaskId) (w : World) :
    (w.resume t f (.error e)).1 = .done (.error e) := by
  have taking := Frame.isTaking_of_takesFor takes
  cases f with
  | session s' p =>
    cases p with
    | consume => rfl
    | consumeAwoken => rfl
    | _ => cases taking
  | relay r' p =>
    cases p with
    | dispatch => rfl
    | dispatchLater => rfl
    | _ => cases taking
  | _ => cases taking

theorem Phase.next_of_failed (strides : Strides R m.world w' t f (.error .cancelled) rest frames flow w₂)
    (sound : m.world.Sound) (takes : ∀ g ∈ m.world.stack t, g.takesFor s r = true)
    (ordered : Ordered all begun applied) : Phase.Next s r t ms m w' all begun applied := by
  have top : f.takesFor s r = true := takes f (strides.top ▸ List.mem_cons_self)
  have done : flow = .done (.error .cancelled) := by
    have failed := resume_of_failed top .cancelled t { m.world with current := none }
    rwa [strides.steps] at failed
  have stack := strides.stack_eq sound
  have next := strides.lands.next
  rw [done] at stack next
  have silent : m.world.handed? s f (.error .cancelled) = none := by
    unfold handed?
    split
    · next same => cases same
    · rfl
  have begins : World.begins? r f (.error .cancelled) = none := by
    unfold World.begins?
    split
    · next same => cases same
    · rfl
  have applies : ({ m.world with current := none } : World).applies? r f (.error .cancelled) = none := by
    unfold World.applies?
    split
    · next same => cases same
    · next same => cases same
    · rfl
  refine .next_of_silent strides silent ?_
  rw [begins, applies]
  simp only [Option.map_none, Option.toList_none, List.append_nil]
  refine .givenUp (fun g hg => ?_) (.inl next.1) ordered
  rw [stack] at hg
  exact takes g (strides.top ▸ List.mem_cons_of_mem f hg)

/-- A step of a relay's task leads from phase to phase. -/
theorem Phase.goes (h : Phase s r t ms m.world all begun applied)
    (strides : Strides R m.world w' t f o rest frames flow w₂) (sound : m.world.Sound)
    (moves : Moves may R m.world w') (known : s < m.world.sessions.length)
    (known' : r < m.world.relays.length) : Phase.Next s r t ms m w' all begun applied := by
  cases h with
  | goesOn place top fine waits unawaited stocks begun_ =>
    obtain ⟨x, rfl⟩ := fine o strides.runs
    subst begun_
    rw [← top, strides.top] at place
    exact .next_of_place sound moves known known' place strides unawaited stocks
  | awaits top typed state unawaited empty stocks begun_ =>
    have same := strides.top.symm.trans top
    cases same
    subst begun_
    rcases state with ⟨-, still⟩ | ⟨⟨x, runs⟩, settled⟩
    · exact absurd strides.runs (still o)
    · have same := strides.runs.symm.trans runs
      cases same
      exact .next_of_awoken sound moves strides settled unawaited stocks
  | finished top =>
    have same := strides.top.symm.trans top
    cases same
  | givenUp top state ordered =>
    rcases state with runs | done
    · have same := strides.runs.symm.trans runs
      cases same
      exact .next_of_failed strides sound top ordered
    · have settled : m.world.loop.taskDone t = true := Option.isSome_iff_exists.2 ⟨_, done⟩
      rw [sound.going strides.runs] at settled
      cases settled

end World
end LanguageClient
