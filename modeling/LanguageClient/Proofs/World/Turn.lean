import LanguageClient.Proofs.World.Inbound
import LanguageClient.World.Run

/-!
What one step of a task can do, said once for all places. Most steps are quiet: they do not show in
the core, and they go on at plain places. Each of the others is a case of its own.
-/

namespace LanguageClient

open Schedule

/-- The places where a task goes on. -/
def Schedule.Flow.frames {φ ρ : Type} : Flow φ ρ → List φ
  | .done _ => []
  | .goto f | .await _ f | .pause f => [f]
  | .call inner next => [inner, next]

namespace Session.Stage

/-- Stages of a start. -/
def starts : Stage → Bool
  | .start | .launched _ | .initializeAnswered | .initializedSent | .abandoned _ | .flushed => true
  | _ => false

/-- Stages that see to the end of a process and release what the session had. -/
def ends : Stage → Bool
  | .shutdown _ | .graceOver | .terminate | .terminateOver | .killed | .release | .released => true
  | _ => false

/-- Stages of a stop that has begun. -/
def closes : Stage → Bool
  | .shutdownAnswered _ | .exitSent _ => true
  | p => p.ends

def isStop : Stage → Bool
  | .stop _ => true
  | _ => false

/-- Stages of those who only use a session. -/
def isPlain : Stage → Bool
  | .notify .. | .notified _ | .consume _ | .consumeAwoken .. => true
  | _ => false

end Session.Stage

namespace Frame

/-- Where a quiet step can go on. -/
def isPlain : Frame → Bool
  | .connection _ (.notify ..) | .connection _ (.request ..) => false
  | .session _ p => p.isPlain
  | .roster (.sessionStarted ..) | .roster (.stopsOver ..) => false
  | _ => true

/-- Neither starts a session nor has it stopped. -/
def isHarmless : Frame → Bool
  | .session _ p => !p.starts && !p.isStop
  | .roster _ => false
  | .workspace (.reportAll _) | .workspace (.reportEach ..) => true
  | .workspace _ => false
  | _ => true

/-- What it holds to fail with later is not the failure of a launch. -/
def IsCalm : Frame → Prop
  | .workspace (.leave (.error e)) | .workspace (.left (.error e)) => Calm (.error e)
  | _ => True

/-- Takes events, or applies one. -/
def isTaking : Frame → Bool
  | .session _ (.consume _) | .session _ (.consumeAwoken ..) => true
  | .relay _ (.dispatch _) | .relay _ (.dispatchLater ..) => true
  | _ => false

/-- Takes the events of a session, or those of any for a relay. -/
def takesFor (s : SessionId) (r : RelayId) : Frame → Bool
  | .session s' (.consume x) | .session s' (.consumeAwoken x _) => s' = s || x = .relay r
  | .relay r' (.dispatch _) | .relay r' (.dispatchLater ..) => r' = r
  | _ => false

/-- Plain, and neither about a connection nor about taking events. -/
def isAside : Frame → Bool
  | .connection .. => false
  | f => f.isPlain && !f.isTaking

/-- Belongs to a session, or to any, and to its connection. -/
def IsLocal (s : Option SessionId) (k : Option ConnectionId) : Frame → Prop
  | .wait _ | .pass => True
  | .connection k' _ => k = some k'
  | .session _ (.consume (.relay _)) | .session _ (.consumeAwoken (.relay _) _) => s = none
  | .session s' _ => s = none ∨ s = some s'
  | _ => s = none

theorem isTaking_of_takesFor {f : Frame} {s : SessionId} {r : RelayId}
    (h : f.takesFor s r = true) : f.isTaking = true := by
  unfold takesFor at h
  split at h <;> first | rfl | cases h

theorem isPlain_of_errand {f : Frame} (h : f.isErrand = true) : f.isPlain = true := by
  unfold isErrand at h
  split at h <;> first | rfl | cases h

theorem isAside_cases {f : Frame} (h : f.isAside = true) :
    f.isPlain = true ∧ f.isTaking = false := by
  unfold isAside at h
  split at h
  · cases h
  · simpa using h

theorem isPlain_of_aside {f : Frame} (h : f.isAside = true) : f.isPlain = true :=
  (isAside_cases h).1

theorem isTaking_of_aside {f : Frame} (h : f.isAside = true) : f.isTaking = false :=
  (isAside_cases h).2

theorem isLocal_of_aside {f : Frame} (h : f.isAside = true) (k : Option ConnectionId) :
    f.IsLocal none k := by
  cases f with
  | connection => cases h
  | session s p =>
    cases p with
    | consume taker => cases taker <;> simp [IsLocal]
    | consumeAwoken taker => cases taker <;> simp [IsLocal]
    | _ => exact .inl rfl
  | wait => trivial
  | pass => trivial
  | _ => rfl

/-- Cells that may be given up from here. -/
def starts : Frame → List CellId
  | .wait (.start c _) => [c]
  | _ => []

/-- Places from which timers are set, or taken back, that cancel tasks. -/
def guards : Frame → Bool
  | .wait _ | .roster (.stopsOver ..) => true
  | _ => false

/-- Places from which a connection can come to its end. -/
def mayEnd (k : ConnectionId) : Frame → Prop
  | .connection k' (.read _) | .connection k' .answersStopped => k' = k
  | _ => False

/-- Cells that are waited for by name. -/
def names : Frame → List CellId
  | .wait (.start c _) | .wait (.released c) => [c]
  | .connection _ (.requestWritten _ c _) => [c]
  | _ => []

/-- Tasks that may be given up from here. -/
def lates : Frame → List TaskId
  | .roster (.stopsOver stops _) => stops.map (·.1)
  | _ => []

/-- A place where a quiet step may go on from another. -/
structure Succeeds (f g : Frame) : Prop where
  plain : g.isPlain = true
  harmless : f.isHarmless = true → g.isHarmless = true
  local_ : ∀ s k, f.IsLocal s k → g.IsLocal s k

/-- A place where a quiet step goes on from another, and takes events only if that has. -/
structure Follows (f g : Frame) : Prop extends Succeeds f g where
  taking : ∀ s r, g.takesFor s r = true → f.takesFor s r = true

theorem Follows.of_idle {f g : Frame} (h : f.Succeeds g) (idle : g.isTaking = false) :
    f.Follows g where
  toSucceeds := h
  taking s r takes := by
    rw [isTaking_of_takesFor takes] at idle
    cases idle

/-- A place at which a quiet step from another may have a task begin; `next` is the relay that is
made next. -/
structure Opens (next : RelayId) (f g : Frame) : Prop where
  succeeds : f.Succeeds g
  harmless : g.isHarmless = true
  calm : g.IsCalm
  names : g.names = []
  errand : g.isErrand = true
  /-- Events are taken for a relay that has just been made. -/
  taking : ∀ s x, g = .session s (.consume x) →
    (∃ key, f = .roster (.sessionStarted key s)) ∧ x = .relay next

end Frame

namespace Connection

/-- What a response settles the request with that it names. -/
def reply? (message : Entries) : Option (Outcome Result) :=
  match Entries.field? "error" message with
  | some e => match Failure.ofResponse (if e.truthy then e else .map []) with
    | .ok f => some (.error f)
    | .error _ => none
  | none => some (.ok (.value ((Entries.field? "result" message).getD .null)))

/-- What a request of the backend asks for: its identifier, its method and its parameters. -/
def demand? (message : Entries) : Option (Value × Value × Value) :=
  let member (name : String) : Value := (Entries.field? name message).getD .null
  if member "id" = .null ∨ member "method" = .null then none
  else some (member "id", member "method", member "params")

/-- A request has been given its number, and the cell that its response settles. -/
def enroll (id : Nat) (c : CellId) (x : Connection) : Connection :=
  { x with nextId := x.nextId + 1, pending := x.pending ++ [(id, c)] }

/-- Nothing is sent any more, and nobody waits for a response. -/
def cease (x : Connection) : Connection := { x with closed := true, pending := [] }

/-- Nobody waits any more for the response to a request. -/
def withdraw (id : Nat) (x : Connection) : Connection :=
  { x with pending := x.pending.filter fun p => p.1 ≠ id }

end Connection

/-- What a failed start leaves of a session. -/
def Session.spent (x : Session) : Session := { x.moveToStopped.shut with outbox := [] }

/-- Messages are written to a backend, one after the other. -/
inductive Sends (b : BackendId) : List Value → Core → Core → Prop
  | nil (x : Core) : Sends b [] x x
  | cons {message : Value} {rest : List Value} {x y : Core} (last : Bool)
    (h : Sends b rest (x.send b message last) y) : Sends b (message :: rest) x y

namespace World

/-- A connection reads a response that names a request, and what that settles the request with. -/
def Hears (w : World) (f : Frame) (k : ConnectionId) (id : Nat) (o : Outcome Result) : Prop :=
  ∃ point entries rest key, f = .connection k (.read point) ∧
    Wire.read point (w.backend (w.connection k).backend).output = (.message (.map entries), rest) ∧
    (Entries.field? "method" entries).getD .null = .null ∧
    ((Entries.field? "id" entries).getD .null).key? = some key ∧ (Key.int id).same key = true ∧
    Connection.reply? entries = some o

/-- A connection reads a request of the backend. -/
def Demands (w : World) (f : Frame) (k : ConnectionId) (id method params : Value) : Prop :=
  ∃ point entries rest, f = .connection k (.read point) ∧
    Wire.read point (w.backend (w.connection k).backend).output = (.message (.map entries), rest) ∧
    Connection.demand? entries = some (id, method, params)

/-- Where a step of a connection has tasks begin: to answer a request that it reads, or to see to the end
of a process. -/
def Engages (w : World) (f : Frame) (o : Outcome Result) (g : Frame) : Prop :=
  (∃ s grace, g = .session s (.shutdown grace)) ∨ ∃ r k id method params, o = .ok r ∧
    g = .connection k (.answer id method params) ∧ w.Demands f k id method params

/-- The cells that a step at a place may make, by who will settle them. -/
def Offers (w : World) : Frame → Role → Prop
  | .connection k (.request ..), r => r = .request k (w.connection k).nextId
  | .session s (.shutdown _), r | .session s .terminate, r | .session s .terminateOver, r =>
    ∃ b, (w.session s).backend = some b ∧ r = .exit b
  | _, r => r = .loose

/-- What a step at a place may settle, make and guard: requests are settled by the response that a
connection reads, or by its end. -/
def Answers (w : World) (f : Frame) : Licence where
  settles k id o := w.Hears f k id o ∨ (f.mayEnd k ∧ ∃ name, o = .error (.closed name .ended))
  gives := w.Offers f
  guards := f.guards = true

/-- Where a session goes that is coming to its end. -/
inductive Ending (w : World) (s : SessionId) : Frame → Prop
  | stage {p : Session.Stage} (h : p.ends = true) : Ending w s (.session s p)
  | wait (p : Wait) : Ending w s (.wait p)
  | close {k : ConnectionId} (h : (w.session s).connection = some k) :
    Ending w s (.connection k .close)

/-- No failure of a launch is at hand. -/
structure Easy (w : World) (f : Frame) (o : Outcome Result) : Prop where
  cells : ∀ c o, w.loop.outcome? c = some o → Calm o
  frame : f.IsCalm
  outcome : Calm o

/-- What a step of a task changes in the core, and where it goes on. -/
inductive Change (w : World) :
    Frame → Outcome Result → List Frame → Flow Frame Result → Core → Prop
  | quiet {f : Frame} {o : Outcome Result} {begun : List Frame} {flow : Flow Frame Result}
    (frames : ∀ g ∈ flow.frames, f.Follows g)
    (begun_ : ∀ g ∈ begun, f.Opens w.relays.length g)
    (calm : w.Easy f o → (∀ o', flow = .done o' → Calm o') ∧ ∀ g ∈ flow.frames, g.IsCalm) :
    Change w f o begun flow w.core
  | closing {s : SessionId} {p : Session.Stage} {o : Outcome Result} {flow : Flow Frame Result}
    (closes : p.closes = true) (frames : ∀ g ∈ flow.frames, Ending w s g)
    (calm : Calm o → ∀ o', flow = .done o' → Calm o') :
    Change w (.session s p) o [] flow w.core
  | notes {k : ConnectionId} {method : String} {params : Value} {r : Result} (last : Bool)
    (alive : (w.connection k).closed = false) :
    Change w (.connection k (.notify method params)) (.ok r) [] (.goto (.connection k .drain))
      (w.core.send (w.connection k).backend (Connection.notification method params) last)
  | requests {k : ConnectionId} {method : String} {params : Value} {timeout : Timeout}
    {r : Result} (last : Bool) (alive : (w.connection k).closed = false) :
    Change w (.connection k (.request method params timeout)) (.ok r) []
      (.call (.connection k .drain)
        (.connection k (.requestWritten (w.connection k).nextId w.loop.cells.length timeout)))
      ((w.core.setConnection k
          (Connection.enroll (w.connection k).nextId w.loop.cells.length)).send
        (w.connection k).backend (Connection.request (w.connection k).nextId method params) last)
  | answers {k : ConnectionId} {id : Value} {result : Except Failure Value} {r : Result}
    (last : Bool) :
    Change w (.connection k (.answerReady id result)) (.ok r) []
      (.call (.connection k .drain) (.connection k .answerWritten))
      (w.core.send (w.connection k).backend (Connection.response id result) last)
  | closes {k : ConnectionId} {p : Connection.Stage} {o o' : Outcome Result}
    (owner : ∀ s, (w.connection k).owner = .session s → (w.session s).stopping = true)
    (calm : Calm o') :
    Change w (.connection k p) o [] (.done o') (w.core.setConnection k Connection.cease)
  | withdraws {k : ConnectionId} {p : Connection.Stage} {id : Nat} {o : Outcome Result}
    (about : (∃ c timeout, p = .requestWritten id c timeout) ∨ p = .requestSettled id) :
    Change w (.connection k p) o [] (.done o) (w.core.setConnection k (Connection.withdraw id))
  | loses {k : ConnectionId} {p : Connection.Stage} {o o' : Outcome Result} {s : SessionId}
    {roster : List (String × SessionId)} (owner : (w.connection k).owner = .session s)
    (alive : (w.connection k).closed = false) (unasked : (w.session s).stopping = false)
    (strikes : Strikes s w.core.roster roster) (calm : Calm o') :
    Change w (.connection k p) o [.session s (.shutdown Session.killGrace)] (.done o')
      (((w.core.setConnection k Connection.cease).setSession s
        (lost w.loop.tasks.length)).setRoster roster)
  | stumbles {s : SessionId} {r : Result} {e : Failure}
    (fresh : (w.session s).state = .unstarted) (calm : Calm (.error e)) :
    Change w (.session s .start) (.ok r) [] (.done (.error e))
      (w.core.setSession s fun x => { x with state := .starting })
  | fails {s : SessionId} {p : Session.Stage} {r : Result} {key reason : String}
    (start : p.starts = true) :
    Change w (.session s p) (.ok r) [] (.done (.error (.launch key reason)))
      (w.core.setSession s Session.spent)
  | shuts {s : SessionId} {r : Result} :
    Change w (.session s .released) (.ok r) [] (.done (.ok .nothing))
      (w.core.setSession s Session.shut)
  | launches {s : SessionId} {r : Result} {flow : Flow Frame Result}
    (fresh : (w.session s).state = .unstarted)
    (flow_ : flow = .goto (.session s (.launched w.backends.length)) ∨
      ∃ c, flow = .await c (.session s (.launched w.backends.length))) :
    Change w (.session s .start) (.ok r) [] flow
      { w.core.setSession s fun x => { x with state := .starting } with
        inboxes := w.core.inboxes ++ [⟨[], false, false⟩] }
  | arrives {s : SessionId} {b : BackendId} {r : Result}
    (stopping : (w.session s).stopping = true) :
    Change w (.session s (.launched b)) (.ok r) [] (.goto (.session s (.shutdown (.after 0))))
      ((w.core.spawn b).setSession s fun x => { x with backend := some b })
  | connects {s : SessionId} {b : BackendId} {r : Result} {flow : Flow Frame Result}
    (going : (w.session s).stopping = false)
    (flow_ : (∃ params timeout, (w.session s).initializeParams = .ok params ∧
        flow = .call (.connection w.connections.length (.request "initialize" params timeout))
          (.session s .initializeAnswered)) ∨
      ∃ e, flow = .done (.error e) ∧ Calm (.error e)) :
    Change w (.session s (.launched b)) (.ok r) [.connection w.connections.length (.read .start)]
      flow { (w.core.spawn b).setSession s fun x =>
          { x with backend := some b, connection := some w.connections.length } with
        connections := w.core.connections ++ [Connection.opened b s w.loop.tasks.length] }
  | greets {s : SessionId} {r : Result} {flow : Flow Frame Result}
    (flow_ : (∃ k, (w.session s).connection = some k ∧
        flow = .call (.connection k (.notify "initialized" (.map [])))
          (.session s .initializedSent)) ∨
      (w.session s).connection = none ∧ flow = .goto (.session s .initializedSent)) :
    Change w (.session s .initializeAnswered) (.ok r) [] flow w.core
  | abandons {s : SessionId} {p : Session.Stage} {e : Failure}
    (start : p = .initializeAnswered ∨ p = .initializedSent)
    (going : (w.session s).stopping = false) :
    Change w (.session s p) (.error e) []
      (.call (.session s (.shutdown (.after 0))) (.session s (.abandoned e)))
      (w.core.setSession s fun x => { x with stopping := true })
  | readies {s : SessionId} {k : ConnectionId} {r : Result} {x : Core}
    (starting : (w.session s).state = .starting) (connected : (w.session s).connection = some k)
    (sound : (w.connection k).closed = true → (w.session s).outbox = [])
    (sends : Sends (w.connection k).backend
      ((w.session s).outbox.map fun n => Connection.notification n.1 n.2)
      (w.core.setSession s fun x => { x with outbox := [] }) x) :
    Change w (.session s .initializedSent) (.ok r) []
      (.call (.connection k .drain) (.session s .flushed))
      (x.setSession s fun x => { x with state := .ready })
  | drops {s : SessionId} {k : ConnectionId} {r : Result} {o' : Outcome Result}
    (connected : (w.session s).connection = some k) (dead : (w.connection k).closed = true)
    (calm : Calm o') :
    Change w (.session s .initializedSent) (.ok r) [] (.done o')
      (w.core.setSession s fun x => { x with outbox := [] })
  | buffers {s : SessionId} {method : String} {params : Value} {r : Result}
    (early : (w.session s).state.buffers = true) :
    Change w (.session s (.notify method params)) (.ok r) [] (.done (.ok .nothing))
      (w.core.setSession s fun x => { x with outbox := x.outbox ++ [(method, params)] })
  | tells {s : SessionId} {k : ConnectionId} {method : String} {params : Value} {r : Result}
    (ready : (w.session s).state = .ready) (connected : (w.session s).connection = some k) :
    Change w (.session s (.notify method params)) (.ok r) []
      (.call (.connection k (.notify method params)) (.session s (.notified method))) w.core
  | joins {s : SessionId} {timeout : Timeout} {r : Result} {t : TaskId}
    (going : (w.session s).stopping = false) (reaped : (w.session s).reaper = some t) :
    Change w (.session s (.stop timeout)) (.ok r) [] (.await (w.loop.taskCell t) .pass)
      (w.core.setSession s fun x => { x with stopping := true })
  | stops {s : SessionId} {timeout grace : Timeout} {r : Result}
    (going : (w.session s).stopping = false) (unreaped : (w.session s).reaper = none) :
    Change w (.session s (.stop timeout)) (.ok r) [] (.goto (.session s (.shutdown grace)))
      (w.core.setSession s fun x => { x.moveToStopped with outbox := [], stopping := true })
  | asks {s : SessionId} {timeout : Timeout} {r : Result} {k : ConnectionId}
    (going : (w.session s).stopping = false) (unreaped : (w.session s).reaper = none)
    (ready : (w.session s).state = .ready) (connected : (w.session s).connection = some k)
    (alive : (w.connection k).closed = false) :
    Change w (.session s (.stop timeout)) (.ok r) []
      (.call (.connection k (.request "shutdown" .null timeout))
        (.session s (.shutdownAnswered timeout)))
      (w.core.setSession s fun x => { x.moveToStopped with outbox := [], stopping := true })
  | dismisses {s : SessionId} {timeout : Timeout} {r : Result} {flow : Flow Frame Result}
    (flow_ : (∃ k, (w.session s).connection = some k ∧
        flow = .call (.connection k (.notify "exit" .null)) (.session s (.exitSent timeout))) ∨
      (w.session s).connection = none ∧ flow = .goto (.session s (.exitSent timeout))) :
    Change w (.session s (.shutdownAnswered timeout)) (.ok r) [] flow w.core
  | creates {root : Option Root} {r : Result} {x : Session}
    (free : ∀ s, lookup (Session.keyOf root) w.core.roster = some s → w.isRunning s = false)
    (fresh : x = (Session.make root [] .never 0).core) :
    Change w (.roster (.ensure root)) (.ok r) []
      (.call (.session w.sessions.length .start)
        (.roster (.sessionStarted (Session.keyOf root) w.sessions.length)))
      { w.core with
        sessions := w.core.sessions ++ [x]
        roster := (w.core.roster.filter fun e => e.1 ≠ Session.keyOf root) ++
          [(Session.keyOf root, w.sessions.length)] }
  | forgets {root : Option Root} {r : Result} {s : SessionId} {o' : Outcome Result}
    (found : lookup (Session.keyOf root) w.core.roster = some s) (gone : w.isRunning s = false)
    (calm : Calm o') :
    Change w (.roster (.ensure root)) (.ok r) [] (.done o')
      (w.core.setRoster (w.core.roster.filter fun e => e.1 ≠ Session.keyOf root))
  | strikes {key root reason : String} {s : SessionId} {o' : Outcome Result}
    (found : lookup key w.core.roster = some s) (calm : Calm o') :
    Change w (.roster (.sessionStarted key s)) (.error (.launch root reason)) [] (.done o')
      (w.core.setRoster (w.core.roster.filter fun e => e.1 ≠ key))
  | leaves {root : Option Root} {r : Result} {s : SessionId} {timeout : Timeout}
    (found : lookup (Session.keyOf root) w.core.roster = some s) :
    Change w (.roster (.stop root)) (.ok r) [] (.goto (.session s (.stop timeout)))
      (w.core.setRoster (w.core.roster.filter fun e => e.1 ≠ Session.keyOf root))
  | stopsAll {limit : Timeout} {r : Result} {c : CellId} {stops : List (TaskId × SessionId)}
    {timer : Option TimerId}
    (stops_ : stops = (w.core.roster.map (·.2)).mapIdx fun i s => (w.loop.tasks.length + i, s)) :
    Change w (.roster (.stopAll limit)) (.ok r)
      (w.core.roster.map fun e => .session e.2 (.stop limit))
      (.await c (.roster (.stopsOver stops timer))) (w.core.setRoster [])

/-- Where tasks begin: on an errand, or at the end of a process, or to stop a session. -/
theorem Change.begun_cases {w : World} {f g : Frame} {o : Outcome Result} {begun : List Frame}
    {flow : Flow Frame Result} {x : Core} (h : Change w f o begun flow x) (hg : g ∈ begun) :
    g.isErrand = true ∨ (∃ s grace, g = .session s (.shutdown grace)) ∨
      ∃ s limit, g = .session s (.stop limit) := by
  cases h with
  | quiet _ begun_ => exact .inl (begun_ g hg).errand
  | loses => exact .inr (.inl ⟨_, _, List.mem_singleton.1 hg⟩)
  | connects => exact .inl (List.mem_singleton.1 hg ▸ rfl)
  | stopsAll =>
    obtain ⟨e, -, rfl⟩ := List.mem_map.1 hg
    exact .inr (.inr ⟨_, _, rfl⟩)
  | _ => cases hg

/-- A cell made since there were `n`, that can be cancelled to no harm. -/
structure Made (n : Nat) (R : CellId → Prop) (c : CellId) (w : World) : Prop where
  new : n ≤ c
  inside : c < w.loop.cells.length
  members : ∀ k, w.loop.kind? c = some k → (∀ t, k ≠ .task t) ∧ ∀ m ∈ k.members, R m

/-- What a step waits for, and what it leaves to be waited for. -/
structure Awaits (R : CellId → Prop) (w : World) (f : Frame) (step : Step) : Prop where
  cell : ∀ c g, step.1 = .await c g → c ∈ f.names ∨
    (∃ drops t, w.Refers drops t ∧ c = w.loop.taskCell t) ∨ Made w.loop.cells.length R c step.2
  names : ∀ g ∈ step.1.frames, ∀ c ∈ g.names,
    c ∈ f.names ∨ (w.loop.cells.length ≤ c ∧ step.2.loop.kind? c = some .plain)

/-- A step of a task at a place. -/
structure Turn (R : CellId → Prop) (w : World) (f : Frame) (o : Outcome Result)
    (begun : List Frame) (step : Step) : Prop where
  keeps : Keeps (w.Answers f) R begun w step.2
  awaits : Awaits R w f step
  change : Change w f o begun step.1 step.2.core

/-- The cells that a step may cancel. -/
structure Reaches (w : World) (f : Frame) (R : CellId → Prop) : Prop where
  inside : ∀ c, R c → c < w.loop.cells.length
  refers : ∀ t, w.Refers true t → R (w.loop.taskCell t)
  starts : ∀ c ∈ f.starts, R c
  lates : ∀ t ∈ f.lates, R (w.loop.taskCell t)

theorem calm_error {e : Failure} (h : ∀ root reason, e ≠ .launch root reason) :
    Calm (.error e) := by
  intro root reason same
  exact h root reason (Except.error.inj same)

theorem Awaits.idle {R : CellId → Prop} {w w' : World} {f : Frame} {flow : Flow Frame Result}
    (stays : ∀ c g, flow ≠ .await c g) (names : ∀ g ∈ flow.frames, g.names = []) :
    Awaits R w f (flow, w') where
  cell c g h := absurd h (stays c g)
  names g hg c hc := by
    rw [names g hg] at hc
    cases hc

namespace Turn

variable {R : CellId → Prop} {w w' : World} {f : Frame} {o : Outcome Result}
variable {begun : List Frame}

theorem quiet {flow : Flow Frame Result} (h : Quiet (w.Answers f) R begun w w')
    (awaits : Awaits R w f (flow, w')) (frames : ∀ g ∈ flow.frames, f.Follows g)
    (begun_ : ∀ g ∈ begun, f.Opens w.relays.length g)
    (calm : w.Easy f o → (∀ o', flow = .done o' → Calm o') ∧ ∀ g ∈ flow.frames, g.IsCalm) :
    Turn R w f o begun (flow, w') := by
  refine ⟨h.keeps, awaits, ?_⟩
  rw [h.core]
  exact .quiet frames begun_ calm

/-- A step that shows in the core, and waits for nothing. -/
theorem shows {flow : Flow Frame Result} {x : Core} (kept : Keeps (w.Answers f) R begun w w')
    (core : w'.core = x) (change : Change w f o begun flow x) (stays : ∀ c g, flow ≠ .await c g)
    (names : ∀ g ∈ flow.frames, g.names = []) : Turn R w f o begun (flow, w') where
  keeps := kept
  awaits := .idle stays names
  change := core ▸ change

/-- A step that ends a call, whose tasks may have begun others. -/
theorem done_begun {o' : Outcome Result} (h : Quiet (w.Answers f) R begun w w')
    (begun_ : ∀ g ∈ begun, f.Opens w.relays.length g)
    (calm : w.Easy f o → Calm o') : Turn R w f o begun (.done o', w') := by
  refine quiet h (.idle (fun _ _ => by simp) (fun _ hg => nomatch hg)) (fun _ hg => nomatch hg)
    begun_ fun easy => ⟨?_, fun _ hg => nomatch hg⟩
  intro o'' same
  cases same
  exact calm easy

theorem done {o' : Outcome Result} (h : Quiet (w.Answers f) R [] w w')
    (calm : w.Easy f o → Calm o') : Turn R w f o [] (.done o', w') :=
  done_begun h (fun _ hg => nomatch hg) calm

theorem finish (h : Quiet (w.Answers f) R [] w w') : Turn R w f o [] w'.finish :=
  done h fun _ => calm_ok _

theorem fail {e : Failure} (h : Quiet (w.Answers f) R [] w w')
    (calm : w.Easy f o → Calm (.error e)) : Turn R w f o [] (w'.fail e) :=
  done h calm

theorem fail_on {e : Failure} (w : World) : Turn R w f (.error e) [] (w.fail e) :=
  fail (.refl w) fun easy => easy.outcome

theorem goto_begun {g : Frame} (h : Quiet (w.Answers f) R begun w w')
    (begun_ : ∀ g ∈ begun, f.Opens w.relays.length g)
    (follows : f.Follows g) (names : g.names = []) (calm : w.Easy f o → g.IsCalm) :
    Turn R w f o begun (w'.continueAt g) := by
  refine quiet h (.idle (fun _ _ => by simp) ?_) ?_ begun_ fun easy => ⟨(fun _ h => nomatch h), ?_⟩
  · exact List.forall_mem_singleton.2 names
  · exact List.forall_mem_singleton.2 follows
  · exact List.forall_mem_singleton.2 (calm easy)

theorem goto {g : Frame} (h : Quiet (w.Answers f) R [] w w') (follows : f.Follows g)
    (names : g.names = []) (calm : w.Easy f o → g.IsCalm) :
    Turn R w f o [] (w'.continueAt g) :=
  goto_begun h (fun _ hg => nomatch hg) follows names calm

theorem pause {g : Frame} (h : Quiet (w.Answers f) R [] w w') (follows : f.Follows g)
    (names : g.names = []) (calm : w.Easy f o → g.IsCalm) :
    Turn R w f o [] (.pause g, w') := by
  refine quiet h (.idle (fun _ _ => by simp) ?_) ?_ (fun _ hg => nomatch hg)
    fun easy => ⟨(fun _ h => nomatch h), ?_⟩
  · exact List.forall_mem_singleton.2 names
  · exact List.forall_mem_singleton.2 follows
  · exact List.forall_mem_singleton.2 (calm easy)

theorem call {inner next : Frame} (h : Quiet (w.Answers f) R [] w w')
    (first : f.Follows inner) (then_ : f.Follows next)
    (names : ∀ c, c ∈ inner.names ∨ c ∈ next.names → c ∈ f.names)
    (calm : w.Easy f o → inner.IsCalm ∧ next.IsCalm) :
    Turn R w f o [] (.call inner next, w') := by
  refine quiet h ⟨(fun _ _ h => nomatch h), ?_⟩ ?_ (fun _ hg => nomatch hg)
    fun easy => ⟨(fun _ h => nomatch h), ?_⟩
  · refine List.forall_mem_cons.2 ⟨fun c hc => ?_, List.forall_mem_singleton.2 fun c hc => ?_⟩
    · exact .inl (names c (.inl hc))
    · exact .inl (names c (.inr hc))
  · exact List.forall_mem_cons.2 ⟨first, List.forall_mem_singleton.2 then_⟩
  · exact List.forall_mem_cons.2 ⟨(calm easy).1, List.forall_mem_singleton.2 (calm easy).2⟩

theorem await {c : CellId} {g : Frame} (h : Quiet (w.Answers f) R [] w w')
    (cell : c ∈ f.names ∨ (∃ drops t, w.Refers drops t ∧ c = w.loop.taskCell t) ∨
      Made w.loop.cells.length R c w') (follows : f.Follows g)
    (names : ∀ d ∈ g.names, d ∈ f.names) (calm : w.Easy f o → g.IsCalm) :
    Turn R w f o [] (.await c g, w') := by
  refine quiet h ⟨?_, ?_⟩ ?_ (fun _ hg => nomatch hg) fun easy => ⟨(fun _ h => nomatch h), ?_⟩
  · intro c' g' same
    cases same
    exact cell
  · exact List.forall_mem_singleton.2 fun d hd => .inl (names d hd)
  · exact List.forall_mem_singleton.2 follows
  · exact List.forall_mem_singleton.2 (calm easy)

end Turn

end World
end LanguageClient
