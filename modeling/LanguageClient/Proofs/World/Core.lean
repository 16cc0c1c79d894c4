import LanguageClient.World.Run

/-!
The core of a world: where its sessions and connections stand, what the backends have been sent, and
which sessions are on the roster. Most operations leave it as it is.
-/

namespace LanguageClient

open Schedule

/-- A session without what its start, its events and its watchers depend on. -/
def Session.core (x : Session) : Session :=
  { x with command := [], timeout := .never, bus := ⟨0, [], x.bus.closed⟩, takers := [],
           started := false, watchers := [] }

/-- No event is published any more. -/
def Session.shut (x : Session) : Session := { x with bus := { x.bus with closed := true } }

theorem Session.core_close (x : Session) : { x with bus := x.bus.close }.core = x.core.shut := by
  simp [core, shut, Bus.closed_close]

def Connection.core (x : Connection) : Connection :=
  { x with name := "", timeout := .never, handlers := [], answers := [] }

/-- A connection of a session, with the task that reads from it. -/
def Connection.opened (b : BackendId) (s : SessionId) (reader : TaskId) : Connection :=
  { (Connection.make "" b (.session s) .never []).core with reader := some reader }

/-- What a backend has been sent, whether it can be sent more, and whether it has come to exist. -/
structure Inbox where
  received : List Value
  broken : Bool
  spawned : Bool

def Backend.inbox (x : Backend) : Inbox := ⟨x.received, x.broken, x.spawned⟩

/-- A message comes in, unless nothing does any more; it may be the last one. -/
def Inbox.take (message : Value) (last : Bool) (x : Inbox) : Inbox :=
  if x.broken then x else { x with received := x.received ++ [message], broken := last }

structure Core where
  sessions : List Session
  connections : List Connection
  inboxes : List Inbox
  roster : List (String × SessionId)

namespace Core

def session (s : SessionId) (x : Core) : Session := x.sessions.getD s (Session.core default)
def connection (k : ConnectionId) (x : Core) : Connection :=
  x.connections.getD k (Connection.core default)
def inbox (b : BackendId) (x : Core) : Inbox := x.inboxes.getD b (Backend.inbox default)

def setSession (s : SessionId) (f : Session → Session) (x : Core) : Core :=
  { x with sessions := x.sessions.modify s f }

def setConnection (k : ConnectionId) (f : Connection → Connection) (x : Core) : Core :=
  { x with connections := x.connections.modify k f }

def send (b : BackendId) (message : Value) (last : Bool) (x : Core) : Core :=
  { x with inboxes := x.inboxes.modify b (·.take message last) }

/-- A task reads from a connection. -/
def setReader (k : ConnectionId) (t : TaskId) (x : Core) : Core :=
  x.setConnection k fun y => { y with reader := some t }

/-- A backend comes to exist. -/
def spawn (b : BackendId) (x : Core) : Core :=
  { x with inboxes := x.inboxes.modify b fun i => { i with spawned := true } }

/-- A backend takes nothing in any more. -/
def cut (b : BackendId) (x : Core) : Core :=
  { x with inboxes := x.inboxes.modify b fun i => { i with broken := true } }

def setRoster (roster : List (String × SessionId)) (x : Core) : Core := { x with roster := roster }

end Core

/-- The session that is registered under a key. -/
def lookup (key : String) (roster : List (String × SessionId)) : Option SessionId :=
  (roster.find? fun e => e.1 = key).map (·.2)

theorem lookup_filter_ne {key key' : String} (h : key' ≠ key)
    (roster : List (String × SessionId)) :
    lookup key' (roster.filter fun e => e.1 ≠ key) = lookup key' roster := by
  simp only [lookup, List.find?_filter]
  congr 2
  funext e
  by_cases he : e.1 = key' <;> simp [he, h]

theorem mem_of_lookup {key : String} {s : SessionId} {roster : List (String × SessionId)}
    (h : lookup key roster = some s) : (key, s) ∈ roster := by
  obtain ⟨e, found, same⟩ := Option.map_eq_some_iff.1 h
  have key_eq : e.1 = key := by simpa using List.find?_some found
  subst key_eq same
  exact List.mem_of_find?_eq_some found

namespace World

def core (w : World) : Core where
  sessions := w.sessions.map Session.core
  connections := w.connections.map Connection.core
  inboxes := w.backends.map Backend.inbox
  roster := w.roster.sessions

/-- The process of a backend has ended. -/
def Exited (b : BackendId) (w : World) : Prop := (w.backend b).exitCode.isSome = true

theorem length_core_sessions (w : World) : w.core.sessions.length = w.sessions.length :=
  List.length_map _

theorem session_core (s : SessionId) (w : World) : w.core.session s = (w.session s).core := by
  simp only [Core.session, core, session, List.getD_eq_getElem?_getD, List.getElem?_map]
  cases w.sessions[s]? <;> rfl

theorem connection_core (k : ConnectionId) (w : World) :
    w.core.connection k = (w.connection k).core := by
  simp only [Core.connection, core, connection, List.getD_eq_getElem?_getD, List.getElem?_map]
  cases w.connections[k]? <;> rfl

theorem inbox_core (b : BackendId) (w : World) : w.core.inbox b = (w.backend b).inbox := by
  simp only [Core.inbox, core, backend, List.getD_eq_getElem?_getD, List.getElem?_map]
  cases w.backends[b]? <;> rfl

theorem getD_modify {α : Type} (i j : Nat) (f : α → α) (xs : List α) (d : α) :
    (xs.modify i f).getD j d = xs.getD j d ∨
      (j = i ∧ (xs.modify i f).getD j d = f (xs.getD j d)) := by
  simp only [List.getD_eq_getElem?_getD, List.getElem?_modify]
  cases xs[j]? with
  | none => exact .inl rfl
  | some x =>
    by_cases hi : i = j
    · exact .inr ⟨hi.symm, by simp [hi]⟩
    · exact .inl (by simp [hi])

theorem backend_setBackend (b b' : BackendId) (f : Backend → Backend) (w : World) :
    (w.setBackend b f).backend b' = w.backend b' ∨
      (b' = b ∧ (w.setBackend b f).backend b' = f (w.backend b')) := getD_modify b b' f _ _

theorem session_setSession (s s' : SessionId) (f : Session → Session) (w : World) :
    (w.setSession s f).session s' = w.session s' ∨
      (s' = s ∧ (w.setSession s f).session s' = f (w.session s')) := getD_modify s s' f _ _

theorem connection_setConnection (k k' : ConnectionId) (f : Connection → Connection) (w : World) :
    (w.setConnection k f).connection k' = w.connection k' ∨
      (k' = k ∧ (w.setConnection k f).connection k' = f (w.connection k')) := getD_modify k k' f _ _

theorem relay_setRelay (r r' : RelayId) (f : Relay → Relay) (w : World) :
    (w.setRelay r f).relay r' = w.relay r' ∨
      (r' = r ∧ (w.setRelay r f).relay r' = f (w.relay r')) := getD_modify r r' f _ _

theorem modify_concat {α : Type} (xs : List α) (x : α) (f : α → α) :
    (xs ++ [x]).modify xs.length f = xs ++ [f x] := by
  refine List.ext_getElem? fun i => ?_
  simp only [List.getElem?_modify, List.getElem?_append]
  grind

theorem map_modify {α β : Type} {f : α → α} {g : α → β} {h : β → β} (same : ∀ x, g (f x) = h (g x))
    (i : Nat) (xs : List α) : (xs.modify i f).map g = (xs.map g).modify i h := by
  refine List.ext_getElem? fun j => ?_
  simp only [List.getElem?_map, List.getElem?_modify]
  cases xs[j]? with
  | none => rfl
  | some x => by_cases hi : i = j <;> simp [hi, same]

theorem map_modify_same {α β : Type} {f : α → α} {g : α → β} (same : ∀ x, g (f x) = g x)
    (i : Nat) (xs : List α) : (xs.modify i f).map g = xs.map g := by
  refine List.ext_getElem? fun j => ?_
  simp only [List.getElem?_map, List.getElem?_modify]
  cases xs[j]? with
  | none => rfl
  | some x => by_cases hi : i = j <;> simp [hi, same]

theorem core_setSession_eq {f g : Session → Session} (h : ∀ x, (f x).core = g x.core)
    (s : SessionId) (w : World) : (w.setSession s f).core = w.core.setSession s g := by
  simp only [core, setSession, Core.setSession, map_modify h]
  rfl

theorem core_setSession {f : Session → Session} (h : ∀ x, (f x).core = x.core) (s : SessionId)
    (w : World) : (w.setSession s f).core = w.core := by
  simp only [core, setSession, map_modify_same h]
  rfl

theorem core_setConnection_eq {f g : Connection → Connection} (h : ∀ x, (f x).core = g x.core)
    (k : ConnectionId) (w : World) : (w.setConnection k f).core = w.core.setConnection k g := by
  simp only [core, setConnection, Core.setConnection, map_modify h]
  rfl

theorem core_setConnection {f : Connection → Connection} (h : ∀ x, (f x).core = x.core)
    (k : ConnectionId) (w : World) : (w.setConnection k f).core = w.core := by
  simp only [core, setConnection, map_modify_same h]
  rfl

theorem core_breakInput (b : BackendId) (w : World) : (w.breakInput b).core = w.core.cut b := by
  have same : (w.breakInput b).backends.map Backend.inbox =
      (w.backends.map Backend.inbox).modify b fun i => { i with broken := true } :=
    map_modify (fun _ => by rfl) b w.backends
  simp only [core, same, Core.cut]
  rfl

theorem core_setBackend {f : Backend → Backend} (h : ∀ x, (f x).inbox = x.inbox) (b : BackendId)
    (w : World) : (w.setBackend b f).core = w.core := by
  simp only [core, setBackend, map_modify_same h]
  rfl

@[simp] theorem core_onLoop (f : Loop Frame Result Notice → Loop Frame Result Notice) (w : World) :
    (w.onLoop f).core = w.core := rfl

@[simp] theorem core_setRelay (r : RelayId) (f : Relay → Relay) (w : World) :
    (w.setRelay r f).core = w.core := rfl

@[simp] theorem core_see (x : Sight) (w : World) : (w.see x).core = w.core := rfl

@[simp] theorem core_showError (message : String) (w : World) :
    (w.showError message).core = w.core := rfl

@[simp] theorem core_release (c : CellId) (w : World) : (w.release c).core = w.core := rfl

@[simp] theorem core_newCell (w : World) : w.newCell.2.core = w.core := rfl

@[simp] theorem core_spawn (f : Frame) (w : World) : (w.spawn f).2.core = w.core := rfl

@[simp] theorem core_sleep (span : Int) (w : World) : (w.sleep span).2.core = w.core := rfl

@[simp] theorem core_gather (tasks : List TaskId) (w : World) :
    (w.gather tasks).2.core = w.core := rfl

@[simp] theorem core_addRelay (r : Relay) (w : World) : (w.addRelay r).2.core = w.core := rfl

@[simp] theorem core_setTask (t : TaskId) (f : TaskState Frame → TaskState Frame) (w : World) :
    (w.setTask t f).core = w.core := rfl

theorem core_setWorkspace {f : Workspace → Workspace}
    (h : ∀ ws, (f ws).roster.sessions = ws.roster.sessions) (w : World) :
    (w.setWorkspace f).core = w.core := by
  simp only [core, roster, setWorkspace, h]

theorem core_setRoster (f : Roster → Roster) (w : World) :
    (w.setRoster f).core = w.core.setRoster (f w.roster).sessions := rfl

theorem core_releaseAll (cs : List CellId) (w : World) : (w.releaseAll cs).core = w.core := by
  induction cs generalizing w with
  | nil => rfl
  | cons c cs ih => exact ih (w.release c)

theorem core_addSession (x : Session) (w : World) :
    (w.addSession x).2.core = { w.core with sessions := w.core.sessions ++ [x.core] } := by
  simp [core, addSession, roster]

theorem core_addConnection (x : Connection) (w : World) :
    (w.addConnection x).2.core = { w.core with connections := w.core.connections ++ [x.core] } := by
  simp [core, addConnection, roster]

end World
end LanguageClient
