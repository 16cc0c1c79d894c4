import LanguageClient.Backend.Basic
import LanguageClient.Wire.Reader

/-!
A connection: requests and notifications to a backend, and what comes back from it.
-/

namespace LanguageClient

open Schedule

abbrev ConnectionId := Nat

abbrev SessionId := Nat

namespace Connection

/-- How a request of the backend is answered. -/
inductive Handler where
  /-- With its parameters. -/
  | echo
  | fail
  /-- With its parameters, a second later. -/
  | later
  /-- Never. -/
  | hang
  /-- With nothing for each item of configuration it asks for. -/
  | configuration
deriving DecidableEq, Repr, Inhabited

/-- Who hears of notifications and of the end of the connection. -/
inductive Owner where
  | session (s : SessionId)
  /-- Keeps a record; it may not want to hear of the end. -/
  | recorder (hearsEnd : Bool)
deriving DecidableEq, Repr, Inhabited

/-- The places from which calls and tasks of a connection go on. -/
inductive Stage where
  /-- Waits until what has been written is taken. -/
  | drain
  | drained
  | notify (method : String) (params : Value)
  | request (method : String) (params : Value) (timeout : Timeout)
  | requestWritten (id : Nat) (c : CellId) (timeout : Timeout)
  | requestSettled (id : Nat)
  /-- Reads messages and hands them on, until there are no more. -/
  | read (point : Wire.Point)
  | answer (id method params : Value)
  | answerDelayed (id params : Value)
  | answerNever
  | answerReady (id : Value) (result : Except Failure Value)
  | answerWritten
  | close
  | readerStopped
  | answersStopped
deriving Repr

end Connection

structure Connection where
  name : String
  backend : BackendId
  owner : Connection.Owner
  /-- For requests that name none. -/
  timeout : Timeout
  nextId : Nat
  /-- Requests without a response, and the cells that wait for one. -/
  pending : List (Nat × CellId)
  handlers : List (String × Connection.Handler)
  reader : Option TaskId
  /-- Tasks that answer requests of the backend. -/
  answers : List TaskId
  closed : Bool
deriving Repr, Inhabited

namespace Connection

def make (name : String) (backend : BackendId) (owner : Owner) (timeout : Timeout)
    (handlers : List (String × Handler)) : Connection where
  name := name
  backend := backend
  owner := owner
  timeout := timeout
  nextId := 1
  pending := []
  handlers := handlers
  reader := none
  answers := []
  closed := false

/-- The members of a message that asks or tells something; no parameters are left out. -/
def call (head : List (String × Value)) (method : String) (params : Value) : Value :=
  .record ([("jsonrpc", .text "2.0")] ++ head ++ [("method", .text method)] ++
    if params = .null then [] else [("params", params)])

def notification (method : String) (params : Value) : Value := call [] method params

def request (id : Nat) (method : String) (params : Value) : Value :=
  call [("id", .int id)] method params

/-- The answer to a request of the backend. -/
def response (id : Value) (result : Except Failure Value) : Value :=
  .record ([("jsonrpc", .text "2.0"), ("id", id)] ++
    match result with
    | .ok v => [("result", v)]
    | .error e =>
      [("error", .record [("code", .int (-32603)), ("message", .text e.message)])])

/-- Nothing for each item asked for. -/
def emptyConfiguration (params : Value) : Except Failure Value :=
  let items := (params.field? "items").getD .null
  if !items.truthy then .ok (.list [])
  else match items with
    | .list xs => .ok (.list (xs.map fun _ => .null))
    | .text s => .ok (.list (s.toList.map fun _ => .null))
    | .map entries => .ok (.list (entries.map fun _ => .null))
    | v => .error (.noLength v.kind)

/-- The cell of the pending request that an identifier names. -/
def pending? (id : Key) (c : Connection) : Option CellId :=
  (c.pending.find? fun p => (Key.int p.1).same id).map (·.2)

/-- How requests of a method are answered; other requests are answered with nothing. -/
def handler? (method : Key) (c : Connection) : Option Handler :=
  (c.handlers.find? fun h => (Key.text h.1).same method).map (·.2)

end Connection
end LanguageClient
