import LanguageClient.Proofs.Client.Leads

/-!
What stands on what: a place in a client that has called something has one of its places on top of
it, and nothing else ever.
-/

namespace LanguageClient

open Schedule

/-- What the places of a client call. -/
inductive Routine where
  | drains
  | waits
  | asks (method : String)
  | tells (method : String) (params : Value)
  | closes
  | ends
deriving Repr

/-- The places that belong to what is called. -/
inductive Routine.Has : Routine → Frame → Prop
  | drain {k : ConnectionId} : Has .drains (.connection k .drain)
  | drained {k : ConnectionId} : Has .drains (.connection k .drained)
  | wait {p : Wait} : Has .waits (.wait p)
  | pass : Has .waits .pass
  | request {k : ConnectionId} {method : String} {params : Value} {timeout : Timeout} :
    Has (.asks method) (.connection k (.request method params timeout))
  | written {k : ConnectionId} {method : String} {id : Nat} {c : CellId} {timeout : Timeout} :
    Has (.asks method) (.connection k (.requestWritten id c timeout))
  | settled {k : ConnectionId} {method : String} {id : Nat} :
    Has (.asks method) (.connection k (.requestSettled id))
  | notify {k : ConnectionId} {method : String} {params : Value} :
    Has (.tells method params) (.connection k (.notify method params))
  | noted {k : ConnectionId} {method : String} {params : Value} :
    Has (.tells method params) (.connection k .drain)
  | sent {k : ConnectionId} {method : String} {params : Value} :
    Has (.tells method params) (.connection k .drained)
  | close {k : ConnectionId} : Has .closes (.connection k .close)
  | readerStopped {k : ConnectionId} : Has .closes (.connection k .readerStopped)
  | answersStopped {k : ConnectionId} : Has .closes (.connection k .answersStopped)
  | stage {s : SessionId} {p : Session.Stage} (h : p.ends = true) : Has .ends (.session s p)

/-- What has been called from a place that is not on top. -/
def Frame.Calls : Frame → Routine → Prop
  | .connection _ (.requestWritten ..), r | .connection _ .answerWritten, r
  | .session _ .flushed, r => r = .drains
  | .connection _ (.requestSettled _), r | .session _ .graceOver, r
  | .session _ .terminateOver, r | .session _ .killed, r => r = .waits
  | .session _ .initializeAnswered, r => r = .asks "initialize"
  | .session _ .initializedSent, r => r = .tells "initialized" (.map [])
  | .session _ (.notified method), r => ∃ params, r = .tells method params
  | .session _ (.shutdownAnswered _), r => r = .asks "shutdown"
  | .session _ (.exitSent _), r => r = .tells "exit" .null
  | .session _ (.abandoned _), r => r = .ends
  | .session _ .released, r => r = .closes
  | _, _ => False

namespace World

/-- Every place of a stack but the first has called the one before it. -/
def Linked : List Frame → Prop
  | f :: g :: rest => (∃ r, g.Calls r ∧ r.Has f) ∧ Linked (g :: rest)
  | _ => True

variable {t : TaskId} {w w' : World} {f g : Frame} {rest : List Frame}
variable {o : Outcome Result} {flow : Flow Frame Result}

theorem Linked.tail (h : Linked (f :: rest)) : Linked rest := by
  cases rest with
  | nil => trivial
  | cons g rest => exact h.2

/-- Where a task goes on later has called what is above it. -/
theorem Linked.calls (h : Linked (f :: rest)) : ∀ g ∈ rest, ∃ r, g.Calls r := by
  induction rest generalizing f with
  | nil => exact fun _ hg => nomatch hg
  | cons g rest ih =>
    obtain ⟨⟨r, calls, -⟩, below⟩ := h
    exact List.forall_mem_cons.2 ⟨⟨r, calls⟩, ih below⟩

/-- A task waits at the top alone. -/
theorem Linked.wait_top {p : Wait} (h : Linked (f :: rest)) : .wait p ∉ rest := by
  intro member
  obtain ⟨r, calls⟩ := h.calls _ member
  cases p <;> cases calls

/-- What is called stays what it is as it goes on. -/
theorem Leads.stays {r : Routine} (h : Leads t w w' f o flow) (has : r.Has f) :
    ∀ g ∈ flow.frames.getLast?, r.Has g := by
  have single {g : Frame} (has' : r.Has g) : ∀ g' ∈ [g].getLast?, r.Has g' := by
    rintro _ ⟨⟩
    exact has'
  have ending {s : SessionId} {p : Session.Stage} (has : r.Has (.session s p)) :
      r = .ends ∧ p.ends = true := by
    cases has with
    | stage ends => exact ⟨rfl, ends⟩
  cases h with
  | waits => cases has with | wait => exact single .pass
  | guards => cases has with | wait => exact single .wait
  | givesUp => cases has with | wait => exact single .wait
  | stalls =>
    cases has with
    | drain => exact single .drained
    | noted => exact single .sent
  | flows =>
    cases has with
    | drain => exact single .drained
    | noted => exact single .sent
  | notes => cases has with | notify => exact single .noted
  | requests => cases has with | request => exact single .written
  | written => cases has with | written => exact single .settled
  | serves serves => cases has <;> cases serves
  | answers => cases has
  | closes => cases has with | close => exact single .readerStopped
  | stopsReader => cases has with | close => exact single .readerStopped
  | stopsAnswers _ flow_ =>
    cases has with
    | readerStopped =>
      rcases flow_ with rfl | ⟨c, rfl⟩
      · exact single .answersStopped
      · exact single .answersStopped
  | launches => cases (ending has).2
  | arrives => cases (ending has).2
  | connects => cases (ending has).2
  | greets => cases (ending has).2
  | abandons start =>
    obtain ⟨-, ends⟩ := ending has
    rcases start with rfl | rfl <;> cases ends
  | readies => cases (ending has).2
  | unconnected _ stages =>
    obtain ⟨rfl, ends⟩ := ending has
    rcases stages with ⟨rfl, -⟩ | ⟨rfl, rfl⟩ | ⟨timeout, rfl, -⟩
    · cases ends
    · exact single (.stage rfl)
    · cases ends
  | takes stages =>
    obtain ⟨-, ends⟩ := ending has
    rcases stages with rfl | ⟨c, rfl⟩ <;> cases ends
  | tells => cases (ending has).2
  | joins => cases (ending has).2
  | stops => cases (ending has).2
  | asks => cases (ending has).2
  | dismisses => cases (ending has).2
  | turns stages =>
    obtain ⟨-, ends⟩ := ending has
    rcases stages with rfl | ⟨rfl, -⟩ <;> cases ends
  | insists =>
    obtain ⟨rfl, -⟩ := ending has
    exact single (.stage rfl)
  | vacates =>
    obtain ⟨rfl, -⟩ := ending has
    exact single (.stage rfl)
  | exits =>
    obtain ⟨rfl, -⟩ := ending has
    exact single (.stage rfl)
  | watches _ _ stages =>
    obtain ⟨rfl, -⟩ := ending has
    rcases stages with ⟨-, rfl, -⟩ | ⟨-, rfl, -⟩ | ⟨-, rfl, -⟩
    · exact single (.stage rfl)
    · exact single (.stage rfl)
    · exact single (.stage rfl)
  | releases =>
    obtain ⟨rfl, -⟩ := ending has
    exact single (.stage rfl)
  | _ => exact fun _ hg => nomatch hg

/-- A call is of what the place to go on at is for. -/
theorem Leads.calls {inner next : Frame} (h : Leads t w w' f o (.call inner next)) :
    ∃ r, next.Calls r ∧ r.Has inner := by
  cases h with
  | requests => exact ⟨_, rfl, .drain⟩
  | written => exact ⟨_, rfl, .wait⟩
  | answers => exact ⟨_, rfl, .drain⟩
  | connects => exact ⟨_, rfl, .request⟩
  | greets => exact ⟨_, rfl, .notify⟩
  | abandons => exact ⟨_, rfl, .stage rfl⟩
  | readies => exact ⟨_, rfl, .drain⟩
  | tells => exact ⟨_, ⟨_, rfl⟩, .notify⟩
  | asks => exact ⟨_, rfl, .request⟩
  | dismisses => exact ⟨_, rfl, .notify⟩
  | watches _ _ h =>
    rcases h with ⟨-, rfl, -⟩ | ⟨-, rfl, -⟩ | ⟨-, rfl, -⟩
    · exact ⟨_, rfl, .wait⟩
    · exact ⟨_, rfl, .wait⟩
    · exact ⟨_, rfl, .wait⟩
  | releases => exact ⟨_, rfl, .close⟩
  | serves _ _ flow_ =>
    rcases flow_ with same | ⟨c, -, same⟩ <;> cases same
  | stopsAnswers _ flow_ =>
    rcases flow_ with same | ⟨c, same⟩ <;> cases same
  | launches _ flow_ =>
    rcases flow_ with same | ⟨c, -, same⟩ <;> cases same
  | takes _ _ flow_ =>
    rcases flow_ with same | same | ⟨c, -, same⟩ <;> cases same

theorem Linked.goes (h : Linked (f :: rest)) (leads : Leads t w w' f o flow) :
    Linked (flow.frames ++ rest) := by
  have below {g : Frame} (last : g ∈ flow.frames.getLast?) : Linked (g :: rest) := by
    cases rest with
    | nil => trivial
    | cons next rest =>
      obtain ⟨⟨r, calls, has⟩, linked⟩ := h
      exact ⟨⟨r, calls, leads.stays has g last⟩, linked⟩
  cases flow with
  | done => exact h.tail
  | goto g => exact below rfl
  | await c g => exact below rfl
  | pause g => exact below rfl
  | call inner next => exact ⟨leads.calls, below rfl⟩

end World
end LanguageClient
