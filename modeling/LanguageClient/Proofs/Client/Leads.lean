import LanguageClient.Proofs.World.Session

/-!
Where the tasks of a connection and of a session go on, said once for all their places: the calls of
both, the task that reads, those that answer, and the one that sees to the end of a process.
-/

namespace LanguageClient

open Schedule

/-- Stages of the tasks that read from a backend and answer its requests. -/
def Connection.Stage.serves : Stage → Bool
  | .read _ | .answer .. | .answerDelayed .. | .answerNever | .answerReady .. | .answerWritten => true
  | _ => false

def Connection.Stage.reads : Stage → Bool
  | .read _ => true
  | _ => false

namespace Frame

/-- Places of a client: of a connection, of a session whose events are recorded, and of waits. -/
def isClient : Frame → Bool
  | .wait _ | .pass | .connection .. => true
  | .session _ (.consume (.relay _)) | .session _ (.consumeAwoken (.relay _) _) => false
  | .session .. => true
  | _ => false

/-- Places that do not just hand on a failure. -/
def catches : Frame → Failure → Bool
  | .wait (.guarded ..), _ | .connection _ (.read _), _ => true
  | .connection _ .answerWritten, e | .session _ .flushed, e | .session _ (.notified _), e =>
    match e with
    | .closed .. => true
    | _ => false
  | .connection _ .readerStopped, e => e = .cancelled
  | .session _ .initializeAnswered, _ | .session _ .initializedSent, _ => true
  | .session _ (.shutdownAnswered _), e | .session _ (.exitSent _), e => World.isExpected e
  | .session _ .graceOver, e | .session _ .terminateOver, e => e = .timeout
  | _, _ => false

end Frame

namespace World

/-- The process of a session has ended, or there is none. -/
def Vacant (s : SessionId) (w : World) : Prop := ∀ b, (w.session s).backend = some b → w.Exited b

/-- A cell that a step has made, and that is no task's. -/
def Novel (w w' : World) (c : CellId) : Prop :=
  w.loop.cells.length ≤ c ∧ w'.loop.kind? c = some .plain

/-- Where a step of a client's task goes on, from one world to another. -/
inductive Leads (t : TaskId) (w w' : World) : Frame → Outcome Result → Flow Frame Result → Prop
  | fails {f : Frame} {e : Failure} (h : f.catches e = false) :
    Leads t w w' f (.error e) (.done (.error e))
  | passes {o : Outcome Result} : Leads t w w' .pass o (.done o)
  -- waits
  | waits {c : CellId} {r : Result} : Leads t w w' (.wait (.start c .never)) (.ok r) (.await c .pass)
  | guards {c : CellId} {span : Int} {r : Result} :
    Leads t w w' (.wait (.start c (.after span))) (.ok r)
      (.await c (.wait (.guarded w.loop.nextTimer (w'.cancels t))))
  | finds {c : CellId} {span : Int} {r : Result} {o : Outcome Result}
    (settled : w.loop.outcome? c = some o) :
    Leads t w w' (.wait (.start c (.after span))) (.ok r) (.done o)
  | givesUp {c d : CellId} {span : Int} {r : Result} (unsettled : w.loop.outcome? c = none)
    (novel : Novel w w' d) :
    Leads t w w' (.wait (.start c (.after span))) (.ok r) (.await d (.wait (.released c)))
  | hears {id : TimerId} {n : Nat} {o : Outcome Result}
    (h : o ≠ .error .cancelled ∨ id ∉ w.loop.expired) :
    Leads t w w' (.wait (.guarded id n)) o (.done o)
  | expires {id : TimerId} {n : Nat} (h : id ∈ w.loop.expired) :
    Leads t w w' (.wait (.guarded id n)) (.error .cancelled)
      (.done (.error (if w.cancels t - 1 ≤ n then .timeout else .cancelled)))
  | misses {c : CellId} {r : Result}
    (h : ∀ o, w.loop.outcome? c = some o → o = .error .cancelled) :
    Leads t w w' (.wait (.released c)) (.ok r) (.done (.error .timeout))
  | meets {c : CellId} {r : Result} {o : Outcome Result} (settled : w.loop.outcome? c = some o)
    (h : o ≠ .error .cancelled) :
    Leads t w w' (.wait (.released c)) (.ok r) (.done o)
  -- connections
  | stalls {k : ConnectionId} {r : Result} {c : CellId} (novel : Novel w w' c) :
    Leads t w w' (.connection k .drain) (.ok r) (.await c (.connection k .drained))
  | flows {k : ConnectionId} {r : Result} :
    Leads t w w' (.connection k .drain) (.ok r) (.goto (.connection k .drained))
  | drains {k : ConnectionId} {r : Result} :
    Leads t w w' (.connection k .drained) (.ok r) (.done (.ok .nothing))
  | breaks {k : ConnectionId} {r : Result}
    (broken : (w.backend (w.connection k).backend).broken = true) :
    Leads t w w' (.connection k .drained) (.ok r) (.done (.error (w.brokenPipe k)))
  | notes {k : ConnectionId} {method : String} {params : Value} {r : Result}
    (alive : (w.connection k).closed = false) :
    Leads t w w' (.connection k (.notify method params)) (.ok r) (.goto (.connection k .drain))
  | mute {k : ConnectionId} {p : Connection.Stage} {r : Result}
    (writes : (∃ method params, p = .notify method params) ∨
      ∃ method params timeout, p = .request method params timeout)
    (dead : (w.connection k).closed = true) :
    Leads t w w' (.connection k p) (.ok r) (.done (.error (w.ended k)))
  | requests {k : ConnectionId} {method : String} {params : Value} {timeout : Timeout} {r : Result}
    (alive : (w.connection k).closed = false) :
    Leads t w w' (.connection k (.request method params timeout)) (.ok r)
      (.call (.connection k .drain)
        (.connection k (.requestWritten (w.connection k).nextId w.loop.cells.length timeout)))
  | written {k : ConnectionId} {id : Nat} {c : CellId} {timeout : Timeout} {r : Result} :
    Leads t w w' (.connection k (.requestWritten id c timeout)) (.ok r)
      (.call (.wait (.start c timeout)) (.connection k (.requestSettled id)))
  | settles {k : ConnectionId} {id : Nat} {o : Outcome Result} :
    Leads t w w' (.connection k (.requestSettled id)) o (.done o)
  | serves {k : ConnectionId} {p q : Connection.Stage} {r : Result} {flow : Flow Frame Result}
    (h : p.serves = true) (h' : q.serves = true)
    (flow_ : flow = .goto (.connection k q) ∨ ∃ c, Novel w w' c ∧ flow = .await c (.connection k q))
    (reads : q.reads = p.reads) : Leads t w w' (.connection k p) (.ok r) flow
  | served {k : ConnectionId} {p : Connection.Stage} {r : Result} {o : Outcome Result}
    (h : p.serves = true) : Leads t w w' (.connection k p) (.ok r) (.done o)
  | answers {k : ConnectionId} {id : Value} {result : Except Failure Value} {r : Result} :
    Leads t w w' (.connection k (.answerReady id result)) (.ok r)
      (.call (.connection k .drain) (.connection k .answerWritten))
  | answered {k : ConnectionId} {name : String} {cause : ClosedCause} :
    Leads t w w' (.connection k .answerWritten) (.error (.closed name cause)) (.done (.ok .nothing))
  | leaves {k : ConnectionId} {point : Wire.Point} {e : Failure} :
    Leads t w w' (.connection k (.read point)) (.error e) (.done (.ok .nothing))
  | closes {k : ConnectionId} {r : Result}
    (still : ∀ u, (w.connection k).reader = some u → w.loop.taskDone u = true) :
    Leads t w w' (.connection k .close) (.ok r) (.goto (.connection k .readerStopped))
  | stopsReader {k : ConnectionId} {r : Result} {u : TaskId} (reader : (w.connection k).reader = some u)
    (going : w.loop.taskDone u = false) (same : w' = w.onLoop (·.cancelTask u)) :
    Leads t w w' (.connection k .close) (.ok r)
      (.await (w.loop.taskCell u) (.connection k .readerStopped))
  | stopsAnswers {k : ConnectionId} {o : Outcome Result} {flow : Flow Frame Result}
    (h : o = .error .cancelled ∨ ∃ r, o = .ok r)
    (flow_ : flow = .goto (.connection k .answersStopped) ∨
      ∃ c, flow = .await c (.connection k .answersStopped))
    (new : ∀ c g, flow = .await c g → w.loop.cells.length ≤ c) :
    Leads t w w' (.connection k .readerStopped) o flow
  | closed {k : ConnectionId} {r : Result} :
    Leads t w w' (.connection k .answersStopped) (.ok r) (.done (.ok .nothing))
  -- the start of a session
  | late {s : SessionId} {r : Result} {state : SessionState}
    (again : (w.session s).state ≠ .unstarted) :
    Leads t w w' (.session s .start) (.ok r) (.done (.error (.badTransition state .starting)))
  | stumbles {s : SessionId} {r : Result} {e : Failure} (h : startFolder (w.session s) = .error e) :
    Leads t w w' (.session s .start) (.ok r) (.done (.error e))
  | refused {s : SessionId} {p : Session.Stage} {r : Result} {key reason : String}
    (h : p.starts = true) :
    Leads t w w' (.session s p) (.ok r) (.done (.error (.launch key reason)))
  | launches {s : SessionId} {r : Result} {flow : Flow Frame Result}
    (fresh : (w.session s).state = .unstarted)
    (flow_ : flow = .goto (.session s (.launched w.backends.length)) ∨
      ∃ c, Novel w w' c ∧ flow = .await c (.session s (.launched w.backends.length))) :
    Leads t w w' (.session s .start) (.ok r) flow
  | arrives {s : SessionId} {b : BackendId} {r : Result} (stopping : (w.session s).stopping = true) :
    Leads t w w' (.session s (.launched b)) (.ok r) (.goto (.session s (.shutdown (.after 0))))
  | lost {s : SessionId} {b : BackendId} {r : Result} {e : Failure}
    (h : (w.session s).initializeParams = .error e) :
    Leads t w w' (.session s (.launched b)) (.ok r) (.done (.error e))
  | connects {s : SessionId} {b : BackendId} {params : Value} {timeout : Timeout} {r : Result}
    (going : (w.session s).stopping = false) (h : (w.session s).initializeParams = .ok params) :
    Leads t w w' (.session s (.launched b)) (.ok r)
      (.call (.connection w.connections.length (.request "initialize" params timeout))
        (.session s .initializeAnswered))
  | greets {s : SessionId} {k : ConnectionId} {r : Result} (connected : (w.session s).connection = some k) :
    Leads t w w' (.session s .initializeAnswered) (.ok r)
      (.call (.connection k (.notify "initialized" (.map []))) (.session s .initializedSent))
  | gives {s : SessionId} {p : Session.Stage} {e : Failure} {o : Outcome Result}
    (h : p = .initializeAnswered ∨ p = .initializedSent)
    (flow_ : (isExpected e = false ∧ o = .error e) ∨
      (isExpected e = true ∧ (w.session s).stopping = true ∧ o = .ok .nothing)) :
    Leads t w w' (.session s p) (.error e) (.done o)
  | abandons {s : SessionId} {p : Session.Stage} {e : Failure}
    (h : p = .initializeAnswered ∨ p = .initializedSent) (expected : isExpected e = true)
    (going : (w.session s).stopping = false) :
    Leads t w w' (.session s p) (.error e)
      (.call (.session s (.shutdown (.after 0))) (.session s (.abandoned e)))
  | overtaken {s : SessionId} {r : Result} (h : (w.session s).state ≠ .starting) :
    Leads t w w' (.session s .initializedSent) (.ok r) (.done (.ok .nothing))
  | solitary {s : SessionId} {r : Result} (unconnected : (w.session s).connection = none) :
    Leads t w w' (.session s .initializedSent) (.ok r) (.done (.ok .nothing))
  | drops {s : SessionId} {k : ConnectionId} {r : Result} (h : (w.session s).state = .starting)
    (connected : (w.session s).connection = some k) (dead : (w.connection k).closed = true) :
    Leads t w w' (.session s .initializedSent) (.ok r) (.done (.error (w.ended k)))
  | readies {s : SessionId} {k : ConnectionId} {r : Result} (h : (w.session s).state = .starting)
    (connected : (w.session s).connection = some k) :
    Leads t w w' (.session s .initializedSent) (.ok r)
      (.call (.connection k .drain) (.session s .flushed))
  | started {s : SessionId} {o : Outcome Result}
    (h : (∃ r, o = .ok r) ∨ ∃ name cause, o = .error (.closed name cause)) :
    Leads t w w' (.session s .flushed) o (.done (.ok .nothing))
  | unconnected {s : SessionId} {p q : Session.Stage} {r : Result}
    (unconnected : (w.session s).connection = none)
    (h : (p = .initializeAnswered ∧ q = .initializedSent) ∨ (p = .release ∧ q = .released) ∨
      ∃ timeout, p = .shutdownAnswered timeout ∧ q = .exitSent timeout) :
    Leads t w w' (.session s p) (.ok r) (.goto (.session s q))
  -- notifications and events
  | takes {s : SessionId} {p q : Session.Stage} {r : Result} {flow : Flow Frame Result}
    (h : p = .consume .recorder ∨ ∃ c, p = .consumeAwoken .recorder c)
    (h' : q = .consume .recorder ∨ ∃ c, q = .consumeAwoken .recorder c)
    (flow_ : flow = .done (.ok .nothing) ∨ flow = .goto (.session s q) ∨
      ∃ c, Novel w w' c ∧ flow = .await c (.session s q)) :
    Leads t w w' (.session s p) (.ok r) flow
  | keeps {s : SessionId} {method : String} {params : Value} {r : Result}
    (early : (w.session s).state.buffers = true) :
    Leads t w w' (.session s (.notify method params)) (.ok r) (.done (.ok .nothing))
  | refuses {s : SessionId} {method : String} {params : Value} {r : Result} {e : Failure}
    (h : (w.session s).state.buffers = false)
    (h' : (w.session s).state = .ready → (w.session s).connection = none) :
    Leads t w w' (.session s (.notify method params)) (.ok r) (.done (.error e))
  | tells {s : SessionId} {k : ConnectionId} {method : String} {params : Value} {r : Result}
    (ready : (w.session s).state = .ready) (connected : (w.session s).connection = some k) :
    Leads t w w' (.session s (.notify method params)) (.ok r)
      (.call (.connection k (.notify method params)) (.session s (.notified method)))
  | told {s : SessionId} {method : String} {r : Result} :
    Leads t w w' (.session s (.notified method)) (.ok r) (.done (.ok .nothing))
  | untold {s : SessionId} {method name message : String} {cause : ClosedCause} :
    Leads t w w' (.session s (.notified method)) (.error (.closed name cause))
      (.done (.error (.forwarding method message)))
  -- the end of a session
  | stands {s : SessionId} {timeout : Timeout} {r : Result} (h : (w.session s).stopping = true) :
    Leads t w w' (.session s (.stop timeout)) (.ok r) (.done (.ok .nothing))
  | joins {s : SessionId} {timeout : Timeout} {r : Result} {u : TaskId}
    (h : (w.session s).stopping = false) (reaped : (w.session s).reaper = some u) :
    Leads t w w' (.session s (.stop timeout)) (.ok r) (.await (w.loop.taskCell u) .pass)
  | stops {s : SessionId} {timeout grace : Timeout} {r : Result}
    (h : (w.session s).stopping = false) :
    Leads t w w' (.session s (.stop timeout)) (.ok r) (.goto (.session s (.shutdown grace)))
  | asks {s : SessionId} {k : ConnectionId} {timeout : Timeout} {r : Result}
    (h : (w.session s).stopping = false) (ready : (w.session s).state = .ready)
    (connected : (w.session s).connection = some k) :
    Leads t w w' (.session s (.stop timeout)) (.ok r)
      (.call (.connection k (.request "shutdown" .null timeout))
        (.session s (.shutdownAnswered timeout)))
  | dismisses {s : SessionId} {k : ConnectionId} {timeout : Timeout} {r : Result}
    (connected : (w.session s).connection = some k) :
    Leads t w w' (.session s (.shutdownAnswered timeout)) (.ok r)
      (.call (.connection k (.notify "exit" .null)) (.session s (.exitSent timeout)))
  | turns {s : SessionId} {p : Session.Stage} {timeout : Timeout} {o : Outcome Result}
    (h : p = .exitSent timeout ∨ (p = .shutdownAnswered timeout ∧ ∃ e, o = .error e))
    (expected : ∀ e, o = .error e → isExpected e = true) :
    Leads t w w' (.session s p) o (.goto (.session s (.shutdown timeout)))
  | insists {s : SessionId} {p : Session.Stage} {o : Outcome Result}
    (h : (∃ grace r, p = .shutdown grace ∧ o = .ok r) ∨ (p = .graceOver ∧ o = .error .timeout)) :
    Leads t w w' (.session s p) o (.goto (.session s .terminate))
  | vacates {s : SessionId} {p : Session.Stage} {o : Outcome Result}
    (h : (∃ grace, p = .shutdown grace) ∨ p = .terminate ∨ p = .terminateOver)
    (vacant : w'.Vacant s) : Leads t w w' (.session s p) o (.goto (.session s .release))
  | exits {s : SessionId} {p : Session.Stage} {r : Result}
    (h : p = .graceOver ∨ p = .terminateOver ∨ p = .killed) :
    Leads t w w' (.session s p) (.ok r) (.goto (.session s .release))
  | watches {s : SessionId} {p q : Session.Stage} {b : BackendId} {c : CellId} {timeout : Timeout}
    {o : Outcome Result} (novel : Novel w w' c) (spawned : (w.session s).backend = some b)
    (h : (p = .shutdown timeout ∧ q = .graceOver ∧ ∃ r, o = .ok r) ∨
      (p = .terminate ∧ q = .terminateOver ∧ ∃ r, o = .ok r) ∨
      (p = .terminateOver ∧ q = .killed ∧ timeout = .never ∧ o = .error .timeout)) :
    Leads t w w' (.session s p) o (.call (.wait (.start c timeout)) (.session s q))
  | releases {s : SessionId} {k : ConnectionId} {r : Result}
    (connected : (w.session s).connection = some k) :
    Leads t w w' (.session s .release) (.ok r)
      (.call (.connection k .close) (.session s .released))
  | released {s : SessionId} {r : Result} :
    Leads t w w' (.session s .released) (.ok r) (.done (.ok .nothing))

variable {t : TaskId} {w : World}

theorem cancels_pred (t : TaskId) (w : World) :
    (w.setTask t fun task => { task with cancels := task.cancels - 1 }).cancels t =
      w.cancels t - 1 := by
  simp only [cancels, setTask, onLoop, Loop.setTask, List.getElem?_modify_eq]
  cases w.loop.tasks[t]? <;> rfl

theorem novel_newCell (w : World) : Novel w w.newCell.2 w.newCell.1 :=
  ⟨Nat.le_refl _, kind?_newCell w⟩

theorem novel_sleep (span : Int) (w : World) : Novel w (w.sleep span).2 (w.sleep span).1 :=
  ⟨Nat.le_refl _, (Loop.kind?_of_cells (Loop.cells_setTimer span _ _)).trans (kind?_newCell w)⟩

theorem resumeWait_leads (p : Wait) (o : Outcome Result) :
    Leads t w (w.resumeWait t p o).2 (.wait p) o (w.resumeWait t p o).1 := by
  cases p with
  | start c timeout =>
    cases o with
    | error e => exact .fails rfl
    | ok r =>
      cases timeout with
      | never => exact .waits
      | after span =>
        simp only [resumeWait, startWait]
        split
        · exact .guards
        · split
          · next settled => exact .finds settled
          · next unsettled =>
          refine .givesUp unsettled ⟨Nat.le_refl _, ?_⟩
          refine (Loop.kind?_cancel _ _ _).trans ((Loop.kind?_watch _ _ _ _).trans ?_)
          exact Loop.kind?_newCell_self .plain w.loop
  | guarded id n =>
    have open_ : w.resumeWait t (.guarded id n) o = w.endWait t id n o := by cases o <;> rfl
    rw [open_, endWait, unguard]
    by_cases ran : w.loop.expired.contains id = true
    · rw [if_pos ran]
      have late : id ∈ w.loop.expired := by simpa using ran
      dsimp only
      split
      · rw [cancels_pred]
        exact .expires late
      · next o h => exact .hears (.inl h)
    · rw [if_neg ran]
      exact .hears (.inr (by simpa using ran))
  | released c =>
    cases o with
    | error e => exact .fails rfl
    | ok r =>
      rw [resumeWait]
      split
      · next gone =>
        refine .misses fun o settled => ?_
        rw [gone] at settled
        exact (Option.some.inj settled).symm
      · next gone =>
        refine .misses fun o settled => ?_
        rw [gone] at settled
        cases settled
      · next o h settled =>
        exact .meets settled fun same => h same

theorem readOn_leads {k : ConnectionId} {point : Wire.Point} {r : Result} :
    Leads t w (w.readOn k point).2 (.connection k (.read point)) (.ok r) (w.readOn k point).1 := by
  unfold readOn
  dsimp only
  split
  · split
    · exact .serves rfl rfl (.inl rfl) rfl
    · exact .served rfl
  · exact .serves rfl rfl (.inl rfl) rfl
  · exact .serves rfl rfl (.inl rfl) rfl
  · exact .served rfl
  · exact .serves rfl rfl (.inr ⟨_, novel_newCell w, rfl⟩) rfl

theorem answer_leads {k : ConnectionId} {id method params : Value} {r : Result} :
    Leads t w (w.answer k id method params).2 (.connection k (.answer id method params)) (.ok r)
      (w.answer k id method params).1 := by
  unfold answer
  dsimp only
  split
  · exact .served rfl
  · split
    · exact .serves rfl rfl (.inl rfl) rfl
    · exact .serves rfl rfl (.inl rfl) rfl
    · exact .serves rfl rfl (.inl rfl) rfl
    · exact .serves rfl rfl (.inl rfl) rfl
    · exact .serves rfl rfl (.inr ⟨_, novel_sleep _ w, rfl⟩) rfl
    · exact .serves rfl rfl (.inr ⟨_, novel_newCell w, rfl⟩) rfl

theorem stopAnswers_leads {k : ConnectionId} {o : Outcome Result}
    (h : o = .error .cancelled ∨ ∃ r, o = .ok r) :
    Leads t w (w.stopAnswers k).2 (.connection k .readerStopped) o (w.stopAnswers k).1 := by
  have grown (tasks : List TaskId) (w' : World) : w'.loop.cells.length ≤
      (tasks.foldl (fun w t => w.onLoop (·.cancelTask t)) w').loop.cells.length := by
    induction tasks generalizing w' with
    | nil => exact Nat.le_refl _
    | cons u tasks ih =>
      have step : Loop.Op (ρ := Result) Calm (fun _ => True) False w'.loop (w'.loop.cancelTask u) :=
        .cancel _ _ trivial calm_cancelled
      exact Nat.le_trans step.length_cells (ih (w'.onLoop (·.cancelTask u)))
  unfold stopAnswers
  dsimp only
  split
  · exact .stopsAnswers h (.inl rfl) fun _ _ same => nomatch same
  · refine .stopsAnswers h (.inr ⟨_, rfl⟩) fun c g same => ?_
    cases same
    exact grown _ w

theorem resumeConnection_leads (k : ConnectionId) (p : Connection.Stage) (o : Outcome Result) :
    Leads t w (w.resumeConnection k p o).2 (.connection k p) o (w.resumeConnection k p o).1 := by
  cases o with
  | error e =>
    cases p with
    | requestSettled id => exact .settles
    | read point => exact .leaves
    | answerWritten =>
      cases e with
      | closed name cause => exact .answered
      | _ => exact .fails rfl
    | readerStopped =>
      cases e with
      | cancelled => exact stopAnswers_leads (.inl rfl)
      | _ => exact .fails rfl
    | _ => exact .fails rfl
  | ok r =>
    cases p with
    | drain =>
      simp only [resumeConnection, drain]
      split
      · exact .stalls (novel_newCell w)
      · exact .flows
    | drained =>
      simp only [resumeConnection, drained]
      split
      · next broken => exact .breaks broken
      · exact .drains
    | notify method params =>
      simp only [resumeConnection, sendNotification]
      split
      · next dead => exact .mute (.inl ⟨method, params, rfl⟩) dead
      · next alive => exact .notes (Bool.eq_false_iff.2 alive)
    | request method params timeout =>
      simp only [resumeConnection, sendRequest]
      split
      · next dead => exact .mute (.inr ⟨method, params, timeout, rfl⟩) dead
      · next alive => exact .requests (Bool.eq_false_iff.2 alive)
    | requestWritten id c timeout => exact .written
    | requestSettled id => exact .settles
    | read point => exact readOn_leads
    | answer id method params => exact answer_leads
    | answerDelayed id params => exact .serves rfl rfl (.inl rfl) rfl
    | answerNever => exact .served rfl
    | answerReady id result =>
      simp only [resumeConnection, sendAnswer]
      split
      · exact .served rfl
      · exact .answers
    | answerWritten => exact .served rfl
    | close =>
      simp only [resumeConnection, closeConnection]
      split
      · next u reader =>
        split
        · next done =>
          refine .closes fun v same => ?_
          rw [reader] at same
          cases same
          exact done
        · next going => exact .stopsReader reader (Bool.eq_false_iff.2 going) rfl
      · next reader =>
        refine .closes fun v same => ?_
        rw [reader] at same
        cases same
    | readerStopped => exact stopAnswers_leads (.inr ⟨r, rfl⟩)
    | answersStopped => exact .closed

theorem abandon_leads {s : SessionId} {p : Session.Stage} {e : Failure}
    (h : p = .initializeAnswered ∨ p = .initializedSent) :
    Leads t w (w.abandon s e).2 (.session s p) (.error e) (w.abandon s e).1 := by
  unfold abandon
  split
  · next other => exact .gives h (.inl ⟨by simpa using other, rfl⟩)
  · next expected =>
    have expected' : isExpected e = true := by simpa using expected
    split
    · next stopping => exact .gives h (.inr ⟨expected', stopping, rfl⟩)
    · next going => exact .abandons h expected' (Bool.eq_false_iff.2 going)

theorem startSession_leads {s : SessionId} {r : Result} :
    Leads t w (w.startSession s).2 (.session s .start) (.ok r) (w.startSession s).1 := by
  unfold startSession
  split
  · next e failed =>
    simp only [Session.move] at failed
    split at failed
    · cases failed
    · next far =>
      cases failed
      refine .late fun fresh => far ?_
      rw [fresh]
      rfl
  · next session moved =>
    have fresh : (w.session s).state = .unstarted := by
      simp only [Session.move] at moved
      split at moved
      · next near =>
        cases state : (w.session s).state with
        | unstarted => rfl
        | _ => simp [state, SessionState.next] at near
      · cases moved
    have root : startFolder session = startFolder (w.session s) := by
      simp only [Session.move] at moved
      split at moved
      · cases moved
        rfl
      · cases moved
    dsimp only
    split
    · next e failed => exact .stumbles (root.symm.trans failed)
    · split
      · exact .refused rfl
      · split
        · exact .launches fresh (.inl rfl)
        · exact .launches fresh (.inr ⟨_, novel_sleep _ _, rfl⟩)

theorem launched_leads {s : SessionId} {b : BackendId} {r : Result} :
    Leads t w (w.launched s b).2 (.session s (.launched b)) (.ok r) (w.launched s b).1 := by
  unfold launched
  split
  · exact .refused rfl
  · let arrived := (w.beginBackend b).setSession s fun x => { x with backend := some b }
    have session : (arrived.session s).stopping = (w.session s).stopping ∧
        (arrived.session s).root = (w.session s).root := by
      rcases session_setSession s s (fun x => { x with backend := some b }) (w.beginBackend b) with
        same | ⟨-, same⟩
      · exact ⟨congrArg Session.stopping same, congrArg Session.root same⟩
      · have stopping := congrArg Session.stopping same
        have root := congrArg Session.root same
        exact ⟨stopping, root⟩
    have root : ((arrived.connect s b).2.session s).root = (w.session s).root := by
      rcases session_setSession s s (fun x => { x with connection := some arrived.connections.length })
        ((arrived.addConnection (.make ("backend:" ++ (arrived.session s).key) b (.session s)
          (arrived.session s).timeout [("workspace/configuration", .configuration)])).2.startReading
            arrived.connections.length) with same | ⟨-, same⟩
      · have known := congrArg Session.root same
        exact known.trans session.2
      · have known := congrArg Session.root same
        exact known.trans session.2
    dsimp only
    split
    · next stopping => exact .arrives (session.1.symm.trans stopping)
    · next going =>
      have going' : (w.session s).stopping = false :=
        session.1.symm.trans (Bool.eq_false_iff.2 going)
      rw [initializeParams_of_root root]
      split
      · next e failed => exact .lost failed
      · next params known => exact .connects going' known

theorem completeStart_leads {s : SessionId} {r : Result} :
    Leads t w (w.completeStart s).2 (.session s .initializedSent) (.ok r) (w.completeStart s).1 := by
  unfold completeStart
  split
  · next moved => exact .overtaken moved
  · next state =>
    have starting : (w.session s).state = .starting := Decidable.not_not.1 state
    have connection : ((w.setSession s fun x => { x with started := true }).session s).connection =
        (w.session s).connection := by
      rcases session_setSession s s (fun x => { x with started := true }) w with same | ⟨-, same⟩
      · exact congrArg Session.connection same
      · have known := congrArg Session.connection same
        exact known
    dsimp only
    split
    · next unconnected =>
      exact .solitary (connection.symm.trans unconnected)
    · next k connected =>
      have connected' := connection.symm.trans connected
      split
      · next dead =>
        have closed : (w.connection k).closed = true := (Bool.and_eq_true_iff.1 dead).1
        exact .drops starting connected' closed
      · exact .readies starting connected'

theorem notifySession_leads {s : SessionId} {method : String} {params : Value} {r : Result} :
    Leads t w (w.notifySession s method params).2 (.session s (.notify method params)) (.ok r)
      (w.notifySession s method params).1 := by
  unfold notifySession
  dsimp only
  split
  · next early => exact .keeps early
  · next early =>
    split
    · next k ready connected => exact .tells ready connected
    · next other =>
      refine .refuses (Bool.eq_false_iff.2 early) fun ready => ?_
      cases connected : (w.session s).connection with
      | none => rfl
      | some k => exact absurd connected (other k ready)

theorem stopSession_leads {s : SessionId} {timeout : Timeout} {r : Result} :
    Leads t w (w.stopSession s timeout).2 (.session s (.stop timeout)) (.ok r)
      (w.stopSession s timeout).1 := by
  unfold stopSession
  dsimp only
  split
  · next stopping => exact .stands stopping
  · next going =>
    have going' := Bool.eq_false_iff.2 going
    split
    · next u reaped => exact .joins going' reaped
    · split
      · exact .stops going'
      · next ready =>
        split
        · next k connected =>
          split
          · exact .stops going'
          · exact .asks going' (by simpa using ready) connected
        · exact .stops going'

theorem backend_of_core {w w' : World} (h : w'.core = w.core) (s : SessionId) :
    (w'.session s).backend = (w.session s).backend := by
  have known := congrArg Session.backend (session_of_core h s)
  exact known

theorem awaitProcess_leads {s : SessionId} {p q : Session.Stage} {timeout : Timeout}
    {o : Outcome Result} {w' : World}
    (goes : (∃ grace, p = .shutdown grace) ∨ p = .terminate ∨ p = .terminateOver)
    (cells : w.loop.cells.length ≤ w'.loop.cells.length)
    (same : (w'.session s).backend = (w.session s).backend)
    (h : (p = .shutdown timeout ∧ q = .graceOver ∧ ∃ r, o = .ok r) ∨
      (p = .terminate ∧ q = .terminateOver ∧ ∃ r, o = .ok r) ∨
      (p = .terminateOver ∧ q = .killed ∧ timeout = .never ∧ o = .error .timeout)) :
    Leads t w (w'.awaitProcess s timeout q).2 (.session s p) o (w'.awaitProcess s timeout q).1 := by
  unfold awaitProcess
  split
  · next b found =>
    split
    · next exited =>
      refine .vacates goes fun b' found' => ?_
      have same : (w'.session s).backend = some b' := found'
      rw [found] at same
      cases same
      exact exited
    · exact .watches ⟨cells, kind?_awaitExit b w'⟩ (same ▸ found) h
  · next found =>
    refine .vacates goes fun b' found' => ?_
    have same : (w'.session s).backend = some b' := found'
    rw [found] at same
    cases same

theorem shutdown_leads {s : SessionId} {grace : Timeout} {r : Result} :
    Leads t w (w.shutdown s grace).2 (.session s (.shutdown grace)) (.ok r) (w.shutdown s grace).1 := by
  unfold shutdown
  split
  · split
    · exact .insists (.inl ⟨grace, r, rfl, rfl⟩)
    · exact awaitProcess_leads (.inl ⟨grace, rfl⟩) (Nat.le_refl _) rfl (.inl ⟨rfl, rfl, r, rfl⟩)
  · next none =>
    refine .vacates (.inl ⟨grace, rfl⟩) fun b found => ?_
    have same : (w.session s).backend = some b := found
    rw [none] at same
    cases same

theorem terminateSession_leads {s : SessionId} {r : Result} :
    Leads t w (w.terminateSession s).2 (.session s .terminate) (.ok r) (w.terminateSession s).1 := by
  unfold terminateSession
  split
  · next b found =>
    have told := quiet_terminate (A := .none) (R := fun _ => False) b w
    split
    · next w' same =>
      rw [same] at told
      exact awaitProcess_leads (.inr (.inl rfl)) told.keeps.ops.length_cells
        (backend_of_core told.core s) (.inr (.inl ⟨rfl, rfl, r, rfl⟩))
    · next w' same =>
      refine .vacates (.inr (.inl rfl)) fun b' found' => ?_
      have known : (w'.session s).backend = some b' := found'
      rw [same] at told
      rw [backend_of_core told.core s, found] at known
      cases known
      have gone := exited_terminate (congrArg Prod.fst same)
      rwa [same] at gone
  · next none =>
    refine .vacates (.inr (.inl rfl)) fun b found => ?_
    have same : (w.session s).backend = some b := found
    rw [none] at same
    cases same

theorem takeEvent_leads {s : SessionId} {r : Result} :
    Leads t w (w.takeEvent s .recorder).2 (.session s (.consume .recorder)) (.ok r)
      (w.takeEvent s .recorder).1 := by
  unfold takeEvent
  split
  · exact .takes (.inl rfl) (.inr ⟨_, rfl⟩) (.inr (.inr ⟨_, novel_newCell w, rfl⟩))
  · next e? bus _ =>
    cases e? with
    | none => exact .takes (.inl rfl) (.inl rfl) (.inl rfl)
    | some e => exact .takes (.inl rfl) (.inl rfl) (.inr (.inl rfl))

theorem resumeSession_leads (s : SessionId) (p : Session.Stage) (o : Outcome Result)
    (h : (Frame.session s p).isClient = true) :
    Leads t w (w.resumeSession s p o).2 (.session s p) o (w.resumeSession s p o).1 := by
  cases o with
  | error e =>
    cases p with
    | initializeAnswered => exact abandon_leads (.inl rfl)
    | initializedSent => exact abandon_leads (.inr rfl)
    | flushed =>
      cases e with
      | closed name cause => exact .started (.inr ⟨name, cause, rfl⟩)
      | _ => exact .fails rfl
    | notified method =>
      cases e with
      | closed name cause => exact .untold
      | _ => exact .fails rfl
    | shutdownAnswered timeout =>
      simp only [resumeSession]
      split
      · next expected =>
        exact .turns (.inr ⟨rfl, e, rfl⟩) fun e' same => by cases same; exact expected
      · next other => exact .fails (Bool.eq_false_iff.2 other)
    | exitSent timeout =>
      simp only [resumeSession]
      split
      · next expected => exact .turns (.inl rfl) fun e' same => by cases same; exact expected
      · next other => exact .fails (Bool.eq_false_iff.2 other)
    | graceOver =>
      cases e with
      | timeout => exact .insists (.inr ⟨rfl, rfl⟩)
      | _ => exact .fails rfl
    | terminateOver =>
      cases e with
      | timeout => 
        have told := quiet_killSession (A := .none) (R := fun _ => False) s w
        exact awaitProcess_leads (.inr (.inr rfl)) told.keeps.ops.length_cells
          (backend_of_core told.core s) (.inr (.inr ⟨rfl, rfl, rfl, rfl⟩))
      | _ => exact .fails rfl
    | _ => exact .fails rfl
  | ok r =>
    cases p with
    | start => exact startSession_leads
    | launched b => exact launched_leads
    | initializeAnswered =>
      simp only [resumeSession, callConnection]
      split
      · next k connected => exact .greets connected
      · next unconnected => exact .unconnected unconnected (.inl ⟨rfl, rfl⟩)
    | initializedSent => exact completeStart_leads
    | abandoned f => exact .refused rfl
    | flushed => exact .started (.inl ⟨r, rfl⟩)
    | notify method params => exact notifySession_leads
    | notified method => exact .told
    | stop timeout => exact stopSession_leads
    | shutdownAnswered timeout =>
      simp only [resumeSession, callConnection]
      split
      · next k connected => exact .dismisses connected
      · next unconnected =>
        exact .unconnected unconnected (.inr (.inr ⟨timeout, rfl, rfl⟩))
    | exitSent timeout => exact .turns (.inl rfl) fun _ same => nomatch same
    | shutdown grace => exact shutdown_leads
    | graceOver => exact .exits (.inl rfl)
    | terminate => exact terminateSession_leads
    | terminateOver => exact .exits (.inr (.inl rfl))
    | killed => exact .exits (.inr (.inr rfl))
    | release =>
      simp only [resumeSession, callConnection]
      split
      · next k connected => exact .releases connected
      · next unconnected => exact .unconnected unconnected (.inr (.inl ⟨rfl, rfl⟩))
    | released => exact .released
    | consume taker =>
      cases taker with
      | relay => cases h
      | recorder => exact takeEvent_leads
    | consumeAwoken taker c =>
      cases taker with
      | relay => cases h
      | recorder => exact .takes (.inr ⟨c, rfl⟩) (.inl rfl) (.inr (.inl rfl))

/-- Where a step of a client's task goes on. -/
theorem resume_leads {f : Frame} (h : f.isClient = true) (o : Outcome Result) :
    Leads t w (w.resume t f o).2 f o (w.resume t f o).1 := by
  cases f with
  | wait p => exact resumeWait_leads p o
  | pass => exact .passes
  | connection k p => exact resumeConnection_leads k p o
  | session s p => exact resumeSession_leads s p o h
  | relay => cases h
  | roster => cases h
  | workspace => cases h

end World
end LanguageClient
