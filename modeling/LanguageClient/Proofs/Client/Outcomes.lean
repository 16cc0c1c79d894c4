import LanguageClient.Proofs.Client.Alone
import LanguageClient.Proofs.Client.Dues

/-!
What the calls of a client come to, and the task that sees to the end of a process: writing fails
only because the connection has ended, a request also when no response comes in time or when the
response is an error, the wait for a process when time is over, and everything else succeeds.
-/

namespace LanguageClient

open Schedule

namespace World

variable {may : Frame → Prop} {R : CellId → Prop} {t u : TaskId} {c : CellId} {w w' w₂ : World}
variable {f g : Frame} {rest begun : List Frame} {o o' : Outcome Result} {flow : Flow Frame Result}
variable {k : ConnectionId} {s : SessionId} {ms : List Moment} {m : Moment}

/-- What writing comes to. -/
def Sent (o : Outcome Result) : Prop :=
  (∃ r, o = .ok r) ∨ ∃ name cause, o = .error (.closed name cause)

/-- What comes of the cell that a place waits for. -/
def Brings (ms : List Moment) (w : World) : Frame → Outcome Result → Prop
  | .connection k (.requestSettled id), o => Told ms k id o ∨ ∃ name, o = .error (.closed name .ended)
  | .session s _, o => (∃ r, o = .ok r) ∧ ∃ b, (w.session s).backend = some b ∧ w.Exited b
  | _, _ => False

/-- The cell that a place waits for: of a request, or of the end of a process. -/
def Wants (ms : List Moment) (w : World) : Frame → CellId → Prop
  | .connection k (.requestSettled id), c => Typed ms w (.request k id) c
  | .session s _, c => ∃ b, (w.session s).backend = some b ∧ Typed ms w (.exit b) c
  | _, _ => False

/-- Places that wait without a limit. -/
def Patient : Frame → Prop
  | .session _ .killed => True
  | _ => False

/-- What a request comes to that has been written. -/
def Replied (ms : List Moment) (o : Outcome Result) : Prop :=
  Sent o ∨ o = .error .timeout ∨ ∃ k id, Told ms k id o

/-- What the task at work goes on with. -/
def Fits (ms : List Moment) (w : World) : List Frame → Outcome Result → Prop
  | .wait (.guarded id _) :: g :: _, o =>
    Brings ms w g o ∨ (o = .error .cancelled ∧ id ∈ w.loop.expired)
  | .pass :: g :: _, o => Brings ms w g o
  | .connection k (.requestSettled id) :: _, o =>
    o = .error .timeout ∨ Brings ms w (.connection k (.requestSettled id)) o
  | .connection _ (.requestWritten ..) :: _, o | .session _ .initializedSent :: _, o
  | .session _ .flushed :: _, o | .session _ (.notified _) :: _, o
  | .session _ (.exitSent _) :: _, o => Sent o
  | .session _ .initializeAnswered :: _, o | .session _ (.shutdownAnswered _) :: _, o => Replied ms o
  | .session s .graceOver :: _, o | .session s .terminateOver :: _, o =>
    o = .error .timeout ∨ Brings ms w (.session s .graceOver) o
  | .session s .killed :: _, o => Brings ms w (.session s .killed) o
  | [.pass], _ | [], _ => True
  | _, o => ∃ r, o = .ok r

/-- What is known of the cell that a task waits for. -/
def Attends (ms : List Moment) (w : World) : List Frame → CellId → Prop
  | .wait (.guarded ..) :: g :: _, c | .pass :: g :: _, c => Wants ms w g c
  | .connection _ .readerStopped :: _, c =>
    ∃ u, c = w.loop.taskCell u ∧ u < w.loop.tasks.length ∧ w.Doomed u
  | [.pass], _ => True
  | .wait (.released _) :: _, c | .connection _ .drained :: _, c
  | .connection _ .answersStopped :: _, c | .session _ (.launched _) :: _, c
  | .session _ (.consume _) :: _, c | .session _ (.consumeAwoken ..) :: _, c => Typed ms w .loose c
  | _, _ => False

/-- What is known of the cells that a task is to wait for, or has waited for. -/
structure Backed (ms : List Moment) (w : World) (stack : List Frame) : Prop where
  written : ∀ k id c timeout, .connection k (.requestWritten id c timeout) ∈ stack →
    Typed ms w (.request k id) c
  starts : ∀ c timeout rest, stack = .wait (.start c timeout) :: rest →
    ∃ g rest', rest = g :: rest' ∧ Wants ms w g c ∧ (Patient g → timeout = .never)
  released : ∀ c rest, stack = .wait (.released c) :: rest →
    ∃ g rest', rest = g :: rest' ∧ Wants ms w g c ∧ ¬ Patient g
  guarded : ∀ id n rest, stack = .wait (.guarded id n) :: rest → ∃ g rest', rest = g :: rest' ∧ ¬ Patient g

/-- Where a task stands that is no errand. -/
inductive Poised (ms : List Moment) (w : World) (t : TaskId) : Prop
  | runs {o : Outcome Result} (runs : w.current = some (t, o)) (fits : Fits ms w (w.stack t) o)
  | waits {c : CellId} (waits : w.loop.waits t = some c) (attends : Attends ms w (w.stack t) c)
  | fresh {g : Frame} (stack : w.stack t = [g]) (still : ∀ o, w.current ≠ some (t, o))
    (unwaited : w.loop.waits t = none)
    (opens : g.isUse 0 = true ∨ ∃ grace, g = .session 0 (.shutdown grace))
  | ended (stack : w.stack t = [])

/-- Every task knows what it may go on with. -/
structure Knows (ms : List Moment) (w : World) (t : TaskId) : Prop where
  poised : Poised ms w t
  backed : Backed ms w (w.stack t)

theorem Alone.backend_later (h : w.Alone) (m : Move may R w w') {b : BackendId}
    (found : (w.session s).backend = some b) : (w'.session s).backend = some b := by
  cases s with
  | zero => exact h.launching.backend h.client m found
  | succ s =>
    have out : w.sessions.length ≤ s + 1 := by
      rw [← show w.core.sessions.length = w.sessions.length from List.length_map _, h.lone.single]
      exact Nat.succ_le_succ (Nat.zero_le s)
    rw [session, List.getD_eq_getElem?_getD, List.getElem?_eq_none out] at found
    cases found

theorem Wants.later (h : Wants ms m.world g c) (alone : m.world.Alone) (goes : m.Goes w')
    (moves : Moves may R m.world w') : Wants (ms ++ [m]) w' g c := by
  unfold Wants at h ⊢
  split at h
  · exact h.later goes alone.sound moves.moved
  · obtain ⟨b, found, typed⟩ := h
    exact ⟨b, alone.backend_later moves.move found, typed.later goes alone.sound moves.moved⟩
  · exact h

theorem Brings.later (h : Brings ms m.world g o) (alone : m.world.Alone)
    (moves : Moves may R m.world w') : Brings (ms ++ [m]) w' g o := by
  unfold Brings at h ⊢
  split at h
  · exact h.imp_left fun told => told.later m
  · obtain ⟨good, b, found, exited⟩ := h
    exact ⟨good, b, alone.backend_later moves.move found, moves.moved.exits b exited⟩
  · exact h

theorem Attends.later {stack : List Frame} (h : Attends ms m.world stack c) (alone : m.world.Alone)
    (goes : m.Goes w') (moves : Moves may R m.world w') : Attends (ms ++ [m]) w' stack c := by
  unfold Attends at h ⊢
  split at h
  · exact h.later alone goes moves
  · exact h.later alone goes moves
  · obtain ⟨u, rfl, inside, doomed⟩ := h
    exact ⟨u, (moves.moved.taskCell u inside).symm, Nat.lt_of_lt_of_le inside moves.moved.tasks,
      doomed.move alone.client alone.sound moves⟩
  · trivial
  all_goals first
    | exact h.later goes alone.sound moves.moved
    | exact h

theorem Backed.later {stack : List Frame} (h : Backed ms m.world stack) (alone : m.world.Alone)
    (goes : m.Goes w') (moves : Moves may R m.world w') : Backed (ms ++ [m]) w' stack where
  written k id c timeout member := (h.written k id c timeout member).later goes alone.sound moves.moved
  starts c timeout rest same :=
    let ⟨g, rest', below, wants, patient⟩ := h.starts c timeout rest same
    ⟨g, rest', below, wants.later alone goes moves, patient⟩
  released c rest same :=
    let ⟨g, rest', below, wants, patient⟩ := h.released c rest same
    ⟨g, rest', below, wants.later alone goes moves, patient⟩
  guarded := h.guarded

/-- What a cell is settled with that a place waits for. -/
theorem Wants.brings (h : Wants ms w g c) (settled : w.loop.outcome? c = some o)
    (calm : o ≠ .error .cancelled) : Brings ms w g o := by
  unfold Wants at h
  unfold Brings
  split at h
  · rcases h.settled o settled with same | ⟨t, c', asked, settled', due⟩
    · exact absurd same calm
    · exact due
  · obtain ⟨b, found, typed⟩ := h
    rcases typed.settled o settled with same | ⟨rfl, exited⟩
    · exact absurd same calm
    · exact ⟨⟨_, rfl⟩, b, found, exited⟩
  · exact h.elim

theorem errand_of_serves (linked : Linked (f :: rest)) (h : f.serves = true) : Errand (f :: rest) := by
  cases rest with
  | nil =>
    rintro g ⟨⟩
    exact h
  | cons g rest =>
    obtain ⟨⟨r, -, has⟩, -⟩ := linked
    cases has <;> cases h

/-- What a call comes to, for the place that has called. -/
def Returns (ms : List Moment) (w : World) (g : Frame) : Routine → Outcome Result → Prop
  | .waits, o => Brings ms w g o ∨ (o = .error .timeout ∧ ¬ Patient g)
  | .asks _, o => Replied ms o
  | .drains, o | .tells .., o => Sent o
  | .closes, o | .ends, o => ∃ r, o = .ok r

theorem Returns.fits {r : Routine} (h : Returns ms w g r o) (calls : g.Calls r)
    (other : g.serves = false) : Fits ms w (g :: rest) o := by
  cases g with
  | connection k p =>
    cases p with
    | requestWritten =>
      cases calls
      exact h
    | requestSettled =>
      cases calls
      exact h.symm.imp_left And.left
    | answerWritten => cases other
    | _ => cases calls
  | session s p =>
    cases p with
    | initializeAnswered | initializedSent | shutdownAnswered | exitSent | flushed =>
      cases calls
      exact h
    | notified =>
      obtain ⟨params, rfl⟩ := calls
      exact h
    | graceOver | terminateOver =>
      cases calls
      exact h.symm.imp_left And.left
    | killed =>
      cases calls
      exact h.resolve_right fun late => late.2 trivial
    | abandoned | released =>
      cases calls
      exact h
    | _ => cases calls
  | _ => cases calls

/-- How a call ends at a place of a connection. -/
inductive Finishes (o o' : Outcome Result) : Connection.Stage → Prop
  | same {p : Connection.Stage} (same : o' = o) : Finishes o o' p
  | sent {p : Connection.Stage} (h : p = .drained ∨ p.writes = true) (sent : Sent o') : Finishes o o' p
  | closed (closed : o' = .ok .nothing) : Finishes o o' .answersStopped

theorem Leads.finishes {p : Connection.Stage} (h : Leads t w w' (.connection k p) o (.done o'))
    (plain : p.serves = false) : Finishes o o' p := by
  cases h with
  | fails | settles => exact .same rfl
  | drains => exact .sent (.inl rfl) (.inl ⟨_, rfl⟩)
  | breaks => exact .sent (.inl rfl) (.inr ⟨_, _, rfl⟩)
  | mute writes =>
    refine .sent (.inr ?_) (.inr ⟨_, _, rfl⟩)
    rcases writes with ⟨_, _, rfl⟩ | ⟨_, _, _, rfl⟩ <;> rfl
  | closed => exact .closed rfl
  | serves serves | served serves =>
    rw [plain] at serves
    cases serves
  | answered | leaves => cases plain
  | stopsAnswers _ flow_ => rcases flow_ with same | ⟨c, same⟩ <;> cases same

/-- What a place of a connection comes to that has been called. -/
theorem Fits.returns_connection {r : Routine} {p : Connection.Stage}
    (h : Fits ms w (.connection k p :: rest) o) (has : r.Has (.connection k p))
    (leads : Leads t { w with current := none } w₂ (.connection k p) o (.done o')) :
    Returns ms w g r o' := by
  cases has with
  | drain | drained | notify | noted | sent =>
    obtain ⟨r, rfl⟩ := h
    cases leads.finishes rfl with
    | same same => exact .inl ⟨_, same⟩
    | sent _ sent => exact sent
  | request =>
    obtain ⟨r, rfl⟩ := h
    cases leads.finishes rfl with
    | same same => exact .inl (.inl ⟨_, same⟩)
    | sent _ sent => exact .inl sent
  | written =>
    cases leads.finishes rfl with
    | same same => exact .inl (same ▸ h)
    | sent _ sent => exact .inl sent
  | settled =>
    cases leads.finishes rfl with
    | same same =>
      subst same
      rcases h with rfl | told | ⟨name, rfl⟩
      · exact .inr (.inl rfl)
      · exact .inr (.inr ⟨k, _, told⟩)
      · exact .inl (.inr ⟨name, _, rfl⟩)
    | sent _ sent => exact .inl sent
  | close | readerStopped =>
    obtain ⟨r, rfl⟩ := h
    cases leads.finishes rfl with
    | same same => exact ⟨_, same⟩
    | sent stage => rcases stage with same | writes <;> contradiction
  | answersStopped =>
    obtain ⟨r, rfl⟩ := h
    cases leads.finishes rfl with
    | same same => exact ⟨_, same⟩
    | sent stage => rcases stage with same | writes <;> contradiction
    | closed closed => exact ⟨_, closed⟩

/-- What a wait comes to: what comes of its cell, or that time is over. -/
theorem Fits.returns_wait {p : Wait} (h : Fits ms w (.wait p :: rest) o)
    (leads : Leads t { w with current := none } w₂ (.wait p) o (.done o'))
    (stack : w.stack t = .wait p :: rest) (backed : Backed ms w (.wait p :: rest)) (minds : w.Minds t) :
    ∃ g rest', rest = g :: rest' ∧ (Brings ms w g o' ∨ (o' = .error .timeout ∧ ¬ Patient g)) := by
  cases p with
  | start c timeout =>
    obtain ⟨g, rest', rfl, wants, patient⟩ := backed.starts c timeout rest rfl
    obtain ⟨r, rfl⟩ := h
    cases leads with
    | finds settled =>
      refine ⟨g, rest', rfl, .inl (wants.brings settled ?_)⟩
      rintro rfl
      exact minds.wanted (.wait (.start c _)) (stack ▸ List.mem_cons_self) c
        (List.mem_singleton_self c) settled
  | released c =>
    obtain ⟨g, rest', rfl, wants, patient⟩ := backed.released c rest rfl
    obtain ⟨r, rfl⟩ := h
    cases leads with
    | misses => exact ⟨g, rest', rfl, .inr ⟨rfl, patient⟩⟩
    | meets settled calm => exact ⟨g, rest', rfl, .inl (wants.brings settled calm)⟩
  | guarded id n =>
    obtain ⟨g, rest', rfl, patient⟩ := backed.guarded id n rest rfl
    refine ⟨g, rest', rfl, ?_⟩
    have guarding : w.Guarding t id n := ⟨_, stack⟩
    cases leads with
    | fails catches => cases catches
    | hears other =>
      rcases h with brings | ⟨same, late⟩
      · exact .inl brings
      · rcases other with calm | early
        · exact absurd same calm
        · exact absurd late early
    | expires late =>
      have late' : id ∈ w.loop.expired := late
      have count := (minds.counts id n guarding).2
      rw [if_pos late'] at count
      refine .inr ⟨?_, patient⟩
      rw [if_pos]
      show w.cancels t - 1 ≤ n
      rw [count]
      exact Nat.le_refl n

/-- The end of a process is seen to without failing. -/
theorem Fits.returns_stage {p : Session.Stage} (h : Fits ms w (.session s p :: rest) o)
    (ends : p.ends = true) (leads : Leads t { w with current := none } w₂ (.session s p) o (.done o')) :
    ∃ r, o' = .ok r := by
  have good {r : Result} {p : Session.Stage} {o' : Outcome Result} (ends : p.ends = true)
      (leads : Leads t { w with current := none } w₂ (.session s p) (.ok r) (.done o')) :
      ∃ r, o' = .ok r := by
    cases leads with
    | released => exact ⟨_, rfl⟩
    | takes _ _ flow_ =>
      rcases flow_ with same | same | ⟨c, -, same⟩
      · cases same
        exact ⟨_, rfl⟩
      · cases same
      · cases same
    | refused starts => cases p <;> simp [Session.Stage.starts, Session.Stage.ends] at starts ends
    | started => exact ⟨_, rfl⟩
    | _ => cases ends
  have late (catches : (Frame.session s p).catches .timeout = true)
      (same : o = .error .timeout) (open_ : ∀ r, o ≠ .ok r) : False := by
    subst same
    cases leads with
    | fails none =>
      rw [none] at catches
      cases catches
    | gives stages => rcases stages with rfl | rfl <;> cases ends
    | started stages =>
      rcases stages with ⟨r, same⟩ | ⟨name, cause, same⟩ <;> cases same
  cases p with
  | shutdown | terminate | release | released =>
    obtain ⟨r, rfl⟩ := h
    exact good rfl leads
  | graceOver | terminateOver =>
    rcases h with same | ⟨⟨r, rfl⟩, -⟩
    · exact (late rfl same (by simp [same])).elim
    · exact good rfl leads
  | killed =>
    obtain ⟨⟨r, rfl⟩, -⟩ := h
    exact good rfl leads
  | _ => cases ends

/-- What has been called comes to what it is for. -/
theorem Fits.returns {r : Routine} (h : Fits ms w (f :: g :: rest) o) (has : r.Has f)
    (leads : Leads t { w with current := none } w₂ f o (.done o')) (stack : w.stack t = f :: g :: rest)
    (backed : Backed ms w (f :: g :: rest)) (minds : w.Minds t) : Returns ms w g r o' := by
  cases f with
  | connection k p => exact h.returns_connection has leads
  | wait p =>
    cases has
    obtain ⟨g, rest, same, brings⟩ := h.returns_wait leads stack backed minds
    cases same
    exact brings
  | pass =>
    cases has
    cases leads with
    | passes => exact .inl h
    | fails => exact .inl h
  | session s p =>
    cases has with
    | stage ends => exact h.returns_stage ends leads
  | _ => cases has

theorem Errand.below (h : Errand (g :: rest)) : Errand (f :: g :: rest) := fun f' hf' =>
  h f' (by rwa [List.getLast?_cons_cons] at hf')

theorem Replied.later (h : Replied ms o) (m : Moment) : Replied (ms ++ [m]) o :=
  h.imp_right fun late => late.imp_right fun ⟨k, id, told⟩ => ⟨k, id, told.later m⟩

theorem Returns.later {r : Routine} (h : Returns ms m.world g r o) (alone : m.world.Alone)
    (moves : Moves may R m.world w') : Returns (ms ++ [m]) w' g r o := by
  cases r with
  | waits => exact Or.imp_left (fun brings => Brings.later brings alone moves) h
  | asks => exact Replied.later h m
  | drains | tells | closes | ends => exact h

theorem Knows.fits (h : Knows ms w t) (sound : w.Sound) (runs : w.current = some (t, o)) :
    Fits ms w (w.stack t) o := by
  cases h.poised with
  | runs runs' fits =>
    rw [runs] at runs'
    cases runs'
    exact fits
  | waits waits =>
    have idle := (sound.orderly.running t (by rw [runs]; rfl)).2.1
    rw [waits] at idle
    cases idle
  | fresh _ still => exact absurd runs (still o)
  | ended stack =>
    rw [stack]
    trivial

/-- A request that has just been written, and its cell. -/
theorem Leads.written_of {id : Nat} {timeout : Timeout} (h : Leads t w w' f o flow)
    (hg : .connection k (.requestWritten id c timeout) ∈ flow.frames) :
    (∃ method params r, f = .connection k (.request method params timeout) ∧ o = .ok r) ∧
      (w.connection k).closed = false ∧ id = (w.connection k).nextId ∧ c = w.loop.cells.length := by
  cases h with
  | requests alive =>
    rcases List.mem_cons.1 hg with same | last
    · cases same
    · cases List.mem_singleton.1 last
      exact ⟨⟨_, _, _, rfl, rfl⟩, alive, rfl, rfl⟩
  | serves _ next flow_ =>
    rcases flow_ with rfl | ⟨c, -, rfl⟩ <;>
    · cases List.mem_singleton.1 hg
      cases next
  | stopsAnswers _ flow_ => rcases flow_ with rfl | ⟨c, rfl⟩ <;> simp [Flow.frames] at hg
  | launches _ flow_ => rcases flow_ with rfl | ⟨c, -, rfl⟩ <;> simp [Flow.frames] at hg
  | takes _ _ flow_ => rcases flow_ with rfl | rfl | ⟨c, -, rfl⟩ <;> simp [Flow.frames] at hg
  | _ => simp [Flow.frames] at hg

section Steps

variable (alone : m.world.Alone) (goes : m.Goes w') (moves : Moves may R m.world w')
variable (strides : Strides R m.world w' t f o rest begun flow w₂)

include alone goes moves strides in
theorem Backed.goes_written {id : Nat} {timeout : Timeout}
    (backed : Backed ms m.world (f :: rest))
    (member : .connection k (.requestWritten id c timeout) ∈ flow.frames ++ rest) :
    Typed (ms ++ [m]) w' (.request k id) c := by
  rcases List.mem_append.1 member with new | old
  · have leads := alone.client.leads strides
    obtain ⟨⟨method, params, r, rfl, rfl⟩, alive, rfl, rfl⟩ := leads.written_of new
    refine .made alone.sound moves.moved (Nat.le_refl _) ?_ (fun r' given => ?_) fun k' id' same => ?_
    · rcases strides.turn.awaits.names _ new _ (List.mem_singleton_self _) with bad | ⟨-, plain⟩
      · cases bad
      · have kept := (strides.lands.aside.kept .none).kind _ (Loop.lt_of_kind? plain)
        exact ⟨_, kept.trans plain, fun _ same => nomatch same⟩
    · have offers := strides.gives given
      exact offers
    · cases same
      exact ⟨t, asks_of_strides strides alive⟩
  · exact (backed.written k id c timeout (List.mem_cons_of_mem f old)).later goes alone.sound moves.moved

include alone goes moves strides in
theorem Backed.unwaiting (backed : Backed ms m.world (f :: rest))
    (other : ∀ p rest', flow.frames ++ rest ≠ .wait p :: rest') :
    Backed (ms ++ [m]) w' (flow.frames ++ rest) where
  written _ _ _ _ := backed.goes_written alone goes moves strides
  starts _ _ rest' same := absurd same (other _ rest')
  released _ rest' same := absurd same (other _ rest')
  guarded _ _ rest' same := absurd same (other _ rest')

include alone goes moves in
/-- A call has come to its end. -/
theorem Knows.of_done (strides : Strides R m.world w' t f o rest begun (.done o') w₂)
    (knows : Knows ms m.world t) (stack : w'.stack t = rest) (busy : ¬ Errand (m.world.stack t)) :
    Knows (ms ++ [m]) w' t := by
  have top := strides.top
  have linked : Linked (f :: rest) := top ▸ alone.client.linked t
  have backed : Backed ms m.world (f :: rest) := top ▸ knows.backed
  have fits : Fits ms m.world (f :: rest) o := top ▸ knows.fits alone.sound strides.runs
  refine ⟨.runs strides.lands.next.1 ?_, ?_⟩
  · rw [stack]
    cases rest with
    | nil => trivial
    | cons g rest =>
      obtain ⟨⟨r, calls, has⟩, below⟩ := linked
      have returns := fits.returns has (alone.client.leads strides) top backed
        (alone.guarded.minds t busy)
      refine (returns.later alone moves).fits calls (Bool.eq_false_iff.2 fun serves => busy ?_)
      rw [top]
      exact (errand_of_serves below serves).below
  · rw [stack]
    refine backed.unwaiting alone goes moves strides fun p rest' same => ?_
    have member : Frame.wait p ∈ rest := by
      rw [show rest = .wait p :: rest' from same]
      exact List.mem_cons_self
    exact linked.wait_top member

/-- Where a task goes on at once it goes on well. -/
theorem Leads.goto_fits (h : Leads t w w' f o (.goto g)) (plain : f.serves = false)
    (ms : List Moment) (w₀ : World) (rest : List Frame) :
    Fits ms w₀ (g :: rest) (.ok .nothing) ∧ ∀ p, g ≠ .wait p := by
  have good {g : Frame} (fits : Fits ms w₀ (g :: rest) (.ok .nothing)) (other : ∀ p, g ≠ .wait p) :
      Fits ms w₀ (g :: rest) (.ok .nothing) ∧ ∀ p, g ≠ .wait p := ⟨fits, other⟩
  cases h with
  | flows | notes | closes | arrives | stops | turns | insists | vacates | exits =>
    exact good ⟨_, rfl⟩ fun _ => by simp
  | serves serves =>
    rw [show Connection.Stage.serves _ = false from plain] at serves
    cases serves
  | stopsAnswers _ flow_ =>
    rcases flow_ with same | ⟨c, same⟩ <;> cases same
    exact good ⟨_, rfl⟩ fun _ => by simp
  | launches _ flow_ =>
    rcases flow_ with same | ⟨c, -, same⟩ <;> cases same
    exact good ⟨_, rfl⟩ fun _ => by simp
  | unconnected _ stages =>
    rcases stages with ⟨-, rfl⟩ | ⟨-, rfl⟩ | ⟨timeout, -, rfl⟩
    · exact good (.inl ⟨_, rfl⟩) fun _ => by simp
    · exact good ⟨_, rfl⟩ fun _ => by simp
    · exact good (.inl ⟨_, rfl⟩) fun _ => by simp
  | takes _ stages flow_ =>
    rcases flow_ with same | same | ⟨c, -, same⟩ <;> cases same
    rcases stages with rfl | ⟨c, rfl⟩ <;> exact good ⟨_, rfl⟩ fun _ => by simp

include alone goes moves in
theorem Knows.of_goto (strides : Strides R m.world w' t f o rest begun (.goto g) w₂)
    (knows : Knows ms m.world t) (stack : w'.stack t = g :: rest)
    (busy : ¬ Errand (m.world.stack t)) : Knows (ms ++ [m]) w' t := by
  have top := strides.top
  have linked : Linked (f :: rest) := top ▸ alone.client.linked t
  have plain : f.serves = false := Bool.eq_false_iff.2 fun serves => busy <| by
    rw [top]
    exact errand_of_serves linked serves
  have backed : Backed ms m.world (f :: rest) := top ▸ knows.backed
  obtain ⟨fits, other⟩ := (alone.client.leads strides).goto_fits plain (ms ++ [m]) w' rest
  refine ⟨.runs strides.lands.next.1 (stack ▸ fits), ?_⟩
  rw [stack]
  refine backed.unwaiting alone goes moves strides fun p rest' same => ?_
  exact other p (List.cons_eq_cons.1 same).1

/-- What a place calls: a wait for the cell of a request or of the end of a process, or something
that goes on at once. -/
inductive Calling (w w' : World) : Frame → Frame → Frame → Prop
  | plain {f inner next : Frame} (other : ∀ p, inner ≠ .wait p)
    (fits : ∀ ms w₀ rest, Fits ms w₀ (inner :: rest) (.ok .nothing)) : Calling w w' f inner next
  | request {k : ConnectionId} {id : Nat} {c : CellId} {timeout : Timeout} :
    Calling w w' (.connection k (.requestWritten id c timeout)) (.wait (.start c timeout))
      (.connection k (.requestSettled id))
  | exit {s : SessionId} {p q : Session.Stage} {b : BackendId} {c : CellId} {timeout : Timeout}
    (novel : Novel w w' c) (spawned : (w.session s).backend = some b)
    (gives : ∀ r, w.Offers (.session s p) r → r = .exit b) (patient : q = .killed → timeout = .never) :
    Calling w w' (.session s p) (.wait (.start c timeout)) (.session s q)

theorem Leads.calling {inner next : Frame} (h : Leads t w w' f o (.call inner next)) :
    Calling w w' f inner next := by
  cases h with
  | requests | answers | connects | greets | abandons | readies | tells | asks | dismisses | releases =>
    exact .plain (fun _ => by simp) fun _ _ _ => ⟨_, rfl⟩
  | written => exact .request
  | @watches s _ _ b _ _ _ novel spawned stages =>
    have gives {r : Role} (h : ∃ b', (w.session s).backend = some b' ∧ r = .exit b') :
        r = .exit b := by
      obtain ⟨b', found, rfl⟩ := h
      rw [spawned] at found
      cases found
      rfl
    rcases stages with ⟨rfl, rfl, -⟩ | ⟨rfl, rfl, -⟩ | ⟨rfl, rfl, rfl, -⟩
    · exact .exit novel spawned (fun _ => gives) fun same => nomatch same
    · exact .exit novel spawned (fun _ => gives) fun same => nomatch same
    · exact .exit novel spawned (fun _ => gives) fun _ => rfl
  | serves _ _ flow_ => rcases flow_ with same | ⟨c, -, same⟩ <;> cases same
  | stopsAnswers _ flow_ => rcases flow_ with same | ⟨c, same⟩ <;> cases same
  | launches _ flow_ => rcases flow_ with same | ⟨c, -, same⟩ <;> cases same
  | takes _ _ flow_ => rcases flow_ with same | same | ⟨c, -, same⟩ <;> cases same

include alone goes moves in
theorem Knows.of_call {inner next : Frame}
    (strides : Strides R m.world w' t f o rest begun (.call inner next) w₂)
    (knows : Knows ms m.world t) (stack : w'.stack t = inner :: next :: rest) :
    Knows (ms ++ [m]) w' t := by
  have top := strides.top
  have backed : Backed ms m.world (f :: rest) := top ▸ knows.backed
  have calling := (alone.client.leads strides).calling
  have runs := strides.lands.next.1
  have written (k : ConnectionId) (id : Nat) (c : CellId) (timeout : Timeout)
      (member : .connection k (.requestWritten id c timeout) ∈ inner :: next :: rest) :
      Typed (ms ++ [m]) w' (.request k id) c := backed.goes_written alone goes moves strides member
  have starts {c : CellId} {timeout : Timeout} (same : inner = .wait (.start c timeout))
      (wants : Wants (ms ++ [m]) w' next c) (patient : Patient next → timeout = .never) :
      Knows (ms ++ [m]) w' t := by
    subst same
    refine ⟨.runs runs (stack ▸ ⟨_, rfl⟩), ?_⟩
    rw [stack]
    refine ⟨written, fun c' timeout' rest' same => ?_, fun _ _ same => ?_, fun _ _ _ same => ?_⟩
    · cases same
      exact ⟨next, rest, rfl, wants, patient⟩
    · cases (List.cons_eq_cons.1 same).1
    · cases (List.cons_eq_cons.1 same).1
  cases calling with
  | plain other fits =>
    refine ⟨.runs runs (stack ▸ fits _ _ _), ?_⟩
    rw [stack]
    exact backed.unwaiting alone goes moves strides fun p rest' same =>
      other p (List.cons_eq_cons.1 same).1
  | @request k id c timeout =>
    refine starts rfl ?_ fun patient => patient.elim
    exact (backed.written k id c timeout List.mem_cons_self).later goes alone.sound moves.moved
  | @exit s p q b c timeout novel spawned gives patient =>
    have kind := (strides.lands.aside.kept .none).kind c (Loop.lt_of_kind? novel.2)
    refine starts rfl ⟨b, alone.backend_later moves.move spawned, .made alone.sound moves.moved novel.1
      ⟨_, kind.trans novel.2, fun _ same => nomatch same⟩ (fun r given => ?_)
      fun _ _ same => nomatch same⟩ fun waits => patient ?_
    · exact gives r (strides.gives given)
    · cases q <;> first | rfl | exact waits.elim

end Steps

/-- What a task finds settled that it attends to. -/
theorem Attends.fits {stack : List Frame} (h : Attends ms w stack c) (sound : w.Sound)
    (settled : w.loop.outcome? c = some o)
    (calm : (∀ v, w.loop.kind? c ≠ some (.task v)) → o ≠ .error .cancelled) : Fits ms w stack o := by
  have loose (typed : Typed ms w .loose c) : ∃ r, o = .ok r := by
    rcases typed.settled o settled with same | same
    · exact absurd same (calm typed.kind)
    · exact ⟨_, same⟩
  have brings {g : Frame} (wants : Wants ms w g c) : Brings ms w g o := by
    refine wants.brings settled (calm fun v => ?_)
    unfold Wants at wants
    split at wants
    · exact wants.kind v
    · obtain ⟨b, -, typed⟩ := wants
      exact typed.kind v
    · exact wants.elim
  unfold Attends at h
  split at h
  · exact .inl (brings h)
  · exact brings h
  · obtain ⟨u, rfl, -, doomed⟩ := h
    exact doomed.outcome sound settled
  · trivial
  · exact loose h
  · exact loose h
  · exact loose h
  · exact loose h
  · exact loose h
  · exact loose h
  · exact h.elim

/-- A task that finds settled what it is to wait for goes on with that. -/
theorem Landed.at_once {g : Frame} (lands : Landed t rest (.await c g) w₂ w') (idle : w₂.current = none)
    (runs : w'.current = some (t, o)) : w₂.loop.outcome? c = some o := by
  have cells : (w₂.setStack t (g :: rest)).loop.outcome? c = w₂.loop.outcome? c := rfl
  rw [lands.same, land_await] at runs
  split at runs
  · next o' settled =>
    cases runs
    exact cells.symm.trans settled
  · have kept : ((w₂.setStack t (g :: rest)).suspend t c).current = none := by
      rw [suspend_eq]
      split
      · split
        · dsimp only
          split <;> exact idle
        · exact idle
      · exact idle
    rw [kept] at runs
    cases runs

/-- A new cell is not given up before anybody waits for it. -/
theorem calm_of_new (alone : w.Alone) (near : Moves may w.Near w w') (runs : w.current = some (t, o))
    (sound' : w'.Sound) (new : w.loop.cells.length ≤ c)
    (kind : ∀ v, w'.loop.kind? c ≠ some (.task v)) (unwaited : w'.loop.waits t = none) :
    w'.loop.outcome? c ≠ some (.error .cancelled) := by
  intro cancelled
  rcases alone.guarded.mild alone.sound alone.client near with ⟨idle, -⟩ | mild
  · rw [runs] at idle
    cases idle
  · have before : w.loop.outcome? c = none := by
      rw [Loop.outcome?, List.getElem?_eq_none new]
      rfl
    rcases mild.leaves.cancelled c before cancelled with touched | given
    · rcases touched with inside | ⟨v, task⟩ | ⟨-, u, ⟨o', moves⟩, waits⟩
      · exact absurd (alone.client.near_inside alone.sound inside) (Nat.not_lt.2 new)
      · exact kind v task
      · rcases moves with runs' | runs'
        · rw [runs] at runs'
          cases runs'
          rw [unwaited] at waits
          cases waits
        · have none := (sound'.orderly.running u (by rw [runs']; rfl)).2.1
          rw [waits] at none
          cases none
    · rw [alone.guarded.given c] at given
      cases given

/-- How a task comes to wait: for a cell that it has been given, for a new one, or for a task. -/
inductive Comes (w w₂ : World) (t : TaskId) :
    Frame → Outcome Result → CellId → Frame → Prop
  | given {c : CellId} {timeout : Timeout} {r : Result} {g : Frame}
    (cells : w₂.loop.cells = w.loop.cells)
    (goes : g = .pass ∨ ∃ id n span, g = .wait (.guarded id n) ∧ timeout = .after span) :
    Comes w w₂ t (.wait (.start c timeout)) (.ok r) c g
  | released {c d : CellId} {span : Int} {r : Result} (new : w.loop.cells.length ≤ d) :
    Comes w w₂ t (.wait (.start c (.after span))) (.ok r) d (.wait (.released c))
  | new {f g : Frame} {o : Outcome Result} {c : CellId} (new : w.loop.cells.length ≤ c)
    (gives : ∀ r, w.Offers f r → r = .loose) (other : ∀ p, g ≠ .wait p)
    (attends : ∀ ms w' rest, Typed ms w' .loose c → Attends ms w' (g :: rest) c) :
    Comes w w₂ t f o c g
  | reader {k : ConnectionId} {r : Result} {u : TaskId}
    (reader : (w.connection k).reader = some u) (going : w.loop.taskDone u = false)
    (same : w₂ = w.onLoop (·.cancelTask u)) :
    Comes w w₂ t (.connection k .close) (.ok r) (w.loop.taskCell u) (.connection k .readerStopped)
  | reaper {s : SessionId} {timeout : Timeout} {r : Result} {c : CellId} :
    Comes w w₂ t (.session s (.stop timeout)) (.ok r) c .pass

theorem Leads.comes (h : Leads t w w₂ f o (.await c g)) (plain : f.serves = false)
    (steps : w.resume t f o = (.await c g, w₂)) : Comes w w₂ t f o c g := by
  cases h with
  | waits =>
    have same : (Flow.await c Frame.pass, w) = (Flow.await c Frame.pass, w₂) := steps
    cases same
    exact .given rfl (.inl rfl)
  | @guards _ span =>
    refine .given ?_ (.inr ⟨_, _, span, rfl, rfl⟩)
    simp only [resume, resumeWait, startWait] at steps
    split at steps
    · rw [← show (w.guardTask t span).2 = w₂ from congrArg Prod.snd steps]
      exact Loop.cells_setTimer span _ w.loop
    · split at steps <;> exact absurd (congrArg Prod.fst steps) (by simp)
  | givesUp _ novel => exact .released novel.1
  | serves serves =>
    rw [show Connection.Stage.serves _ = false from plain] at serves
    cases serves
  | stalls novel => exact .new novel.1 (fun _ loose => loose) (fun _ => by simp) fun _ _ _ typed => typed
  | stopsReader reader going same => exact .reader reader going same
  | stopsAnswers _ flow_ new =>
    rcases flow_ with same | ⟨d, same⟩ <;> cases same
    exact .new (new _ _ rfl) (fun _ loose => loose) (fun _ => by simp) fun _ _ _ typed => typed
  | launches _ flow_ =>
    rcases flow_ with same | ⟨d, novel, same⟩ <;> cases same
    exact .new novel.1 (fun _ loose => loose) (fun _ => by simp) fun _ _ _ typed => typed
  | takes before after flow_ =>
    rcases flow_ with same | same | ⟨d, novel, same⟩ <;> cases same
    refine .new novel.1 (fun r loose => ?_) (fun _ => by simp) fun _ _ _ typed => ?_
    · rcases before with rfl | ⟨c, rfl⟩ <;> exact loose
    · rcases after with rfl | ⟨c, rfl⟩ <;> exact typed
  | joins => exact .reaper

section Steps

variable (alone : m.world.Alone) (goes : m.Goes w') (moves : Moves may R m.world w')
variable (alone' : w'.Alone)

include alone goes moves alone' in
/-- A task comes to wait. -/
theorem Knows.of_await (near : Moves may m.world.Near m.world w')
    (strides : Strides R m.world w' t f o rest begun (.await c g) w₂) (knows : Knows ms m.world t)
    (stack : w'.stack t = g :: rest) (busy : ¬ Errand (m.world.stack t)) :
    Knows (ms ++ [m]) w' t := by
  have top := strides.top
  have linked : Linked (f :: rest) := top ▸ alone.client.linked t
  have plain : f.serves = false := Bool.eq_false_iff.2 fun serves => busy <| by
    rw [top]
    exact errand_of_serves linked serves
  have backed : Backed ms m.world (f :: rest) := top ▸ knows.backed
  have comes := (alone.client.leads strides).comes plain strides.steps
  have written (k : ConnectionId) (id : Nat) (c' : CellId) (timeout : Timeout)
      (member : .connection k (.requestWritten id c' timeout) ∈ g :: rest) :
      Typed (ms ++ [m]) w' (.request k id) c' := backed.goes_written alone goes moves strides member
  have poised (attends : Attends (ms ++ [m]) w' (g :: rest) c)
      (fits : ∀ o, w'.loop.outcome? c = some o → w'.current = some (t, o) → w'.loop.waits t = none →
        Fits (ms ++ [m]) w' (g :: rest) o) : Poised (ms ++ [m]) w' t := by
    rcases strides.lands.next with ⟨o', settled, runs, unwaited⟩ | ⟨-, waits⟩
    · exact .runs runs (stack ▸ fits o' settled runs unwaited)
    · exact .waits waits (stack ▸ attends)
  have unwaiting (other : ∀ p, g ≠ .wait p) : Backed (ms ++ [m]) w' (g :: rest) :=
    backed.unwaiting alone goes moves strides fun p rest' same => other p (List.cons_eq_cons.1 same).1
  have fresh (attends : Attends (ms ++ [m]) w' (g :: rest) c) (new : m.world.loop.cells.length ≤ c) :
      Poised (ms ++ [m]) w' t :=
    poised attends fun o' settled _ unwaited => attends.fits alone'.sound settled fun kind same =>
      calm_of_new alone near strides.runs alone'.sound new kind unwaited (same ▸ settled)
  have typed (new : m.world.loop.cells.length ≤ c) (gives : ∀ r, m.world.Offers f r → r = .loose) :
      Typed (ms ++ [m]) w' .loose c :=
    .made alone.sound moves.moved new (strides.kind alone.sound rfl new)
      (fun r given => gives r (strides.gives given)) (by simp)
  cases comes with
  | @given _ timeout r _ cells stands =>
    obtain ⟨g', rest', rfl, wants, patient⟩ := backed.starts c timeout rest rfl
    have later := wants.later alone goes moves
    have calm (o' : Outcome Result) (runs : w'.current = some (t, o')) : o' ≠ .error .cancelled := by
      rintro rfl
      have settled := strides.lands.at_once strides.turn.keeps.current runs
      have before : m.world.loop.outcome? c = some (.error .cancelled) := by
        rwa [Loop.outcome?, cells] at settled
      exact (alone.guarded.minds t busy).wanted (.wait (.start c timeout))
        (top ▸ List.mem_cons_self) c (List.mem_singleton_self c) before
    rcases stands with rfl | ⟨id, n, span, rfl, rfl⟩
    · exact ⟨poised later fun o' settled runs _ => later.brings settled (calm o' runs),
        stack ▸ unwaiting fun _ => by simp⟩
    · refine ⟨poised later fun o' settled runs _ => .inl (later.brings settled (calm o' runs)), ?_⟩
      rw [stack]
      refine ⟨written, fun _ _ _ same => ?_, fun _ _ same => ?_, fun _ _ _ same => ?_⟩
      · cases (List.cons_eq_cons.1 same).1
      · cases (List.cons_eq_cons.1 same).1
      · cases same
        exact ⟨g', rest', rfl, fun waits => absurd (patient waits) (by simp)⟩
  | @released c' _ span r new =>
    obtain ⟨g', rest', rfl, wants, patient⟩ := backed.starts c' (.after span) rest rfl
    refine ⟨fresh (typed new fun _ loose => loose) new, ?_⟩
    rw [stack]
    refine ⟨written, fun _ _ _ same => ?_, fun _ _ same => ?_, fun _ _ _ same => ?_⟩
    · cases (List.cons_eq_cons.1 same).1
    · cases same
      exact ⟨g', rest', rfl, wants.later alone goes moves, fun waits => absurd (patient waits) (by simp)⟩
    · cases (List.cons_eq_cons.1 same).1
  | new new gives other attends =>
    have known := attends (ms ++ [m]) w' rest (typed new gives)
    exact ⟨fresh known new, stack ▸ unwaiting other⟩
  | @reader k r u reader going same =>
    have inside := alone.sound.refers true u (.reader reader)
    have doomed := Doomed.of_stops alone.readers alone.client alone.sound strides reader going same
    have attends : Attends (ms ++ [m]) w' (.connection k .readerStopped :: rest)
        (m.world.loop.taskCell u) :=
      ⟨u, (moves.moved.taskCell u inside).symm, Nat.lt_of_lt_of_le inside moves.moved.tasks, doomed⟩
    refine ⟨poised attends fun o' settled _ _ => attends.fits alone'.sound settled fun kind => ?_,
      stack ▸ unwaiting fun _ => by simp⟩
    have known := (moves.moved.kind _ (alone.sound.inside inside)).trans (alone.sound.cells u inside)
    exact absurd known (kind u)
  | reaper =>
    have none := linked.nothing_below rfl
    subst none
    exact ⟨poised trivial fun _ _ _ _ => trivial, stack ▸ unwaiting fun _ => by simp⟩

end Steps

/-- A task that has been woken goes on with what has come of its cell, or has run out of time. -/
theorem Attends.wakes {stack : List Frame} (h : Attends ms w stack c) (sound : w.Sound)
    (settled : w.loop.outcome? c = some o)
    (overdue : (∀ v, w.loop.kind? c ≠ some (.task v)) → o = .error .cancelled →
      ∃ id n rest, stack = .wait (.guarded id n) :: rest ∧ id ∈ w.loop.expired) : Fits ms w stack o := by
  by_cases given : (∀ v, w.loop.kind? c ≠ some (.task v)) ∧ o = .error .cancelled
  · obtain ⟨kind, rfl⟩ := given
    obtain ⟨id, n, rest, rfl, late⟩ := overdue kind rfl
    cases rest with
    | nil => exact h.elim
    | cons g rest => exact .inr ⟨rfl, late⟩
  · exact h.fits sound settled fun kind same => given ⟨kind, same⟩

theorem Leads.unpaused (h : Leads t w w' f o flow) (g : Frame) : flow ≠ .pause g := by
  rintro rfl
  cases h with
  | serves _ _ flow_ => rcases flow_ with same | ⟨c, -, same⟩ <;> cases same
  | stopsAnswers _ flow_ => rcases flow_ with same | ⟨c, same⟩ <;> cases same
  | launches _ flow_ => rcases flow_ with same | ⟨c, -, same⟩ <;> cases same
  | takes _ _ flow_ => rcases flow_ with same | same | ⟨c, -, same⟩ <;> cases same

theorem Backed.of_opens {g : Frame}
    (opens : g.isUse 0 = true ∨ ∃ grace, g = .session 0 (.shutdown grace)) : Backed ms w [g] := by
  have other : (∀ p, g ≠ .wait p) ∧ ∀ k p, g ≠ .connection k p := by
    rcases opens with use | ⟨grace, rfl⟩
    · refine ⟨fun p same => ?_, Frame.ne_connection_of_use use⟩
      rw [same] at use
      cases use
    · exact ⟨fun _ => by simp, fun _ _ => by simp⟩
  refine ⟨fun k id c timeout member => ?_, fun _ _ _ same => ?_, fun _ _ same => ?_, fun _ _ _ same => ?_⟩
  · exact absurd (List.mem_singleton.1 member).symm (other.2 _ _)
  · exact absurd (List.cons_eq_cons.1 same).1 (other.1 _)
  · exact absurd (List.cons_eq_cons.1 same).1 (other.1 _)
  · exact absurd (List.cons_eq_cons.1 same).1 (other.1 _)

/-- A task has been woken. -/
theorem Knows.of_wakes (alone : m.world.Alone) (goes : m.Goes w') (moves : Moves may R m.world w')
    (alone' : w'.Alone) (knows : Knows ms m.world t) (busy : ¬ Errand (m.world.stack t))
    (stack : w'.stack t = m.world.stack t) (idle : m.world.current = none)
    (runs : w'.current = some (t, o))
    (outcome : if m.world.loop.due t then o = .error .cancelled
      else (m.world.loop.waits t = none ∧ o = .ok .nothing) ∨
        ∃ c, m.world.loop.waits t = some c ∧ m.world.loop.outcome? c = some o) :
    Knows (ms ++ [m]) w' t := by
  have expired : w'.loop.expired = m.world.loop.expired := by
    cases moves.move with
    | rests _ _ idle' =>
      rw [idle'] at runs
      cases runs
    | ends _ idle' =>
      rw [idle'] at runs
      cases runs
    | wakes _ _ _ _ _ _ _ _ same =>
      rw [same]
      rfl
    | goes runs' =>
      rw [idle] at runs'
      cases runs'
  have minds := alone.guarded.minds t busy
  refine ⟨.runs runs ?_, stack ▸ knows.backed.later alone goes moves⟩
  rw [stack]
  have late (due : m.world.loop.due t = true) : m.world.Overdue t := by
    obtain ⟨task, found, due⟩ := Loop.due_eq_true.1 due
    exact (minds.due task found due).1
  cases knows.poised with
  | runs runs' =>
    rw [idle] at runs'
    cases runs'
  | @waits c waits attends =>
    have attends := attends.later alone goes moves
    split at outcome
    · next due =>
      subst outcome
      obtain ⟨id, n, ⟨rest, top⟩, gone⟩ := late due
      rw [top] at attends ⊢
      cases rest with
      | nil => exact attends.elim
      | cons g rest => exact .inr ⟨rfl, expired ▸ gone⟩
    · rcases outcome with ⟨none, -⟩ | ⟨c', waits', settled⟩
      · rw [waits] at none
        cases none
      · rw [waits] at waits'
        cases waits'
        have inside := alone.client.inside t c waits
        refine attends.wakes alone'.sound (moves.moved.settles.outcome settled) fun kind same => ?_
        subst same
        rw [moves.moved.kind c inside] at kind
        obtain ⟨id, n, ⟨rest, top⟩, gone⟩ := minds.lost c waits kind settled
        exact ⟨id, n, rest, top, expired ▸ gone⟩
  | @fresh g top _ unwaited opens =>
    rw [top]
    have good : o = .ok .nothing := by
      split at outcome
      · next due =>
        obtain ⟨id, n, ⟨rest, top'⟩, -⟩ := late due
        rw [top] at top'
        rw [(List.cons_eq_cons.1 top').1] at opens
        rcases opens with use | ⟨grace, same⟩
        · cases use
        · cases same
      · rcases outcome with ⟨-, same⟩ | ⟨c, waits, -⟩
        · exact same
        · rw [unwaited] at waits
          cases waits
    subst good
    rcases opens with use | ⟨grace, rfl⟩
    · rcases Frame.isUse_cases use with rfl | ⟨method, params, rfl⟩ | ⟨timeout, rfl⟩ <;> exact ⟨_, rfl⟩
    · exact ⟨_, rfl⟩
  | ended top =>
    rw [top] at busy
    exact absurd (fun _ hf => nomatch hf) busy

/-- Every task but the errands knows what it goes on with. -/
def Knowing (ms : List Moment) (w : World) : Prop := ∀ t, ¬ Errand (w.stack t) → Knows ms w t

theorem Knowing.goes (h : Knowing ms m.world) (alone : m.world.Alone) (goes : m.Goes w')
    (use : ∀ a, m.act = some a → a.isUse 0 = true) : Knowing (ms ++ [m]) w' := by
  obtain ⟨alone', moves⟩ := alone.goes goes use
  intro t busy
  cases alone.sound.fate moves.move t with
  | stays stack waits before after =>
    rw [stack] at busy
    have knows := h t busy
    refine ⟨?_, stack ▸ knows.backed.later alone goes moves⟩
    cases knows.poised with
    | runs runs => exact absurd runs (before _)
    | waits waits' attends =>
      exact .waits (waits.trans waits') (stack ▸ attends.later alone goes moves)
    | fresh top _ unwaited opens => exact .fresh (stack.trans top) after (waits.trans unwaited) opens
    | ended top => exact .ended (stack.trans top)
  | ends _ stack =>
    rw [stack] at busy
    exact absurd (fun _ hf => nomatch hf) busy
  | wakes idle stack before _ runs outcome =>
    subst before
    rw [stack] at busy
    exact (h t busy).of_wakes alone goes moves alone' busy stack idle runs outcome
  | @begins g new stack waits after source =>
    have opens : g.isUse 0 = true ∨ ∃ grace, g = .session 0 (.shutdown grace) := by
      rcases source with ⟨-, allowed⟩ | ⟨u, f, o, rest, begun, flow, w₂, strides, found⟩
      · exact .inl (isUse_of_begins use allowed)
      · have client := alone.client.places u f (strides.top ▸ List.mem_cons_self)
        rcases strides.turn.change.opened client g (List.mem_of_getElem? found) with
          serves | ⟨s, grace, rfl⟩
        · rw [stack] at busy
          exact absurd (errand_of_serves (show Linked [g] from trivial) serves) busy
        · have same := alone'.here (t := t) (stack ▸ List.mem_cons_self)
          exact .inr ⟨grace, by rw [same]⟩
    exact ⟨.fresh stack after waits opens, stack ▸ .of_opens opens⟩
  | @goes f o rest begun flow w₂ strides stack =>
    have leads := alone.client.leads strides
    have before : ¬ Errand (m.world.stack t) := by
      rw [strides.top]
      exact fun errand => busy (stack ▸ errand.goes leads)
    have knows := h t before
    cases flow with
    | done => exact knows.of_done alone goes moves strides stack before
    | goto => exact knows.of_goto alone goes moves strides stack before
    | call => exact knows.of_call alone goes moves strides stack
    | await =>
      have tame (a : Act) (same : m.act = some a) : a.isTame = true := isTame_of_use (use a same)
      rcases alone.client.goes goes alone.sound tame with ⟨id, idle, -⟩ | near
      · have runs := strides.runs
        rw [idle] at runs
        cases runs
      · exact knows.of_await alone goes moves alone' near strides stack before
    | pause g => exact absurd rfl (leads.unpaused g)

end World
end LanguageClient
