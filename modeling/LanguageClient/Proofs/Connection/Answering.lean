import LanguageClient.Proofs.Connection.Demands
import LanguageClient.Proofs.Connection.Waiting
import LanguageClient.Proofs.World.Attentive

/-!
How the requests of backends are answered, as many at once as may be. Each gets one response, unless its
method is no name, its handler never comes to an end, or nothing can be sent any more.
-/

namespace LanguageClient

open Schedule

/-- What a request of the backend comes to, by how its method is handled. -/
def Connection.handled (params : Value) : Option Handler → Option (Except Failure Value)
  | none => some (.ok .null)
  | some .echo | some .later => some (.ok params)
  | some .fail => some (.error (.refused "handler failed"))
  | some .configuration => some (emptyConfiguration params)
  | some .hang => none

namespace Moment

variable (m : Moment) (t : TaskId) (k : ConnectionId) (id method params : Value)

/-- It is found out what to answer a request of the backend. -/
def Finds (x : Option (Except Failure Value)) : Prop :=
  ∃ r key, m.Runs t (.connection k (.answer id method params)) (.ok r) [] ∧ method.key? = some key ∧
    x = Connection.handled params ((m.world.connection k).handler? key)

/-- An answer comes when nothing can be sent any more. -/
def Misses : Prop :=
  (∃ r result, m.Runs t (.connection k (.answerReady id result)) (.ok r) []) ∧
    (m.world.connection k).closed = true

end Moment

namespace World

variable {may : Frame → Prop} {R : CellId → Prop} {t : TaskId} {d : CellId} {w w' first : World}
variable {f : Frame} {o : Outcome Result} {k : ConnectionId} {id method params : Value} {r : Result}
variable {result : Except Failure Value} {ms : List Moment} {m : Moment}

/-- It has been found out what to answer. -/
def Found (ms : List Moment) (t : TaskId) (k : ConnectionId) (id method params : Value)
    (x : Option (Except Failure Value)) : Prop :=
  ∃ m ∈ ms, m.Finds t k id method params x

theorem Found.later {x : Option (Except Failure Value)} (h : Found ms t k id method params x) (m : Moment) :
    Found (ms ++ [m]) t k id method params x :=
  let ⟨m', member, finds⟩ := h
  ⟨m', List.mem_append_left _ member, finds⟩

theorem Found.now {x : Option (Except Failure Value)} (h : m.Finds t k id method params x) :
    Found (ms ++ [m]) t k id method params x :=
  ⟨m, List.mem_append_right _ (List.mem_singleton_self m), h⟩

def Unanswered (ms : List Moment) (t : TaskId) (k : ConnectionId) (id : Value) : Prop :=
  ∀ m ∈ ms, ¬ ∃ result, m.Answers t k id result

/-- A request has got one response, and no other. -/
structure AnsweredOnce (ms : List Moment) (t : TaskId) (k : ConnectionId) (id method params : Value)
    (result : Except Failure Value) : Prop where
  found : Found ms t k id method params (some result)
  once : Once (fun m => ∃ result, m.Answers t k id result) ms
  only : ∀ m ∈ ms, ∀ other, m.Answers t k id other → other = result

/-- What the task comes to that is to answer a request. -/
inductive Served (ms : List Moment) (t : TaskId) (k : ConnectionId) (id method params : Value) :
    Outcome Result → Prop
  | cancelled : Served ms t k id method params (.error .cancelled)
  | unknown (unhashable : method.key? = none) (unanswered : Unanswered ms t k id) :
    Served ms t k id method params (.error (.unhashable method.kind))
  | hung (found : Found ms t k id method params none) (unanswered : Unanswered ms t k id) :
    Served ms t k id method params (.ok .nothing)
  | missed (missed : ∃ m ∈ ms, m.Misses t k id) (unanswered : Unanswered ms t k id) :
    Served ms t k id method params (.ok .nothing)
  | answered {result : Except Failure Value} (answered : AnsweredOnce ms t k id method params result) :
    Served ms t k id method params (.ok .nothing)

/-- Where the task stands that is to answer a request. -/
inductive Answering (ms : List Moment) (w : World) (t : TaskId) (k : ConnectionId)
    (id method params : Value) : Prop
  | begins (unturned : w.Unturned t (.connection k (.answer id method params)))
    (unanswered : Unanswered ms t k id)
  | turn {o : Outcome Result} (stack : w.stack t = [.connection k (.answer id method params)])
    (runs : w.current = some (t, o)) (called : o = .error .cancelled ∨ ∃ r, o = .ok r)
    (unanswered : Unanswered ms t k id)
  | delays {d : CellId} (stack : w.stack t = [.connection k (.answerDelayed id params)])
    (found : Found ms t k id method params (some (.ok params))) (loose : Typed ms w .loose d)
    (heeds : w.Heeds t d) (unanswered : Unanswered ms t k id)
  | hangs {d : CellId} (stack : w.stack t = [.connection k .answerNever])
    (found : Found ms t k id method params none) (loose : Typed ms w .loose d) (heeds : w.Heeds t d)
    (unanswered : Unanswered ms t k id)
  | ready {result : Except Failure Value} {r : Result}
    (stack : w.stack t = [.connection k (.answerReady id result)]) (runs : w.current = some (t, .ok r))
    (found : Found ms t k id method params (some result)) (unanswered : Unanswered ms t k id)
  | writes {result : Except Failure Value} (draining : Draining ms w t k [.connection k .answerWritten])
    (answered : AnsweredOnce ms t k id method params result)
  | written {result : Except Failure Value} {o : Outcome Result}
    (stack : w.stack t = [.connection k .answerWritten]) (runs : w.current = some (t, o))
    (sent : o = .error .cancelled ∨ Sent o) (answered : AnsweredOnce ms t k id method params result)
  | finished {o : Outcome Result} (returned : w.Returned t o) (served : Served ms t k id method params o)

theorem not_answers (other : ∀ result, m.world.stack t ≠ [.connection k (.answerReady id result)]) :
    ¬ ∃ result, m.Answers t k id result := by
  rintro ⟨result, ⟨r, runs⟩, -⟩
  exact other result runs.2

theorem Unanswered.later (h : Unanswered ms t k id)
    (other : ∀ result, m.world.stack t ≠ [.connection k (.answerReady id result)]) :
    Unanswered (ms ++ [m]) t k id :=
  never_next h (not_answers other)

theorem AnsweredOnce.later (h : AnsweredOnce ms t k id method params result)
    (other : ∀ result, m.world.stack t ≠ [.connection k (.answerReady id result)]) :
    AnsweredOnce (ms ++ [m]) t k id method params result where
  found := h.found.later m
  once := h.once.later (not_answers other)
  only m' member other' answers := by
    rcases List.mem_append.1 member with old | last
    · exact h.only m' old other' answers
    · cases List.mem_singleton.1 last
      exact absurd ⟨other', answers⟩ (not_answers other)

theorem Served.later (h : Served ms t k id method params o)
    (other : ∀ result, m.world.stack t ≠ [.connection k (.answerReady id result)]) :
    Served (ms ++ [m]) t k id method params o := by
  cases h with
  | cancelled => exact .cancelled
  | unknown unhashable unanswered => exact .unknown unhashable (unanswered.later other)
  | hung found unanswered => exact .hung (found.later m) (unanswered.later other)
  | missed missed unanswered =>
    obtain ⟨m', member, misses⟩ := missed
    exact .missed ⟨m', List.mem_append_left _ member, misses⟩ (unanswered.later other)
  | answered answered => exact .answered (answered.later other)

theorem Draining.unready {below : List Frame} (h : Draining ms w t k below) (result : Except Failure Value) :
    w.stack t ≠ [.connection k (.answerReady id result)] := by
  intro same
  cases h with
  | drains stack | drained stack | waits stack => cases stack.symm.trans same

/-- Where the task goes on that finds out what to answer. -/
inductive Finding (w : World) (k : ConnectionId) (id method params : Value) : Flow Frame Result → Prop
  | unknown (unhashable : method.key? = none) :
    Finding w k id method params (.done (.error (.unhashable method.kind)))
  | ready {key : Key} {result : Except Failure Value} (key_ : method.key? = some key)
    (handled : Connection.handled params ((w.connection k).handler? key) = some result) :
    Finding w k id method params (.goto (.connection k (.answerReady id result)))
  | delays {key : Key} (key_ : method.key? = some key)
    (handled : Connection.handled params ((w.connection k).handler? key) = some (.ok params)) :
    Finding w k id method params (.await w.loop.cells.length (.connection k (.answerDelayed id params)))
  | hangs {key : Key} (key_ : method.key? = some key)
    (handled : Connection.handled params ((w.connection k).handler? key) = none) :
    Finding w k id method params (.await w.loop.cells.length (.connection k .answerNever))

theorem answer_finding (k : ConnectionId) (id method params : Value) (w : World) :
    Finding w k id method params (w.answer k id method params).1 := by
  unfold answer
  dsimp only
  cases found : method.key? with
  | none => exact .unknown found
  | some key =>
    dsimp only
    cases handler : (w.connection k).handler? key with
    | none => exact .ready found (by rw [handler]; rfl)
    | some handler' =>
      cases handler' with
      | later => exact .delays found (by rw [handler]; rfl)
      | hang => exact .hangs found (by rw [handler]; rfl)
      | _ => exact .ready found (by rw [handler]; rfl)

theorem sendAnswer_flow (k : ConnectionId) (id : Value) (result : Except Failure Value) (w : World) :
    (w.sendAnswer k id result).1 = if (w.connection k).closed = true then .done (.ok .nothing)
      else .call (.connection k .drain) (.connection k .answerWritten) := by
  unfold sendAnswer
  split <;> rfl

section Step

variable (sound : m.world.Sound) (moves : Moves may R m.world w')

include sound moves

theorem Answering.turned (runs : m.Runs t (.connection k (.answer id method params)) o [])
    (called : o = .error .cancelled ∨ ∃ r, o = .ok r) (unanswered : Unanswered ms t k id) :
    Answering (ms ++ [m]) w' t k id method params := by
  obtain ⟨begun, flow, w₂, strides⟩ := sound.strides_of_runs moves.move runs
  have after := (strides.turn.piles (sound.running strides.runs) strides.lands).1
  have next := strides.lands.next
  have later : Unanswered (ms ++ [m]) t k id :=
    unanswered.later fun result same => by cases runs.2.symm.trans same
  rcases called with rfl | ⟨r, rfl⟩
  · cases strides.steps
    exact .finished (.inl ⟨next.1, after⟩) .cancelled
  have finding := answer_finding k id method params { m.world with current := none }
  have steps : { m.world with current := none }.answer k id method params = (flow, w₂) := strides.steps
  rw [steps] at finding
  have found {x : Option (Except Failure Value)} {key : Key} (name : method.key? = some key)
      (handled : Connection.handled params ((m.world.connection k).handler? key) = x) :
      Found (ms ++ [m]) t k id method params x := .now ⟨r, key, runs, name, handled.symm⟩
  have loose {g : Frame} (waits : flow = .await m.world.loop.cells.length g) :
      Typed (ms ++ [m]) w' .loose m.world.loop.cells.length := by
    subst waits
    exact .of_await sound moves strides (Nat.le_refl _) fun r loose => loose
  cases finding with
  | unknown unhashable => exact .finished (.inl ⟨next.1, after⟩) (.unknown unhashable later)
  | ready name handled => exact .ready after next.1 (found name handled) later
  | delays name handled => exact .delays after (found name handled) (loose rfl) (.of_next next) later
  | hangs name handled => exact .hangs after (found name handled) (loose rfl) (.of_next next) later

theorem Answering.delayed_on (runs : m.Runs t (.connection k (.answerDelayed id params)) o [])
    (calm : o = .error .cancelled ∨ ∃ r, o = .ok r)
    (found : Found ms t k id method params (some (.ok params))) (unanswered : Unanswered ms t k id) : Answering (ms ++ [m]) w' t k id method params := by
  obtain ⟨after, next⟩ := sound.runs_on moves.move runs
  rcases calm with rfl | ⟨r, rfl⟩
  · exact .finished (.inl ⟨next.1, after⟩) .cancelled
  · exact .ready after next.1 (found.later m)
      (unanswered.later fun result same => by cases runs.2.symm.trans same)

theorem Answering.hung_on (runs : m.Runs t (.connection k .answerNever) o [])
    (calm : o = .error .cancelled ∨ ∃ r, o = .ok r) (found : Found ms t k id method params none)
    (unanswered : Unanswered ms t k id) : Answering (ms ++ [m]) w' t k id method params := by
  obtain ⟨after, next⟩ := sound.runs_on moves.move runs
  rcases calm with rfl | ⟨r, rfl⟩
  · exact .finished (.inl ⟨next.1, after⟩) .cancelled
  · exact .finished (.inl ⟨next.1, after⟩)
      (.hung (found.later m) (unanswered.later fun result same => by cases runs.2.symm.trans same))

/-- The response is written, unless nothing can be sent any more. -/
theorem Answering.ready_on (runs : m.Runs t (.connection k (.answerReady id result)) (.ok r) [])
    (found : Found ms t k id method params (some result)) (unanswered : Unanswered ms t k id) :
    Answering (ms ++ [m]) w' t k id method params := by
  obtain ⟨after, next⟩ := sound.runs_on moves.move runs
  have leads : ({ m.world with current := none }.resume t (.connection k (.answerReady id result)) (.ok r)).1 =
      if (m.world.connection k).closed = true then .done (.ok .nothing)
      else .call (.connection k .drain) (.connection k .answerWritten) :=
    sendAnswer_flow k id result { m.world with current := none }
  rw [leads] at after next
  by_cases closed : (m.world.connection k).closed = true
  · rw [if_pos closed] at after next
    have missed : m.Misses t k id := ⟨⟨r, result, runs⟩, closed⟩
    refine .finished (.inl ⟨next.1, after⟩)
      (.missed ⟨m, List.mem_append_right _ (List.mem_singleton_self m), missed⟩ (never_next unanswered ?_))
    rintro ⟨other, -, alive⟩
    cases closed.symm.trans alive
  · rw [if_neg closed] at after next
    have answers : m.Answers t k id result := ⟨⟨r, runs⟩, Bool.eq_false_iff.2 closed⟩
    refine .writes (.drains after next.1) ⟨found.later m, .now unanswered ⟨result, answers⟩, ?_⟩
    intro m' member other answers'
    rcases List.mem_append.1 member with old | last
    · exact absurd ⟨other, answers'⟩ (unanswered m' old)
    · cases List.mem_singleton.1 last
      obtain ⟨⟨r', runs'⟩, -⟩ := answers'
      cases runs.2.symm.trans runs'.2
      rfl

theorem Answering.written_on (runs : m.Runs t (.connection k .answerWritten) o [])
    (sent : o = .error .cancelled ∨ Sent o) (answered : AnsweredOnce ms t k id method params result) :
    Answering (ms ++ [m]) w' t k id method params := by
  obtain ⟨after, next⟩ := sound.runs_on moves.move runs
  have later : AnsweredOnce (ms ++ [m]) t k id method params result :=
    answered.later fun result same => by cases runs.2.symm.trans same
  rcases sent with rfl | ⟨r, rfl⟩ | ⟨name, cause, rfl⟩
  · exact .finished (.inl ⟨next.1, after⟩) .cancelled
  · exact .finished (.inl ⟨next.1, after⟩) (.answered later)
  · exact .finished (.inl ⟨next.1, after⟩) (.answered later)

/-- The task that is to answer a request goes on until it has come to its end. -/
theorem Answering.next (h : Answering ms m.world t k id method params) (goes : m.Goes w')
    (inside : t < m.world.loop.tasks.length) : Answering (ms ++ [m]) w' t k id method params := by
  cases h with
  | begins unturned unanswered =>
    have still : Unanswered (ms ++ [m]) t k id :=
      unanswered.later fun result same => by cases unturned.stack.symm.trans same
    rcases unturned.next sound moves.move inside with later | ⟨stack, o, runs, called⟩
    · exact .begins later still
    · exact .turn stack runs called still
  | turn stack runs called unanswered => exact .turned sound moves ⟨runs, stack⟩ called unanswered
  | delays stack found loose heeds unanswered =>
    rcases heeds.next sound moves (stack ▸ List.cons_ne_nil _ _) with
      ⟨same, heeds⟩ | ⟨f, o, rest, begun, flow, w₂, strides, outcome⟩
    · exact .delays (same.trans stack) (found.later m) (loose.later goes sound moves.moved) heeds
        (unanswered.later fun result same => by cases stack.symm.trans same)
    · exact .delayed_on sound moves ⟨strides.runs, stack⟩ (loose.calm outcome) found unanswered
  | hangs stack found loose heeds unanswered =>
    rcases heeds.next sound moves (stack ▸ List.cons_ne_nil _ _) with
      ⟨same, heeds⟩ | ⟨f, o, rest, begun, flow, w₂, strides, outcome⟩
    · exact .hangs (same.trans stack) (found.later m) (loose.later goes sound moves.moved) heeds
        (unanswered.later fun result same => by cases stack.symm.trans same)
    · exact .hung_on sound moves ⟨strides.runs, stack⟩ (loose.calm outcome) found unanswered
  | ready stack runs found unanswered => exact .ready_on sound moves ⟨runs, stack⟩ found unanswered
  | writes draining answered =>
    have later := answered.later (m := m) draining.unready
    rcases draining.next sound moves goes with draining | ⟨stack, o, runs, sent⟩
    · exact .writes draining later
    · exact .written stack runs sent later
  | written stack runs sent answered => exact .written_on sound moves ⟨runs, stack⟩ sent answered
  | finished returned served =>
    refine .finished (.inr (Returned.later returned moves inside)) (served.later fun result same => ?_)
    cases (sound.stack_of_returned returned).symm.trans same

end Step

theorem Path.answering (path : Path first ms w) (unused : first.Unused) (fair : ∀ m ∈ ms, m.Fair)
    (demanded : Demanded ms t k id method params) : Answering ms w t k id method params := by
  induction path with
  | first =>
    obtain ⟨m, member, -⟩ := demanded
    cases member
  | @next ms m w' earlier goes ih =>
    have fair' : ∀ m ∈ ms, m.Fair := fun m' member => fair m' (List.mem_append_left _ member)
    obtain ⟨sound, -⟩ := earlier.numbered unused fair'
    have moves := goes.fair_moves sound (fair m (List.mem_append_right _ (List.mem_singleton_self m)))
    have engaged := earlier.engaged unused fair'
    rcases demanded_next.1 demanded with old | new
    · exact (ih fair' old).next sound moves goes (engaged.inside t k id method params old)
    · have fresh : m.world.loop.tasks.length ≤ t := by
        obtain ⟨u, f, r, rest, -, -, rfl⟩ := new
        exact Nat.le_refl _
      refine .begins (new.unturned sound moves.move).2 (never_next ?_ (not_answers ?_))
      · rintro m' member ⟨result, answers⟩
        obtain ⟨before, after, method', params', rfl, m₀, member', demands⟩ :=
          earlier.answers_demanded unused fair' member answers
        have inside := engaged.inside t k id method' params' ⟨m₀, List.mem_append_left _ member', demands⟩
        exact absurd inside (Nat.not_lt.2 fresh)
      · intro result same
        cases (stack_of_le fresh).symm.trans same

/-- A response that a task has ready is what it has found out, and the first that it writes. -/
theorem Answering.of_ready {rest : List Frame} (h : Answering ms w t k id method params) (sound : w.Sound)
    (top : w.stack t = .connection k (.answerReady id result) :: rest) :
    rest = [] ∧ Found ms t k id method params (some result) ∧ Unanswered ms t k id := by
  cases h with
  | ready stack _ found unanswered =>
    cases stack.symm.trans top
    exact ⟨rfl, found, unanswered⟩
  | begins unturned => cases unturned.stack.symm.trans top
  | writes draining =>
    cases draining with
    | drains stack | drained stack | waits stack => cases stack.symm.trans top
  | turn stack | delays stack | hangs stack | written stack => cases stack.symm.trans top
  | finished returned => cases (sound.stack_of_returned returned).symm.trans top

/-- A task that is to answer a request of the backend comes to its end when one response has been written,
and with the identifier of the request, or for one of the reasons there are. -/
theorem demands_answered_once (path : Path first ms w) (unused : first.Unused) (fair : ∀ m ∈ ms, m.Fair)
    (demanded : Demanded ms t k id method params)
    (settled : w.loop.outcome? (w.loop.taskCell t) = some o) : Served ms t k id method params o := by
  obtain ⟨sound, -⟩ := path.numbered unused fair
  have none := sound.stack_of_returned (.inr settled)
  cases path.answering unused fair demanded with
  | begins unturned => cases unturned.stack.symm.trans none
  | writes draining => exact absurd none draining.busy
  | turn stack | delays stack | hangs stack | ready stack | written stack => cases stack.symm.trans none
  | finished returned served => exact sound.returned_unique returned settled ▸ served

/-- When nothing is left to do, a request has been answered, unless its task has been given up, its method
is no name, its handler has not come to its end, or nothing can be sent any more. -/
theorem demands_answered_at_rest (path : Path first ms w) (unused : first.Unused) (fair : ∀ m ∈ ms, m.Fair)
    (demanded : Demanded ms t k id method params) (idle : w.isIdle = true) :
    (∃ result, AnsweredOnce ms t k id method params result) ∨
      w.loop.outcome? (w.loop.taskCell t) = some (.error .cancelled) ∨ method.key? = none ∨
      (∃ m ∈ ms, m.Misses t k id) ∨ Found ms t k id method params none ∨
      w.stack t = [.connection k (.answerDelayed id params)] := by
  obtain ⟨sound, attentive⟩ := path.fair_keeps unused.sound fair (I := fun _ w => w.Attentive)
    (fun t inside => by
      rw [unused.loop] at inside
      exact absurd inside (Nat.not_lt_zero t))
    fun _ _ _ sound _ _ moves h => moves.move.attentive sound moves.moved h
  have resting : w.current = none := by
    simp only [isIdle, Bool.and_eq_true, Option.isNone_iff_eq_none] at idle
    exact idle.1
  have inside := (path.engaged unused fair).inside t k id method params demanded
  cases path.answering unused fair demanded with
  | begins unturned =>
    have going : w.loop.taskDone t = false := Bool.eq_false_iff.2 fun done => by
      cases unturned.stack.symm.trans (sound.over_of_done done)
    obtain ⟨c, waits, -⟩ := attentive.waits sound idle inside going
    cases unturned.waits.symm.trans waits
  | turn _ runs | ready _ runs | written _ runs => cases runs.symm.trans resting
  | delays stack => exact .inr (.inr (.inr (.inr (.inr stack))))
  | hangs _ found => exact .inr (.inr (.inr (.inr (.inl found))))
  | writes _ answered => exact .inl ⟨_, answered⟩
  | finished returned served =>
    rcases returned with ends | settled
    · cases ends.1.symm.trans resting
    cases served with
    | cancelled => exact .inr (.inl settled)
    | unknown unhashable => exact .inr (.inr (.inl unhashable))
    | hung found => exact .inr (.inr (.inr (.inr (.inl found))))
    | missed missed => exact .inr (.inr (.inr (.inl missed)))
    | answered answered => exact .inl ⟨_, answered⟩

end World
end LanguageClient
