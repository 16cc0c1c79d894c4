import LanguageClient.Proofs.Connection.Replies
import LanguageClient.Proofs.Connection.Waiting
import LanguageClient.Proofs.World.Calls

/-!
Calls that ask for a response, as many at once as may be. Each comes to the response that was read for it,
unless it has been cancelled, its time is over, or nothing can be sent or read any more.
-/

namespace LanguageClient

open Schedule

namespace World

variable {may : Frame → Prop} {R : CellId → Prop} {t u : TaskId} {c d : CellId} {w w' w₂ first : World}
variable {f g : Frame} {rest begun : List Frame} {flow : Flow Frame Result} {k : ConnectionId} {id : Nat}
variable {o o' : Outcome Result} {ms : List Moment} {m : Moment} {timeout : Timeout}

/-- What a request comes to that has been given its number. -/
def Ensues (ms : List Moment) (k : ConnectionId) (id : Nat) (o : Outcome Result) : Prop :=
  o = .error .cancelled ∨ (∃ name cause, o = .error (.closed name cause)) ∨ o = .error .timeout ∨
    Told ms k id o

theorem Ensues.later (h : Ensues ms k id o) (m : Moment) : Ensues (ms ++ [m]) k id o :=
  h.imp_right fun h => h.imp_right fun h => h.imp_right fun told => told.later m

theorem Typed.ensues (typed : Typed ms w (.request k id) c) (settled : w.loop.outcome? c = some o) :
    Ensues ms k id o := by
  rcases typed.settled o settled with cancelled | ⟨-, -, -, -, told | ⟨name, closed⟩⟩
  · exact .inl cancelled
  · exact .inr (.inr (.inr told))
  · exact .inr (.inl ⟨name, _, closed⟩)

/-- What a wait comes to: what has come of its cell, or that its time is over. -/
theorem endWait_cases (t : TaskId) (timer : TimerId) (n : Nat) (o : Outcome Result) (w : World) :
    ∃ o', (w.endWait t timer n o).1 = .done o' ∧
      (o' = o ∨ o' = .error .timeout) := by
  unfold endWait
  split
  · exact ⟨_, rfl, .inl rfl⟩
  · dsimp only
    split
    · split
      · exact ⟨_, rfl, .inr rfl⟩
      · exact ⟨_, rfl, .inl rfl⟩
    · exact ⟨_, rfl, .inl rfl⟩

/-- Where the task of a request stands. -/
inductive Requesting (ms : List Moment) (w : World) (t : TaskId) (k : ConnectionId) : Prop
  | asks {method : String} {params : Value} {timeout : Timeout}
    (unturned : w.Unturned t (.connection k (.request method params timeout)))
  | turn {method : String} {params : Value} {timeout : Timeout} {o : Outcome Result}
    (stack : w.stack t = [.connection k (.request method params timeout)]) (runs : w.current = some (t, o))
    (called : o = .error .cancelled ∨ ∃ r, o = .ok r)
  | writes {id : Nat} {c : CellId} {timeout : Timeout} (asked : Asked ms t k id c)
    (draining : Draining ms w t k [.connection k (.requestWritten id c timeout)])
  | written {id : Nat} {c : CellId} {timeout : Timeout} {o : Outcome Result} (asked : Asked ms t k id c)
    (stack : w.stack t = [.connection k (.requestWritten id c timeout)]) (runs : w.current = some (t, o))
    (sent : o = .error .cancelled ∨ Sent o)
  | waits {id : Nat} {c : CellId} {timeout : Timeout} {r : Result} (asked : Asked ms t k id c)
    (stack : w.stack t = [.wait (.start c timeout), .connection k (.requestSettled id)])
    (runs : w.current = some (t, .ok r))
  | heeds {id : Nat} {c : CellId} {f : Frame} (asked : Asked ms t k id c)
    (stack : w.stack t = [f, .connection k (.requestSettled id)])
    (waits : f = .pass ∨ ∃ timer n, f = .wait (.guarded timer n)) (heeds : w.Heeds t c)
  | released {id : Nat} {c d : CellId} (asked : Asked ms t k id c)
    (stack : w.stack t = [.wait (.released c), .connection k (.requestSettled id)])
    (loose : Typed ms w .loose d) (heeds : w.Heeds t d)
  | settled {id : Nat} {c : CellId} {o : Outcome Result} (asked : Asked ms t k id c)
    (stack : w.stack t = [.connection k (.requestSettled id)]) (runs : w.current = some (t, o))
    (ensues : Ensues ms k id o)
  | finished {o : Outcome Result} (returned : w.Returned t o) (ensues : o = .error .cancelled ∨
      (∃ name cause, o = .error (.closed name cause)) ∨ ∃ id c, Asked ms t k id c ∧ Ensues ms k id o)

section Step

variable (sound : m.world.Sound) (moves : Moves may R m.world w')

include sound moves

theorem Requesting.turned {method : String} {params : Value}
    (runs : m.Runs t (.connection k (.request method params timeout)) o [])
    (called : o = .error .cancelled ∨ ∃ r, o = .ok r) : Requesting (ms ++ [m]) w' t k := by
  obtain ⟨after, next⟩ := sound.runs_on moves.move runs
  rcases called with rfl | ⟨r, rfl⟩
  · exact .finished (.inl ⟨next.1, after⟩) (.inl rfl)
  cases closed : (m.world.connection k).closed with
  | true =>
    have fails : ({ m.world with current := none }.resume t (.connection k (.request method params timeout))
        (.ok r)).1 = .done (.error (m.world.ended k)) := by
      have shut : ({ m.world with current := none }.connection k).closed = true := closed
      show ({ m.world with current := none }.sendRequest k method params timeout).1 = _
      rw [sendRequest, if_pos shut]
      rfl
    rw [fails] at after next
    exact .finished (.inl ⟨next.1, after⟩) (.inr (.inl ⟨_, _, rfl⟩))
  | false =>
    obtain ⟨begun, flow, w₂, strides⟩ := sound.strides_of_runs moves.move runs
    have asked : Asked (ms ++ [m]) t k _ _ := asks_of_strides strides closed
    have leads := (strides.enrolls closed).1
    rw [strides.steps] at after next
    subst leads
    exact .writes asked (.drains after next.1)

theorem Requesting.written_on (asked : Asked ms t k id c)
    (runs : m.Runs t (.connection k (.requestWritten id c timeout)) o [])
    (sent : o = .error .cancelled ∨ Sent o) : Requesting (ms ++ [m]) w' t k := by
  obtain ⟨after, next⟩ := sound.runs_on moves.move runs
  rcases sent with rfl | ⟨r, rfl⟩ | ⟨name, cause, rfl⟩
  · exact .finished (.inl ⟨next.1, after⟩) (.inl rfl)
  · exact .waits (asked.later m) after next.1
  · exact .finished (.inl ⟨next.1, after⟩) (.inr (.inl ⟨name, cause, rfl⟩))

/-- A wait begins: for the cell, under a timer or not; or it is over at once. -/
theorem Requesting.waits_on {r : Result} (asked : Asked ms t k id c) (typed : Typed ms m.world (.request k id) c)
    (runs : m.Runs t (.wait (.start c timeout)) (.ok r) [.connection k (.requestSettled id)]) :
    Requesting (ms ++ [m]) w' t k := by
  obtain ⟨begun, flow, w₂, strides⟩ := sound.strides_of_runs moves.move runs
  have after := (strides.turn.piles (sound.running strides.runs) strides.lands).1
  have next := strides.lands.next
  have steps : { m.world with current := none }.startWait t c timeout = (flow, w₂) := strides.steps
  unfold startWait at steps
  split at steps
  · cases steps
    exact .heeds (asked.later m) after (.inl rfl) (.of_next next)
  split at steps
  · cases steps
    exact .heeds (asked.later m) after (.inr ⟨_, _, rfl⟩) (.of_next next)
  split at steps
  · next settled =>
    cases steps
    exact .settled (asked.later m) after next.1 ((typed.ensues settled).later m)
  · cases steps
    refine .released (asked.later m) after ?_ (.of_next next)
    exact .of_await sound moves strides (Nat.le_refl _) fun r loose => loose

theorem Requesting.heeds_on (asked : Asked ms t k id c) (typed : Typed ms m.world (.request k id) c)
    (runs : m.Runs t f o [.connection k (.requestSettled id)])
    (waits : f = .pass ∨ ∃ timer n, f = .wait (.guarded timer n))
    (outcome : o = .error .cancelled ∨ m.world.loop.outcome? c = some o) : Requesting (ms ++ [m]) w' t k := by
  obtain ⟨after, next⟩ := sound.runs_on moves.move runs
  have ensues : Ensues ms k id o := outcome.elim .inl typed.ensues
  have comes : ∃ o', ({ m.world with current := none }.resume t f o).1 = .done o' ∧
      (o' = o ∨ o' = .error .timeout) := by
    rcases waits with rfl | ⟨timer, n, rfl⟩
    · exact ⟨o, rfl, .inl rfl⟩
    · have same : { m.world with current := none }.resumeWait t (.guarded timer n) o =
          { m.world with current := none }.endWait t timer n o := by cases o <;> rfl
      show ∃ o', ({ m.world with current := none }.resumeWait t (.guarded timer n) o).1 = .done o' ∧ _
      rw [same]
      exact endWait_cases t timer n o _
  obtain ⟨o', done, same⟩ := comes
  rw [done] at after next
  refine .settled (asked.later m) after next.1 ?_
  rcases same with rfl | rfl
  · exact ensues.later m
  · exact .inr (.inr (.inl rfl))

/-- Once a cell has been given up, what has come of it before still counts. -/
theorem Requesting.released_on (asked : Asked ms t k id c) (typed : Typed ms m.world (.request k id) c)
    (runs : m.Runs t (.wait (.released c)) o [.connection k (.requestSettled id)])
    (calm : o = .error .cancelled ∨ ∃ r, o = .ok r) : Requesting (ms ++ [m]) w' t k := by
  obtain ⟨after, next⟩ := sound.runs_on moves.move runs
  rcases calm with rfl | ⟨r, rfl⟩
  · exact .settled (asked.later m) after next.1 (.inl rfl)
  · have comes : ∃ o', ({ m.world with current := none }.resume t (.wait (.released c)) (.ok r)).1 = .done o' ∧
        (o' = .error .timeout ∨ m.world.loop.outcome? c = some o') := by
      show ∃ o', ({ m.world with current := none }.resumeWait t (.released c) (.ok r)).1 = .done o' ∧ _
      unfold resumeWait
      dsimp only
      split
      · exact ⟨_, rfl, .inl rfl⟩
      · exact ⟨_, rfl, .inl rfl⟩
      · next o' _ settled => exact ⟨o', rfl, .inr settled⟩
    obtain ⟨o', done, which⟩ := comes
    rw [done] at after next
    refine .settled (asked.later m) after next.1 ?_
    rcases which with rfl | settled
    · exact .inr (.inr (.inl rfl))
    · exact (typed.ensues settled).later m

theorem Requesting.settled_on (asked : Asked ms t k id c)
    (runs : m.Runs t (.connection k (.requestSettled id)) o []) (ensues : Ensues ms k id o) :
    Requesting (ms ++ [m]) w' t k := by
  obtain ⟨after, next⟩ := sound.runs_on moves.move runs
  have done : ({ m.world with current := none }.resume t (.connection k (.requestSettled id)) o).1 = .done o := by
    cases o <;> rfl
  rw [done] at after next
  exact .finished (.inl ⟨next.1, after⟩) (.inr (.inr ⟨id, c, asked.later m, ensues.later m⟩))

/-- A request goes on until it has come to something. -/
theorem Requesting.next (h : Requesting ms m.world t k) (goes : m.Goes w')
    (inside : t < m.world.loop.tasks.length)
    (typed : ∀ id c, Asked ms t k id c → Typed ms m.world (.request k id) c) : Requesting (ms ++ [m]) w' t k := by
  cases h with
  | asks unturned =>
    rcases unturned.next sound moves.move inside with later | ⟨stack, o, runs, called⟩
    · exact .asks later
    · exact .turn stack runs called
  | turn stack runs called => exact .turned sound moves ⟨runs, stack⟩ called
  | writes asked draining =>
    rcases draining.next sound moves goes with draining | ⟨stack, o, runs, sent⟩
    · exact .writes (asked.later m) draining
    · exact .written (asked.later m) stack runs sent
  | written asked stack runs sent => exact .written_on sound moves asked ⟨runs, stack⟩ sent
  | waits asked stack runs => exact .waits_on sound moves asked (typed _ _ asked) ⟨runs, stack⟩
  | heeds asked stack waits heeds =>
    rcases heeds.next sound moves (stack ▸ List.cons_ne_nil _ _) with
      ⟨same, heeds⟩ | ⟨f, o, rest, begun, flow, w₂, strides, outcome⟩
    · exact .heeds (asked.later m) (same.trans stack) waits heeds
    · exact .heeds_on sound moves asked (typed _ _ asked) ⟨strides.runs, stack⟩ waits outcome
  | released asked stack loose heeds =>
    rcases heeds.next sound moves (stack ▸ List.cons_ne_nil _ _) with
      ⟨same, heeds⟩ | ⟨f, o, rest, begun, flow, w₂, strides, outcome⟩
    · exact .released (asked.later m) (same.trans stack) (loose.later goes sound moves.moved) heeds
    · exact .released_on sound moves asked (typed _ _ asked) ⟨strides.runs, stack⟩ (loose.calm outcome)
  | settled asked stack runs ensues => exact .settled_on sound moves asked ⟨runs, stack⟩ ensues
  | finished returned ensues =>
    refine .finished (.inr (Returned.later returned moves inside)) ?_
    refine ensues.imp_right fun ensues => ensues.imp_right ?_
    rintro ⟨id, c, asked, ensues⟩
    exact ⟨id, c, asked.later m, ensues.later m⟩

end Step

/-- What is known of a request that has come to its end. -/
theorem Requesting.ended (h : Requesting ms w t k) (sound : w.Sound)
    (settled : w.loop.outcome? (w.loop.taskCell t) = some o) : o = .error .cancelled ∨
      (∃ name cause, o = .error (.closed name cause)) ∨ ∃ id c, Asked ms t k id c ∧ Ensues ms k id o := by
  have none := sound.stack_of_returned (.inr settled)
  cases h with
  | asks unturned => cases unturned.stack.symm.trans none
  | writes _ draining => exact absurd none draining.busy
  | turn stack | written _ stack | waits _ stack | heeds _ stack | released _ stack | settled _ stack =>
    cases stack.symm.trans none
  | finished returned ensues =>
    obtain rfl := sound.returned_unique returned settled
    exact ensues

theorem Path.requesting (path : Path first ms w) (unused : first.Unused) (fair : ∀ m ∈ ms, m.Fair)
    {method : String} {params : Value} (called : Called ms t (.sendRequest k method params timeout)) :
    t < w.loop.tasks.length ∧ Requesting ms w t k := by
  induction path with
  | first =>
    obtain ⟨m, member, -⟩ := called
    cases member
  | @next ms m w' earlier goes ih =>
    have fair' : ∀ m ∈ ms, m.Fair := fun m' member => fair m' (List.mem_append_left _ member)
    obtain ⟨sound, -⟩ := earlier.numbered unused fair'
    have moves := goes.fair_moves sound (fair m (List.mem_append_right _ (List.mem_singleton_self m)))
    rcases called_next.1 called with old | ⟨act, rfl⟩
    · obtain ⟨inside, requesting⟩ := ih fair' old
      refine ⟨Nat.lt_of_lt_of_le inside moves.moved.tasks, requesting.next sound moves goes inside ?_⟩
      intro id c asked
      exact earlier.asked_typed unused fair' asked
    · obtain ⟨-, -, made⟩ := goes.call act
      exact ⟨made ▸ Nat.lt_succ_self _, .asks (sound.unturned_of_call moves.move goes act)⟩

/-- A call that asks for a response comes to the only one that has been read in time for its number, unless
it is cancelled, its time is over, or nothing can be sent or read any more. -/
theorem requests_correlate (path : Path first ms w) (unused : first.Unused) (fair : ∀ m ∈ ms, m.Fair)
    {method : String} {params : Value} (called : Called ms t (.sendRequest k method params timeout))
    (settled : w.loop.outcome? (w.loop.taskCell t) = some o) :
    o = .error .cancelled ∨ (∃ name cause, o = .error (.closed name cause)) ∨
      ∃ id c, Asked ms t k id c ∧
        (o = .error .timeout ∨ (Told ms k id o ∧ ∀ o', Told ms k id o' → o' = o)) := by
  obtain ⟨-, requesting⟩ := path.requesting unused fair called
  rcases requesting.ended (path.numbered unused fair).1 settled with
    cancelled | closed | ⟨id, c, asked, cancelled | closed | late | told⟩
  · exact .inl cancelled
  · exact .inr (.inl closed)
  · exact .inl cancelled
  · exact .inr (.inl closed)
  · exact .inr (.inr ⟨id, c, asked, .inl late⟩)
  · refine .inr (.inr ⟨id, c, asked, .inr ⟨told, fun o' told' => ?_⟩⟩)
    exact path.told_once unused fair told' told

/-- Two requests under way at once, whose responses come the other way around. -/
def crossed : World :=
  let listening := (ofConnection (Connection.make "backend" 0 (.recorder true) .never [])).take
    (.listen 0 (.recorder true))
  let asked := ((listening.take (.call (.sendRequest 0 "first" .null .never))).take
    (.call (.sendRequest 0 "second" .null .never))).settle 40
  let reply (id : Int) (result : String) := Wire.frame (.record [("id", .int id), ("result", .text result)])
  (asked.take (.backend 0 (.write (reply 2 "b" ++ reply 1 "a")))).settle 40

example : crossed.loop.outcome? (crossed.loop.taskCell 1) = some (.ok (.value (.text "a"))) ∧
    crossed.loop.outcome? (crossed.loop.taskCell 2) = some (.ok (.value (.text "b"))) := by decide +kernel

end World
end LanguageClient
