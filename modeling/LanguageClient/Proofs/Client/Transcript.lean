import LanguageClient.Proofs.Client.Notes
import LanguageClient.Proofs.Client.Utters

/-!
All that a session that is alone says to its backend, in order: a greeting, the notifications that it
is given, and a farewell. Until it is ready it has said some of the greeting, and after that all of it.
-/

namespace LanguageClient

open Schedule

namespace Connection

/-- What a client opens with. -/
def greeting (id : Nat) (params : Value) : List Value :=
  [request id "initialize" params, notification "initialized" (.map [])]

/-- What a client leaves with. -/
def farewell (id : Nat) : List Value := [request id "shutdown" .null, notification "exit" .null]

end Connection

namespace World

variable {may : Frame → Prop} {R : CellId → Prop} {t u : TaskId} {w w' w₂ : World}
variable {f g : Frame} {rest begun : List Frame} {o : Outcome Result} {flow : Flow Frame Result}
variable {p q : Session.Stage} {ms : List Moment} {m : Moment} {message params : Value}
variable {id last left n : Nat}

/-- A stop of the session has gone on while that was ready. -/
def Halted (ms : List Moment) : Prop :=
  ∃ m ∈ ms, ∃ t limit r rest, Called ms t (.stopSession 0 limit) ∧
    m.Runs t (.session 0 (.stop limit)) (.ok r) rest ∧ (m.world.session 0).state = .ready

theorem Halted.later (h : Halted ms) (m : Moment) : Halted (ms ++ [m]) := by
  obtain ⟨m', member, t, limit, r, rest, called, runs, ready⟩ := h
  exact ⟨m', List.mem_append_left _ member, t, limit, r, rest, called.later m, runs, ready⟩

/-- A session that has not been ready yet: how much it has said of its greeting. -/
structure Greets (id : Nat) (params : Value) (n : Nat) (w : World) : Prop where
  follows : Follows ((Connection.greeting id params).take n) w
  unconnected : (w.session 0).connection = none → n = 0
  answered : ∀ t, .session 0 .initializeAnswered ∈ w.stack t → n = 1
  sent : ∀ t, .session 0 .initializedSent ∈ w.stack t → n = 2
  stays : ∀ t, ¬ w.Leaving t

/-- A session that is ready or has been: it has greeted its backend, tells that what it is given, and
may have said some of its farewell. -/
structure Converses (id : Nat) (params : Value) (last left : Nat) (ms : List Moment) (w : World) :
    Prop where
  follows : Follows (Connection.greeting id params ++ (early ms ++ late ms).map Note.message ++
    (Connection.farewell last).take left) w
  leaving : ∀ t, w.Leaving t → left = 1
  single : ∀ t u, w.Leaving t → w.Leaving u → t = u
  stopped : 0 < left → (w.session 0).state = .stopped ∧ Halted ms
  asking : Asking ms w last
  told : 1 < left → ∃ r, Told ms 0 last (.ok r)
  owing : (w.session 0).state = .stopped → w.owed.length ≤ ((Connection.farewell last).take left).length

/-- A backend is asked to shut down by nothing else than a stop. -/
theorem Asks.stage {limit : Timeout} (h : Asks R w w' u limit)
    (strides : Strides R w w' t (.session 0 p) o rest begun flow w₂) : p = .stop limit := by
  obtain ⟨_, _, _, _, strides'⟩ := h
  cases strides.runs.symm.trans strides'.runs
  cases strides.top.symm.trans strides'.top
  rfl

theorem Asks.owed {limit : Timeout} (h : Asks R w w' u limit) (alone : w.Alone) :
    w'.owed = [Connection.request (w'.connection 0).nextId "shutdown" .null] := by
  obtain ⟨_, _, _, _, strides⟩ := h
  exact strides.owed alone.client alone.sound

/-- Nothing is given to a session that has been stopped, or when no call goes on. -/
theorem given_same (h : (m.world.session 0).state = .stopped ∨ m.note = none) :
    early (ms ++ [m]) ++ late (ms ++ [m]) = early ms ++ late ms := by
  rw [early_next, late_next]
  rcases h with stopped | none
  · rw [stopped]
    simp [SessionState.buffers]
  · rw [none]
    simp

/-- Only a notification that goes on is given. -/
theorem Strides.unnoted (strides : Strides R m.world w' t f o rest begun flow w₂)
    (other : ∀ method params, f ≠ .session 0 (.notify method params)) : m.note = none := by
  cases note : m.note with
  | none => rfl
  | some n =>
    obtain ⟨r, rest', runs, top⟩ := runs_of_note note
    cases strides.runs.symm.trans runs
    cases strides.top.symm.trans top
    exact absurd rfl (other _ _)

section Moves

variable (course : Course ms m.world) (course' : Course (ms ++ [m]) w') (given : Given ms m.world)
variable (move : Move may R m.world w') (first : ∀ g, may g → g.isUse 0 = true)

include course move in
theorem unconnected_of_move (unconnected : (w'.session 0).connection = none) :
    (m.world.session 0).connection = none := by
  cases before : (m.world.session 0).connection with
  | none => rfl
  | some k =>
    cases course.alone.own before
    rw [course.alone.still_connected move before] at unconnected
    cases unconnected

section Greets

variable (h : Greets id params n m.world)

include h course move first in
theorem Greets.rests (talks : Talks [] m.world w') (unowed : w'.owed = []) : Greets id params n w' := by
  have old {q : Session.Stage} {u : TaskId} (hq : .session 0 q ∈ w'.stack u) (hears : q.hears = true) :
      .session 0 q ∈ m.world.stack u := by
    rcases course.hears_cases move first hq hears with ⟨before, -⟩ | ⟨_, _, _, _, _, _, _, -, -, owed⟩
    · exact before
    · rw [unowed] at owed
      cases owed
  refine ⟨?_, fun none => h.unconnected (unconnected_of_move course move none),
    fun t ht => h.answered t (old ht rfl), fun t ht => h.sent t (old ht rfl),
    fun t ⟨limit, ht⟩ => h.stays t ⟨limit, old ht rfl⟩⟩
  have follows := talks.follows h.follows
  rwa [List.append_nil] at follows

include h course course' move first in
/-- A session that is not ready yet utters no more than its greeting. -/
theorem Greets.utters {r : Result} {inner : Frame} (unready : (m.world.session 0).state ≠ .ready)
    (strides : Strides R m.world w' t (.session 0 p) (.ok r) rest begun (.call inner (.session 0 q)) w₂)
    (utters : Utters m.world p message q) (talks : Talks [message] m.world w') :
    ∃ id params n, Greets id params n w' := by
  have top : .session 0 p ∈ m.world.stack t := strides.top ▸ List.mem_cons_self
  have goes : .session 0 q ∈ w'.stack t :=
    strides.stack course.alone.sound ▸ List.mem_append_left _ (List.mem_cons_of_mem _ List.mem_cons_self)
  have hears {q' : Session.Stage} {u : TaskId} (hq : .session 0 q' ∈ w'.stack u) (hears : q'.hears = true) :=
    course.hears_of_utters move first strides utters hq hears
  have connected (stage : q = .initializeAnswered ∨ q = .initializedSent) {x : Nat}
      (none : (w'.session 0).connection = none) : x = 0 := by
    rw [course'.standing.connected t q goes stage] at none
    cases none
  cases utters with
  | opens id' =>
    have none := h.unconnected (course.alone.unconnected ⟨_, top⟩).1
    subst none
    refine ⟨id', _, 1, talks.follows h.follows, connected (.inl rfl), fun _ _ => rfl, fun u hu => ?_,
      fun u ⟨limit, hu⟩ => ?_⟩
    · rcases hears hu rfl with ⟨before, -⟩ | same
      · cases h.sent u before
      · cases same
    · rcases hears hu rfl with ⟨before, -⟩ | same
      · exact h.stays u ⟨limit, before⟩
      · cases same
  | greets =>
    have one := h.answered t top
    subst one
    refine ⟨id, params, 2, talks.follows h.follows, connected (.inr rfl), fun u hu => ?_,
      fun _ _ => rfl, fun u ⟨limit, hu⟩ => ?_⟩
    · rcases hears hu rfl with ⟨before, other⟩ | same
      · exact absurd (course.standing.single u t ⟨_, before, rfl⟩ ⟨_, top, rfl⟩) other
      · cases same
    · rcases hears hu rfl with ⟨before, -⟩ | same
      · exact h.stays u ⟨limit, before⟩
      · cases same
  | tells ready => exact absurd ready unready
  | asks _ ready => exact absurd ready unready
  | dismisses => exact absurd ⟨_, top⟩ (h.stays t)

include h course given first move in
/-- A session that becomes ready has greeted its backend, and tells it what it has kept. -/
theorem Greets.readies (unready : ¬ Readied ms m.world)
    (strides : Strides R m.world w' t (.session 0 .initializedSent) o rest begun flow w₂)
    (ready : (w'.session 0).state = .ready) (unowed : w'.owed = [])
    (talks : Talks ((m.world.session 0).outbox.map fun n => Connection.notification n.1 n.2) m.world w') :
    Converses id params 0 0 (ms ++ [m]) w' := by
  have alone := course.alone
  have top : .session 0 .initializedSent ∈ m.world.stack t := strides.top ▸ List.mem_cons_self
  have two := h.sent t top
  subst two
  have stays (u : TaskId) : ¬ w'.Leaving u := fun ⟨limit, hu⟩ => by
    rcases course.hears_cases move first hu rfl with ⟨before, -⟩ | ⟨_, _, _, _, _, _, _, -, -, owed⟩
    · exact h.stays u ⟨limit, before⟩
    · rw [unowed] at owed
      cases owed
  have starting : (m.world.session 0).state = .starting := by
    rcases alone.client.ready_cases move ready with
      ready | ⟨_, _, _, _, _, _, -, starting, -⟩
    · exact absurd (.inr ready) unready
    · exact starting
  have kept := given.outbox (by rw [starting]; rfl) (.inr ⟨t, _, top, rfl⟩)
  refine ⟨?_, fun u leaving => absurd leaving (stays u), fun u _ leaving => absurd leaving (stays u),
    fun some => absurd some (Nat.lt_irrefl 0), asking_of_none stays 0,
    fun some => absurd some (Nat.not_lt_zero 1), fun stopped => ?_⟩
  · have follows := talks.follows h.follows
    rw [given_same (.inr (strides.unnoted fun _ _ => by simp)), late_eq_nil unready]
    rw [kept, List.map_map] at follows
    have same : (early ms).map ((fun n => Connection.notification n.1 n.2) ∘ Note.kept) =
        (early ms).map Note.message := rfl
    rw [same] at follows
    simpa [Connection.greeting] using follows
  · rw [ready] at stopped
    cases stopped

end Greets

section Converses

variable (h : Converses id params last left ms m.world) (readied : Readied ms m.world)

include h course move in
theorem Converses.stopped_move (some : 0 < left) :
    (w'.session 0).state = .stopped ∧ Halted (ms ++ [m]) := by
  obtain ⟨stopped, halted⟩ := h.stopped some
  exact ⟨course.alone.client.stopped move stopped, halted.later m⟩

include h in
theorem Converses.told_move (some : 1 < left) : ∃ r, Told (ms ++ [m]) 0 last (.ok r) := by
  obtain ⟨r, told⟩ := h.told some
  exact ⟨r, told.later m⟩

include h given course move first readied in
theorem Converses.rests (talks : Talks [] m.world w') (unowed : w'.owed = []) :
    Converses id params last left (ms ++ [m]) w' := by
  have alone := course.alone
  have old {u : TaskId} (leaving : w'.Leaving u) : m.world.Leaving u := by
    obtain ⟨limit, hq⟩ := leaving
    rcases course.hears_cases move first hq rfl with ⟨before, -⟩ | ⟨_, _, _, _, _, _, _, -, -, owed⟩
    · exact ⟨limit, before⟩
    · rw [unowed] at owed
      cases owed
  have same : early (ms ++ [m]) ++ late (ms ++ [m]) = early ms ++ late ms := by
    rcases given.gone readied with ready | stopped
    · refine given_same (.inr ?_)
      cases note : m.note with
      | none => rfl
      | some n =>
        obtain ⟨r, rest, runs⟩ := runs_of_note note
        obtain ⟨begun, flow, w₂, strides⟩ := alone.sound.strides_of_runs move runs
        rcases (strides.conducts alone.client).takes_note with ⟨early, -⟩ | ⟨-, none⟩ | ⟨k, -, -, rfl⟩
        · rw [ready] at early
          cases early
        · rw [(course.standing.ready ready).2] at none
          cases none ready
        · have owed := strides.owed alone.client alone.sound
          rw [unowed] at owed
          cases owed
    · exact given_same (.inl stopped)
  refine ⟨?_, fun u leaving => h.leaving u (old leaving), fun t u ht hu => h.single t u (old ht) (old hu),
    h.stopped_move course move, ?_, h.told_move, fun _ => by simp [unowed]⟩
  · have follows := talks.follows h.follows
    rwa [List.append_nil, ← same] at follows
  · refine h.asking.keeps_number course move first fun u limit asks => ?_
    rw [asks.owed alone] at unowed
    cases unowed

include h in
theorem Converses.unleft (ready : (m.world.session 0).state = .ready) : left = 0 := by
  rcases Nat.eq_zero_or_pos left with none | some
  · exact none
  · rw [(h.stopped some).1] at ready
    cases ready

include h course move first in
/-- What a session that is ready is given it tells its backend. -/
theorem Converses.tells {method : String} {value : Value} {r : Result} {inner : Frame}
    (ready : (m.world.session 0).state = .ready)
    (strides : Strides R m.world w' t (.session 0 (.notify method value)) (.ok r) rest begun
      (.call inner (.session 0 (.notified method))) w₂)
    (talks : Talks [Connection.notification method value] m.world w') :
    Converses id params last left (ms ++ [m]) w' := by
  have none := h.unleft ready
  subst none
  have stays (u : TaskId) : ¬ w'.Leaving u := fun ⟨limit, hu⟩ => by
    rcases course.hears_of_utters move first strides (.tells ready) hu rfl with ⟨before, -⟩ | same
    · cases h.leaving u ⟨limit, before⟩
    · cases same
  have note : m.note = some ⟨t, method, value⟩ := note_of_runs ⟨strides.runs, strides.top⟩
  refine ⟨?_, fun u leaving => absurd leaving (stays u), fun u _ leaving => absurd leaving (stays u),
    fun some => absurd some (Nat.lt_irrefl 0), ?_, fun some => absurd some (Nat.not_lt_zero 1),
    fun stopped => ?_⟩
  · have follows := talks.follows h.follows
    rw [early_next, late_next, note, ready]
    simpa [SessionState.buffers, Note.message] using follows
  · exact h.asking.keeps_number course move first fun u limit asks => by cases asks.stage strides
  · have core : w₂.core = m.world.core := by
      cases strides.conducts course.alone.client with
      | tells _ _ core => exact core
      | takes _ _ flow_ => rcases flow_ with same | same | ⟨c, -, same⟩ <;> cases same
      | watches _ _ stages => rcases stages with ⟨same, -⟩ | ⟨same, -⟩ | ⟨same, -⟩ <;> cases same
    rw [← state_core, strides.lands.aside.core, core, state_core, ready] at stopped
    cases stopped

include h course course' move first in
/-- A session that is ready and is to be stopped asks its backend to shut down. -/
theorem Converses.asks {limit : Timeout} {r : Result} {inner : Frame} {number : Nat}
    (ready : (m.world.session 0).state = .ready)
    (strides : Strides R m.world w' t (.session 0 (.stop limit)) (.ok r) rest begun
      (.call inner (.session 0 (.shutdownAnswered limit))) w₂)
    (owed : w'.owed = [Connection.request number "shutdown" .null])
    (talks : Talks [Connection.request number "shutdown" .null] m.world w') :
    Converses id params (w'.connection 0).nextId 1 (ms ++ [m]) w' := by
  have alone := course.alone
  have none := h.unleft ready
  subst none
  have stays (u : TaskId) : ¬ m.world.Leaving u := fun leaving => by cases h.leaving u leaving
  have asks : Asks R m.world w' t limit :=
    alone.asks_of_leads strides (List.mem_cons_of_mem _ List.mem_cons_self)
  have same := owed.symm.trans (asks.owed alone)
  rw [same] at talks
  have top : .session 0 (.stop limit) ∈ m.world.stack t := strides.top ▸ List.mem_cons_self
  have only (u : TaskId) (leaving : w'.Leaving u) : u = t :=
    (alone.only_asks move first asks stays leaving).1
  refine ⟨?_, fun _ _ => rfl, fun u v hu hv => (only u hu).trans (only v hv).symm, fun _ => ?_,
    alone.asking_of_asks move first course'.alone asks stays, fun some => absurd some (Nat.lt_irrefl 1),
    fun _ => ?_⟩
  · have follows := talks.follows h.follows
    rw [given_same (.inr (strides.unnoted fun method value => by simp))]
    simpa [Connection.farewell] using follows
  · have conduct := strides.conducts alone.client
    refine ⟨?_, m, List.mem_append_right _ (List.mem_singleton_self m), t, limit, r, rest, ?_,
      ⟨strides.runs, strides.top⟩, ready⟩
    · rw [← state_core, strides.lands.aside.core]
      cases conduct with
      | asks _ _ _ core =>
        rw [core, Core.session_setSession_self alone.inside]
        rfl
      | takes _ _ flow_ => rcases flow_ with same | same | ⟨c, -, same⟩ <;> cases same
      | watches _ _ stages => rcases stages with ⟨same, -⟩ | ⟨same, -⟩ | ⟨same, -⟩ <;> cases same
    · obtain ⟨-, c, called, frame⟩ := course.calls.uses t _ top (by simp [Frame.isUse])
      cases c <;> cases frame
      exact called.later m
  · rw [asks.owed alone]
    exact Nat.le_refl 1

include h course move first in
/-- A backend that has answered the request to shut down is dismissed. -/
theorem Converses.dismisses {limit : Timeout} {r : Result} {inner : Frame}
    (strides : Strides R m.world w' t (.session 0 (.shutdownAnswered limit)) (.ok r) rest begun
      (.call inner (.session 0 (.exitSent limit))) w₂)
    (owed : w'.owed = [Connection.notification "exit" .null])
    (talks : Talks [Connection.notification "exit" .null] m.world w') :
    Converses id params last 2 (ms ++ [m]) w' := by
  have alone := course.alone
  have top : m.world.Leaving t := ⟨limit, strides.top ▸ List.mem_cons_self⟩
  have one := h.leaving t top
  subst one
  have stays (u : TaskId) : ¬ w'.Leaving u := fun ⟨limit', hu⟩ => by
    rcases course.hears_of_utters move first strides .dismisses hu rfl with ⟨before, other⟩ | same
    · exact other (h.single u t ⟨limit', before⟩ top)
    · cases same
  refine ⟨?_, fun u leaving => absurd leaving (stays u), fun u _ leaving => absurd leaving (stays u),
    fun _ => h.stopped_move course move Nat.one_pos, ?_, fun _ => ?_, fun _ => ?_⟩
  · have follows := talks.follows h.follows
    rw [given_same (.inl (h.stopped Nat.one_pos).1)]
    simpa [Connection.farewell] using follows
  · exact h.asking.keeps_number course move first fun u limit asks => by cases asks.stage strides
  · exact ⟨r, (h.asking.reply t r limit rest strides.runs strides.top).later m⟩
  · rw [owed]
    exact Nat.le_succ 1

end Converses

/-- What a session has said to its backend, whether it has been ready or not. -/
inductive Heard (ms : List Moment) (w : World) : Prop
  | greets {id : Nat} {params : Value} {n : Nat} (unready : ¬ Readied ms w) (h : Greets id params n w)
  | converses {id : Nat} {params : Value} {last left : Nat} (readied : Readied ms w)
    (h : Converses id params last left ms w)

include course course' given move first in
theorem Heard.goes (h : Heard ms m.world) (housed : m.world.Housed) : Heard (ms ++ [m]) w' := by
  cases h with
  | @greets id params n unready h =>
    have state : (m.world.session 0).state ≠ .ready := fun ready => unready (.inr ready)
    have unready' (late : (w'.session 0).state = .ready → (m.world.session 0).state = .ready) :
        ¬ Readied (ms ++ [m]) w' := fun readied => by
      rcases readied_next.1 readied with before | ready
      · exact unready before
      · exact state (late ready)
    cases course.speech housed move first with
    | rests late talks unowed => exact .greets (unready' late) (h.rests course move first talks unowed)
    | readies strides ready unowed talks =>
      exact .converses (readied_next.2 (.inr ready))
        (h.readies course given move first unready strides ready unowed talks)
    | utters strides late utters _ talks =>
      obtain ⟨_, _, _, h'⟩ := h.utters course course' move first state strides utters talks
      exact .greets (unready' late) h'
  | @converses id params last left readied h =>
    have readied' : Readied (ms ++ [m]) w' := readied_next.2 (.inl readied)
    cases course.speech housed move first with
    | rests _ talks unowed =>
      exact .converses readied' (h.rests course given move first readied talks unowed)
    | readies strides =>
      exact absurd ⟨_, strides.top ▸ List.mem_cons_self, rfl⟩ (given.settled readied _)
    | utters strides _ utters owed talks =>
      have opening (opens : _) := given.settled readied _ ⟨_, strides.top ▸ List.mem_cons_self, opens⟩
      cases utters with
      | opens | greets => exact (opening rfl).elim
      | tells ready => exact .converses readied' (h.tells course move first ready strides talks)
      | asks _ ready =>
        exact .converses readied' (h.asks course course' move first ready strides owed talks)
      | dismisses => exact .converses readied' (h.dismisses course move first strides owed talks)

end Moves

end World
end LanguageClient
