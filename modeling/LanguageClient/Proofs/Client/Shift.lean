import LanguageClient.Proofs.Client.Places

/-!
What a move of a client changes in a connection, and what it changes in a session.
-/

namespace LanguageClient

open Schedule

namespace Core

variable {x y : Core}

theorem connection_setConnection (k k' : ConnectionId) (f : Connection → Connection) (x : Core) :
    (x.setConnection k f).connection k' = x.connection k' ∨
      (k' = k ∧ (x.setConnection k f).connection k' = f (x.connection k')) :=
  World.getD_modify k k' f _ _

theorem session_setSession (s s' : SessionId) (f : Session → Session) (x : Core) :
    (x.setSession s f).session s' = x.session s' ∨
      (s' = s ∧ (x.setSession s f).session s' = f (x.session s')) :=
  World.getD_modify s s' f _ _

/-- What is written reaches a backend alone. -/
theorem sends_rest {b : BackendId} {messages : List Value} (h : Sends b messages x y) :
    y.sessions = x.sessions ∧ y.connections = x.connections := by
  induction h with
  | nil => exact ⟨rfl, rfl⟩
  | cons _ _ ih => exact ih

end Core

theorem Frame.ne_ensure_of_client {f : Frame} (h : f.isClient = true) (root : Option Root) :
    f ≠ .roster (.ensure root) := by
  rintro rfl
  cases h

namespace World

variable {may : Frame → Prop} {R : CellId → Prop} {t u : TaskId} {w w' w₂ : World}
variable {f : Frame} {rest begun : List Frame} {o : Outcome Result} {flow : Flow Frame Result}
variable {k : ConnectionId} {s : SessionId}

/-- What a step at a place makes of a connection. -/
inductive Alters (w : World) (k : ConnectionId) :
    Frame → Outcome Result → List Frame → Flow Frame Result → Connection → Prop
  | same {f : Frame} {o : Outcome Result} {begun : List Frame} {flow : Flow Frame Result} :
    Alters w k f o begun flow (w.core.connection k)
  | requests {method : String} {params : Value} {timeout : Timeout} {r : Result}
    (alive : (w.connection k).closed = false) :
    Alters w k (.connection k (.request method params timeout)) (.ok r) []
      (.call (.connection k .drain)
        (.connection k (.requestWritten (w.connection k).nextId w.loop.cells.length timeout)))
      (Connection.enroll (w.connection k).nextId w.loop.cells.length (w.core.connection k))
  | withdraws {p : Connection.Stage} {id : Nat} {o : Outcome Result}
    (about : (∃ c timeout, p = .requestWritten id c timeout) ∨ p = .requestSettled id) :
    Alters w k (.connection k p) o [] (.done o) (Connection.withdraw id (w.core.connection k))
  | ends {p : Connection.Stage} {o o' : Outcome Result} {begun : List Frame}
    (owner : ∀ s, (w.connection k).owner = .session s → (w.session s).stopping = true ∨
      (w.connection k).closed = false) :
    Alters w k (.connection k p) o begun (.done o') (w.core.connection k).cease
  | opens {s : SessionId} {b : BackendId} {r : Result} {flow : Flow Frame Result}
    (new : k = w.connections.length) (going : (w.session s).stopping = false) :
    Alters w k (.session s (.launched b)) (.ok r) [.connection k (.read .start)] flow
      (Connection.opened b s w.loop.tasks.length)

/-- What a step at a place makes of a session. -/
inductive Shifts (w : World) (s : SessionId) :
    Frame → Outcome Result → Flow Frame Result → Session → Prop
  | same {f : Frame} {o : Outcome Result} {flow : Flow Frame Result} :
    Shifts w s f o flow (w.core.session s)
  | starts {r : Result} {flow : Flow Frame Result} (fresh : (w.session s).state = .unstarted) :
    Shifts w s (.session s .start) (.ok r) flow { w.core.session s with state := .starting }
  | fails {p : Session.Stage} {r : Result} {key reason : String} (start : p.starts = true) :
    Shifts w s (.session s p) (.ok r) (.done (.error (.launch key reason)))
      (w.core.session s).spent
  | shuts {r : Result} :
    Shifts w s (.session s .released) (.ok r) (.done (.ok .nothing)) (w.core.session s).shut
  | arrives {b : BackendId} {r : Result} (stopping : (w.session s).stopping = true) :
    Shifts w s (.session s (.launched b)) (.ok r) (.goto (.session s (.shutdown (.after 0))))
      { w.core.session s with backend := some b }
  | connects {b : BackendId} {r : Result} {flow : Flow Frame Result}
    (going : (w.session s).stopping = false) :
    Shifts w s (.session s (.launched b)) (.ok r) flow
      { w.core.session s with backend := some b, connection := some w.connections.length }
  | abandons {p : Session.Stage} {e : Failure}
    (start : p = .initializeAnswered ∨ p = .initializedSent)
    (going : (w.session s).stopping = false) :
    Shifts w s (.session s p) (.error e)
      (.call (.session s (.shutdown (.after 0))) (.session s (.abandoned e)))
      { w.core.session s with stopping := true }
  | readies {k : ConnectionId} {r : Result} (starting : (w.session s).state = .starting)
    (connected : (w.session s).connection = some k)
    (sound : (w.connection k).closed = true → (w.session s).outbox = []) :
    Shifts w s (.session s .initializedSent) (.ok r)
      (.call (.connection k .drain) (.session s .flushed))
      { w.core.session s with outbox := [], state := .ready }
  | drops {k : ConnectionId} {r : Result} {o' : Outcome Result}
    (connected : (w.session s).connection = some k) (dead : (w.connection k).closed = true) :
    Shifts w s (.session s .initializedSent) (.ok r) (.done o') { w.core.session s with outbox := [] }
  | buffers {method : String} {params : Value} {r : Result}
    (early : (w.session s).state.buffers = true) :
    Shifts w s (.session s (.notify method params)) (.ok r) (.done (.ok .nothing))
      { w.core.session s with outbox := (w.session s).outbox ++ [(method, params)] }
  | joins {timeout : Timeout} {r : Result} {u : TaskId} (going : (w.session s).stopping = false)
    (reaped : (w.session s).reaper = some u) :
    Shifts w s (.session s (.stop timeout)) (.ok r) (.await (w.loop.taskCell u) .pass)
      { w.core.session s with stopping := true }
  | stops {timeout : Timeout} {r : Result} {flow : Flow Frame Result}
    (going : (w.session s).stopping = false) (unreaped : (w.session s).reaper = none)
    (flow_ : (∃ grace, flow = .goto (.session s (.shutdown grace))) ∨
      ∃ k, (w.session s).state = .ready ∧ (w.session s).connection = some k ∧
        (w.connection k).closed = false ∧ flow = .call (.connection k (.request "shutdown" .null timeout))
          (.session s (.shutdownAnswered timeout))) :
    Shifts w s (.session s (.stop timeout)) (.ok r) flow
      { (w.core.session s).moveToStopped with outbox := [], stopping := true }
  | loses {k : ConnectionId} {p : Connection.Stage} {o o' : Outcome Result}
    (owner : (w.connection k).owner = .session s) (alive : (w.connection k).closed = false)
    (unasked : (w.session s).stopping = false) :
    Shifts w s (.connection k p) o (.done o') (lost w.loop.tasks.length (w.core.session s))

theorem Change.alters {x : Core} (h : Change w f o begun flow x) (k : ConnectionId) :
    Alters w k f o begun flow (x.connection k) := by
  have at_ {k' : ConnectionId} {g : Connection → Connection} {y : Core}
      (same : y.connections = (w.core.setConnection k' g).connections)
      (there : k = k' → Alters w k f o begun flow (g (w.core.connection k))) :
      Alters w k f o begun flow (y.connection k) := by
    have known : y.connection k = (w.core.setConnection k' g).connection k := by
      rw [Core.connection, same]
      rfl
    rw [known]
    rcases Core.connection_setConnection k' k g w.core with old | ⟨here, new⟩
    · rw [old]
      exact .same
    · rw [new]
      exact there here
  cases h with
  | requests _ alive =>
    refine at_ rfl ?_
    rintro rfl
    exact .requests alive
  | withdraws about =>
    refine at_ rfl ?_
    rintro rfl
    exact .withdraws about
  | closes owner =>
    refine at_ rfl ?_
    rintro rfl
    exact .ends fun s same => .inl (owner s same)
  | loses owner alive =>
    refine at_ rfl ?_
    rintro rfl
    exact .ends fun _ _ => .inr alive
  | @connects s b r flow going =>
    rw [Core.connection, List.getD_eq_getElem?_getD]
    have count : w.core.connections.length = w.connections.length := List.length_map _
    rcases Nat.lt_trichotomy k w.core.connections.length with old | here | out
    · rw [List.getElem?_append_left old, ← List.getD_eq_getElem?_getD]
      exact .same
    · subst here
      rw [List.getElem?_append_right (Nat.le_refl _), Nat.sub_self]
      rw [show [Frame.connection w.connections.length (.read .start)] =
        [.connection w.core.connections.length (.read .start)] by rw [count]]
      exact .opens count going
    · have beyond : (w.core.connections ++ [Connection.opened b s w.loop.tasks.length])[k]? = none :=
        List.getElem?_eq_none (by rw [List.length_append]; exact out)
      have before : w.core.connections[k]? = none := List.getElem?_eq_none (Nat.le_of_lt out)
      rw [beyond, ← before, ← List.getD_eq_getElem?_getD]
      exact .same
  | readies _ _ _ sends =>
    have known := (Core.sends_rest sends).2
    have same : Core.connection k _ = w.core.connection k :=
      congrArg (fun xs : List Connection => xs.getD k (Connection.core default)) known
    exact same ▸ .same
  | _ => exact .same

/-- What a step makes of the sessions that there are. -/
theorem Change.shifts {x : Core} (h : Change w f o begun flow x)
    (old : ∀ root, f ≠ .roster (.ensure root)) (s : SessionId) :
    Shifts w s f o flow (x.session s) := by
  have at_ {s' : SessionId} {g : Session → Session} {y : Core}
      (same : y.sessions = (w.core.setSession s' g).sessions)
      (there : s = s' → Shifts w s f o flow (g (w.core.session s))) :
      Shifts w s f o flow (y.session s) := by
    have known : y.session s = (w.core.setSession s' g).session s := by
      rw [Core.session, same]
      rfl
    rw [known]
    rcases Core.session_setSession s' s g w.core with old | ⟨here, new⟩
    · rw [old]
      exact .same
    · rw [new]
      exact there here
  have outbox : (w.core.session s).outbox = (w.session s).outbox := by
    have known := congrArg Session.outbox (session_core s w)
    exact known
  cases h with
  | loses owner alive unasked =>
    refine at_ rfl ?_
    rintro rfl
    exact .loses owner alive unasked
  | stumbles fresh =>
    refine at_ rfl ?_
    rintro rfl
    exact .starts fresh
  | launches fresh =>
    refine at_ rfl ?_
    rintro rfl
    exact .starts fresh
  | fails start =>
    refine at_ rfl ?_
    rintro rfl
    exact .fails start
  | shuts =>
    refine at_ rfl ?_
    rintro rfl
    exact .shuts
  | arrives stopping =>
    refine at_ rfl ?_
    rintro rfl
    exact .arrives stopping
  | connects going =>
    refine at_ rfl ?_
    rintro rfl
    exact .connects going
  | abandons start going =>
    refine at_ rfl ?_
    rintro rfl
    exact .abandons start going
  | @readies s' k r x starting connected sound sends =>
    have known := (Core.sends_rest sends).1
    let ready (y : Session) : Session := { y with outbox := [], state := .ready }
    refine @at_ s' ready _ ?_ ?_
    · simp only [Core.setSession, known]
      rw [List.modify_modify_eq]
      rfl
    · rintro rfl
      exact .readies starting connected sound
  | drops connected dead =>
    refine at_ rfl ?_
    rintro rfl
    exact .drops connected dead
  | buffers early =>
    refine at_ rfl ?_
    rintro rfl
    rw [outbox]
    exact .buffers early
  | joins going reaped =>
    refine at_ rfl ?_
    rintro rfl
    exact .joins going reaped
  | stops going unreaped =>
    refine at_ rfl ?_
    rintro rfl
    exact .stops going unreaped (.inl ⟨_, rfl⟩)
  | asks going unreaped ready connected alive =>
    refine at_ rfl ?_
    rintro rfl
    exact .stops going unreaped (.inr ⟨_, ready, connected, alive, rfl⟩)
  | creates => exact absurd rfl (old _)
  | _ => exact .same

theorem Alters.aside {current : Option (TaskId × Outcome Result)} {x : Connection}
    (h : Alters { w with current := current } k f o begun flow x) : Alters w k f o begun flow x := by
  cases h with
  | same => exact .same
  | requests alive => exact .requests alive
  | withdraws about => exact .withdraws about
  | ends owner => exact .ends owner
  | opens new going => exact .opens new going

theorem Shifts.aside {current : Option (TaskId × Outcome Result)} {x : Session}
    (h : Shifts { w with current := current } s f o flow x) : Shifts w s f o flow x := by
  cases h with
  | same => exact .same
  | starts fresh => exact .starts fresh
  | fails start => exact .fails start
  | shuts => exact .shuts
  | arrives stopping => exact .arrives stopping
  | connects going => exact .connects going
  | abandons start going => exact .abandons start going
  | readies starting connected sound => exact .readies starting connected sound
  | drops connected dead => exact .drops connected dead
  | buffers early => exact .buffers early
  | joins going reaped => exact .joins going reaped
  | stops going unreaped flow_ => exact .stops going unreaped flow_
  | loses owner alive unasked => exact .loses owner alive unasked

/-- Unless a task makes a step, or one begins to read, a move leaves connections and sessions as they
are. -/
theorem Move.strides (m : Move may R w w') : (∃ t f o rest begun flow w₂,
      Strides R w w' t f o rest begun flow w₂) ∨
    (((∀ k, ¬ may (.connection k (.read .start))) → w'.core.connections = w.core.connections) ∧
      w'.core.sessions = w.core.sessions) := by
  cases m with
  | rests allowed _ _ core =>
    rcases core with same | ⟨b, same⟩ | ⟨k, begun_, same⟩
    · exact .inr ⟨fun _ => congrArg Core.connections same, congrArg Core.sessions same⟩
    · rw [same]
      exact .inr ⟨fun _ => rfl, rfl⟩
    · rw [same]
      subst begun_
      exact .inr ⟨fun none => absurd (allowed _ (List.mem_singleton_self _)) (none k), rfl⟩
  | ends _ _ core => exact .inr ⟨fun _ => congrArg Core.connections core, congrArg Core.sessions core⟩
  | wakes _ _ _ _ core => exact .inr ⟨fun _ => congrArg Core.connections core, congrArg Core.sessions core⟩
  | goes runs top taken steps turn lands =>
    subst taken
    exact .inl ⟨_, _, _, _, _, _, _, runs, top, steps, turn, lands⟩

theorem Strides.alters (s : Strides R w w' t f o rest begun flow w₂) (k : ConnectionId) :
    Alters w k f o begun flow (w'.core.connection k) := by
  rw [s.lands.aside.core]
  exact (s.turn.change.alters k).aside

theorem Strides.shifts (h : w.Client) (s : Strides R w w' t f o rest begun flow w₂) (x : SessionId) :
    Shifts w x f o flow (w'.core.session x) := by
  have client : f.isClient = true := h.places t f (s.top ▸ List.mem_cons_self)
  rw [s.lands.aside.core]
  exact (s.turn.change.shifts (Frame.ne_ensure_of_client client) x).aside

/-- What a move makes of a connection: what a step does, or at most another task that reads from it. -/
theorem Move.connection_cases (m : Move may R w w') (k : ConnectionId) :
    (∃ reader, w'.core.connection k = { w.core.connection k with reader := reader }) ∨
      ∃ t f o rest begun flow w₂, Strides R w w' t f o rest begun flow w₂ ∧
        Alters w k f o begun flow (w'.core.connection k) := by
  have aside (same : w'.core.connections = w.core.connections) :
      w'.core.connection k = w.core.connection k := by
    rw [Core.connection, same]
    rfl
  cases m with
  | rests _ _ _ core =>
    left
    rcases core with core | ⟨b, core⟩ | ⟨k', -, core⟩
    · exact ⟨_, aside (congrArg Core.connections core)⟩
    · exact ⟨_, aside (core ▸ rfl)⟩
    · rw [core, Core.setReader]
      rcases Core.connection_setConnection k' k _ w.core with same | ⟨-, same⟩
      · exact ⟨_, same⟩
      · exact ⟨_, same⟩
  | ends _ _ core => exact .inl ⟨_, aside (congrArg Core.connections core)⟩
  | wakes _ _ _ _ core => exact .inl ⟨_, aside (congrArg Core.connections core)⟩
  | goes runs top taken steps turn lands =>
    subst taken
    have strides : Strides R w w' _ _ _ _ _ _ _ := ⟨runs, top, steps, turn, lands⟩
    exact .inr ⟨_, _, _, _, _, _, _, strides, strides.alters k⟩

/-- What a move makes of a connection from which nobody begins to read. -/
theorem Move.alters (m : Move may R w w') (first : ∀ k, ¬ may (.connection k (.read .start)))
    (k : ConnectionId) :
    w'.core.connection k = w.core.connection k ∨ ∃ t f o rest begun flow w₂,
      Strides R w w' t f o rest begun flow w₂ ∧ Alters w k f o begun flow (w'.core.connection k) := by
  rcases m.strides with ⟨t, f, o, rest, begun, flow, w₂, s⟩ | ⟨same, -⟩
  · exact .inr ⟨t, f, o, rest, begun, flow, w₂, s, s.alters k⟩
  · left
    rw [Core.connection, same first]
    rfl

/-- What a move of a client makes of a session. -/
theorem Client.shifts (h : w.Client) (m : Move may R w w') (x : SessionId) :
    w'.core.session x = w.core.session x ∨ ∃ t f o rest begun flow w₂,
      Strides R w w' t f o rest begun flow w₂ ∧ Shifts w x f o flow (w'.core.session x) := by
  rcases m.strides with ⟨t, f, o, rest, begun, flow, w₂, s⟩ | ⟨-, same⟩
  · exact .inr ⟨t, f, o, rest, begun, flow, w₂, s, s.shifts h x⟩
  · left
    rw [Core.session, same]
    rfl

end World
end LanguageClient
