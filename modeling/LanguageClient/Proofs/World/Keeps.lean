import LanguageClient.Proofs.Schedule.Spares
import LanguageClient.Proofs.World.Core

/-!
What every operation on a world keeps. A cell that somebody waits for is settled well only by those
that hold it: the cell of an exit once the process has ended, the cell of a request by its response.
Operations do not pass on cells or tasks that they have not made.
-/

namespace LanguageClient

open Schedule

/-- What it means when a cell is settled. -/
inductive Role where
  | loose
  | exit (b : BackendId)
  | request (k : ConnectionId) (id : Nat)

/-- What the task at work may do: settle requests, make cells for others to hold, and set and take
back timers that cancel tasks. -/
structure Licence where
  settles : ConnectionId → Nat → Outcome Result → Prop
  gives : Role → Prop
  guards : Prop

/-- Of those who are no task, but may be a timer. -/
def Licence.idle (guards : Prop) : Licence := ⟨fun _ _ _ => False, fun _ => False, guards⟩

/-- Of those who are neither task nor timer. -/
def Licence.none : Licence := .idle False

/-- Where tasks begin that may be given up. -/
def Frame.isErrand : Frame → Bool
  | .connection _ (.read _) | .connection _ (.answer ..) => true
  | .session _ (.consume (.relay _)) | .workspace (.reportAll _) => true
  | _ => false

/-- Not the failure of a launch. -/
def Calm (o : Outcome Result) : Prop := ∀ root reason, o ≠ .error (.launch root reason)

theorem calm_ok (r : Result) : Calm (.ok r) := fun _ _ h => nomatch h

theorem calm_cancelled : Calm (.error .cancelled) := fun _ _ h => nomatch h

namespace World

/-- The cells that backends, sessions and connections will settle. -/
inductive DataHeld (w : World) : Role → CellId → Prop
  | reader {b : BackendId} {c : CellId} (h : c ∈ (w.backend b).readers) : DataHeld w .loose c
  | writer {b : BackendId} {c : CellId} (h : c ∈ (w.backend b).writers) : DataHeld w .loose c
  | waiter {b : BackendId} {c : CellId} (h : c ∈ (w.backend b).waiters) : DataHeld w (.exit b) c
  | taker {s : SessionId} {c : CellId} (h : c ∈ (w.session s).takers) : DataHeld w .loose c
  | pending {k : ConnectionId} {id : Nat} {c : CellId} (h : (id, c) ∈ (w.connection k).pending) :
    DataHeld w (.request k id) c

/-- Who will settle a cell that is not the cell of a task. -/
inductive Held (w : World) : Role → CellId → Prop
  | data {r : Role} {c : CellId} (h : w.DataHeld r c) : Held w r c
  | loop {c : CellId} (h : w.loop.Holds c) : Held w .loose c

/-- The tasks that somebody can wait for, and whether they may be given up as well. -/
inductive Refers (w : World) : (drops : Bool) → TaskId → Prop
  | reader {k : ConnectionId} {t : TaskId} (h : (w.connection k).reader = some t) : Refers w true t
  | answer {k : ConnectionId} {t : TaskId} (h : t ∈ (w.connection k).answers) : Refers w true t
  | reaper {s : SessionId} {t : TaskId} (h : (w.session s).reaper = some t) : Refers w false t
  | relay {r : RelayId} {t : TaskId} (h : (w.relay r).task = some t) : Refers w true t
  | report {t : TaskId} (h : t ∈ w.workspace.reports) : Refers w true t

theorem DataHeld.aside {l : Loop Frame Result Notice} {current : Option (TaskId × Outcome Result)}
    {w : World} {r : Role} {c : CellId}
    (h : { w with loop := l, current := current }.DataHeld r c) : w.DataHeld r c := by
  cases h with
  | reader h => exact .reader h
  | writer h => exact .writer h
  | waiter h => exact .waiter h
  | taker h => exact .taker h
  | pending h => exact .pending h

theorem Refers.aside {l : Loop Frame Result Notice} {current : Option (TaskId × Outcome Result)}
    {w : World} {drops : Bool} {t : TaskId}
    (h : { w with loop := l, current := current }.Refers drops t) : w.Refers drops t := by
  cases h with
  | reader h => exact .reader h
  | answer h => exact .answer h
  | reaper h => exact .reaper h
  | relay h => exact .relay h
  | report h => exact .report h

/-- What is known when a cell of a role is settled by who holds it. -/
def Earned (A : Licence) (w : World) (r : Role) (o : Outcome Result) : Prop :=
  match r with
  | .exit b => o = .ok .nothing ∧ w.Exited b
  | .request k id => A.settles k id o
  | .loose => o = .ok .nothing

/-- A cell that has come about, and is no task's. -/
structure Fresh (w w' : World) (c : CellId) : Prop where
  new : w.loop.cells.length ≤ c
  inside : c < w'.loop.cells.length
  kind : ∀ t, w'.loop.kind? c ≠ some (.task t)

/-- Cells are settled by those who hold them or have made them, or cancelled; none of these settles
the cell of a task. -/
inductive Settled (A : Licence) (w w' : World) (c : CellId) (o : Outcome Result) : Prop
  | holder (r : Role) (held : w.Held r c) (earned : w'.Earned A r o)
  | cancelled (same : o = .error .cancelled) (kind : ∀ t, w'.loop.kind? c ≠ some (.task t))
  | fresh (r : Role) (fresh : Fresh w w' c) (gives : A.gives r) (earned : w'.Earned A r o)

/-- A task that has begun, where tasks may be given up if this one may. -/
def Begun (begun : List Frame) (w : World) (drops : Bool) (t : TaskId) : Prop :=
  ∃ i f, begun[i]? = some f ∧ t = w.loop.tasks.length + i ∧ (drops = true → f.isErrand = true)

/-- What an operation keeps that begins some tasks and cancels cells in `R` only. -/
structure Keeps (A : Licence) (R : CellId → Prop) (begun : List Frame)
    (w w' : World) : Prop where
  ops : Loop.Ops Calm R A.guards begun w.loop w'.loop
  current : w'.current = w.current
  held : ∀ r c, w'.Held r c → w.Held r c ∨ (Fresh w w' c ∧ A.gives r)
  settled : ∀ c o, w.loop.outcome? c = none → w'.loop.outcome? c = some o → Settled A w w' c o
  exits : ∀ b, w.Exited b → w'.Exited b
  refers : ∀ drops t, w'.Refers drops t → w.Refers drops t ∨ Begun begun w drops t

theorem Earned.mono {A : Licence} {w w' : World} (exits : ∀ b, w.Exited b → w'.Exited b)
    {r : Role} {o : Outcome Result} (h : w.Earned A r o) : w'.Earned A r o := by
  cases r with
  | exit b => exact ⟨h.1, exits b h.2⟩
  | request => exact h
  | loose => exact h

theorem Fresh.ops {w w' w'' : World} {c : CellId} {may : Outcome Result → Prop} {R : CellId → Prop}
    {guards : Prop} {begun : List Frame} (h : Fresh w w' c)
    (steps : Loop.Ops may R guards begun w'.loop w''.loop) :
    Fresh w w'' c where
  new := h.new
  inside := Nat.lt_of_lt_of_le h.inside steps.length_cells
  kind t := steps.kind? h.inside ▸ h.kind t

theorem lt_of_outcome? {l : Loop Frame Result Notice} {c : CellId} {o : Outcome Result}
    (h : l.outcome? c = some o) : c < l.cells.length := by
  obtain ⟨cell, found, -⟩ := Option.bind_eq_some_iff.1 h
  exact (List.getElem?_eq_some_iff.1 found).1

theorem Settled.ops {A : Licence} {w w' w'' : World} {may : Outcome Result → Prop}
    {R : CellId → Prop} {guards : Prop} {begun : List Frame} {c : CellId} {o : Outcome Result}
    (h : Settled A w w' c o) (inside : c < w'.loop.cells.length)
    (steps : Loop.Ops may R guards begun w'.loop w''.loop) (exits : ∀ b, w'.Exited b → w''.Exited b) :
    Settled A w w'' c o := by
  cases h with
  | holder r held earned => exact .holder r held (earned.mono exits)
  | cancelled same kind => exact .cancelled same fun t => steps.kind? inside ▸ kind t
  | fresh r fresh gives earned => exact .fresh r (fresh.ops steps) gives (earned.mono exits)

theorem length_tasks_of_ops {may : Outcome Result → Prop} {R : CellId → Prop} {guards : Prop}
    {begun : List Frame} {l l' : Loop Frame Result Notice}
    (h : Loop.Ops may R guards begun l l') : l'.tasks.length = l.tasks.length + begun.length := by
  have piles := congrArg List.length h.piles
  simpa [Loop.piles] using piles

namespace Begun

variable {begun more : List Frame} {w w' : World} {drops : Bool} {t : TaskId}

theorem le (h : Begun begun w drops t) : w.loop.tasks.length ≤ t := by
  obtain ⟨i, f, -, rfl, -⟩ := h
  exact Nat.le_add_right _ _

theorem inside (h : Begun begun w drops t) {may : Outcome Result → Prop} {R : CellId → Prop}
    {guards : Prop} (steps : Loop.Ops may R guards begun w.loop w'.loop) :
    t < w'.loop.tasks.length := by
  obtain ⟨i, f, found, rfl, -⟩ := h
  rw [length_tasks_of_ops steps]
  exact Nat.add_lt_add_left (List.getElem?_eq_some_iff.1 found).1 _

theorem append (h : Begun begun w drops t) (more : List Frame) :
    Begun (begun ++ more) w drops t := by
  obtain ⟨i, f, found, same, errand⟩ := h
  refine ⟨i, f, ?_, same, errand⟩
  rw [List.getElem?_append_left (List.getElem?_eq_some_iff.1 found).1]
  exact found

theorem later (h : Begun more w' drops t)
    (grown : w'.loop.tasks.length = w.loop.tasks.length + begun.length) :
    Begun (begun ++ more) w drops t := by
  obtain ⟨i, f, found, rfl, errand⟩ := h
  refine ⟨begun.length + i, f, ?_, ?_, errand⟩
  · rw [List.getElem?_append_right (Nat.le_add_right _ _), Nat.add_sub_cancel_left]
    exact found
  · rw [grown, Nat.add_assoc]

/-- The last task that has begun. -/
theorem last {f : Frame} (errand : drops = true → f.isErrand = true)
    (h : t = w.loop.tasks.length + begun.length) : Begun (begun ++ [f]) w drops t :=
  ⟨begun.length, f, List.getElem?_concat_length, h, errand⟩

/-- The only task that has begun. -/
theorem only {f : Frame} (errand : drops = true → f.isErrand = true)
    (h : t = w.loop.tasks.length) : Begun [f] w drops t := ⟨0, f, rfl, h, errand⟩

end Begun

namespace Keeps

variable {A : Licence} {R : CellId → Prop} {begun more : List Frame}
variable {w w' w'' : World}

theorem refl (w : World) : Keeps A R [] w w where
  ops := .refl _
  current := rfl
  held _ _ h := .inl h
  settled _ _ before after := by
    rw [before] at after
    cases after
  exits _ h := h
  refers _ _ h := .inl h

theorem trans (h : Keeps A R begun w w') (h' : Keeps A R more w' w'') :
    Keeps A R (begun ++ more) w w'' where
  ops := h.ops.trans h'.ops
  current := h'.current.trans h.current
  held r c hc := by
    rcases h'.held r c hc with old | ⟨⟨new, inside, kind⟩, gives⟩
    · exact (h.held r c old).imp_right fun ⟨fresh, gives⟩ => ⟨fresh.ops h'.ops, gives⟩
    · exact .inr ⟨⟨Nat.le_trans h.ops.length_cells new, inside, kind⟩, gives⟩
  settled c o before after := by
    rcases h.ops.settles c with same | ⟨-, o', settled, -⟩
    · cases h'.settled c o (same.trans before) after with
      | holder r held earned =>
        rcases h.held r c held with old | ⟨fresh, gives⟩
        · exact .holder r old earned
        · exact .fresh r (fresh.ops h'.ops) gives earned
      | cancelled same kind => exact .cancelled same kind
      | fresh r fresh gives earned =>
        exact .fresh r ⟨Nat.le_trans h.ops.length_cells fresh.new, fresh.inside, fresh.kind⟩ gives
          earned
    · have same := h'.ops.settles.outcome settled
      rw [after] at same
      cases same
      exact (h.settled c o before settled).ops (lt_of_outcome? settled) h'.ops h'.exits
  exits b hb := h'.exits b (h.exits b hb)
  refers drops t ht := by
    rcases h'.refers drops t ht with old | new
    · exact (h.refers drops t old).imp_right fun begun => begun.append more
    · exact .inr (new.later (length_tasks_of_ops h.ops))

/-- A change of data that adds no cell but new ones, and no task but new ones. -/
theorem data (h : Keeps A R begun w w') (loop : w''.loop = w'.loop)
    (current : w''.current = w'.current)
    (held : ∀ r c, w''.DataHeld r c →
      w'.DataHeld r c ∨ (Fresh w w' c ∧ A.gives r))
    (exits : ∀ b, w'.Exited b → w''.Exited b)
    (refers : ∀ drops t, w''.Refers drops t → w'.Refers drops t ∨ Begun begun w drops t) :
    Keeps A R begun w w'' where
  ops := loop ▸ h.ops
  current := current.trans h.current
  held r c hc := by
    have same (fresh : Fresh w w' c) : Fresh w w'' c :=
      ⟨fresh.new, loop ▸ fresh.inside, loop ▸ fresh.kind⟩
    cases hc with
    | data hd =>
      rcases held r c hd with old | new
      · exact (h.held r c (.data old)).imp_right fun ⟨fresh, gives⟩ => ⟨same fresh, gives⟩
      · exact .inr ⟨same new.1, new.2⟩
    | loop hl =>
      exact (h.held _ c (.loop (loop ▸ hl))).imp_right fun ⟨fresh, gives⟩ => ⟨same fresh, gives⟩
  settled c o before after := by
    rw [loop] at after
    have steps : Loop.Ops Calm R A.guards [] w'.loop w''.loop := loop ▸ .refl _
    exact (h.settled c o before after).ops (lt_of_outcome? after) steps exits
  exits b hb := exits b (h.exits b hb)
  refers drops t ht := by
    rcases refers drops t ht with old | new
    · exact h.refers drops t old
    · exact .inr new

/-- A change of the loop that adds no hold but on new cells. -/
theorem onLoop (h : Keeps A R begun w w')
    {f : Loop Frame Result Notice → Loop Frame Result Notice}
    (ops : Loop.Ops Calm R A.guards more w'.loop (f w'.loop))
    (holds : ∀ c, (f w'.loop).Holds c →
      w'.loop.Holds c ∨ (Fresh w (w'.onLoop f) c ∧ A.gives .loose))
    (settled : ∀ c o, w'.loop.outcome? c = none → (f w'.loop).outcome? c = some o →
      Settled A w (w'.onLoop f) c o) :
    Keeps A R (begun ++ more) w (w'.onLoop f) where
  ops := h.ops.trans ops
  current := h.current
  held r c hc := by
    have kept {r : Role} {c : CellId} (hc : w'.Held r c) :
        w.Held r c ∨ (Fresh w (w'.onLoop f) c ∧ A.gives r) :=
      (h.held r c hc).imp_right fun ⟨fresh, gives⟩ => ⟨fresh.ops ops, gives⟩
    cases hc with
    | data hd => exact kept (.data hd.aside)
    | loop hl =>
      rcases holds c hl with old | new
      · exact kept (.loop old)
      · exact .inr new
  settled c o before after := by
    rcases h.ops.settles c with same | ⟨-, o', known, -⟩
    · exact settled c o (same.trans before) after
    · have same := ops.settles.outcome known
      have after' : (f w'.loop).outcome? c = some o := after
      rw [after'] at same
      cases same
      exact (h.settled c o before known).ops (lt_of_outcome? known) ops fun _ hb => hb
  exits b hb := h.exits b hb
  refers drops t ht := (h.refers drops t ht.aside).imp_right fun new => new.append more

/-- Cells that nothing in the data refers to any more than before. -/
theorem setBackend (h : Keeps A R begun w w') (b : BackendId) {f : Backend → Backend}
    (readers : ∀ x c, c ∈ (f x).readers →
      c ∈ x.readers ∨ (Fresh w w' c ∧ A.gives .loose))
    (writers : ∀ x c, c ∈ (f x).writers →
      c ∈ x.writers ∨ (Fresh w w' c ∧ A.gives .loose))
    (waiters : ∀ x c, c ∈ (f x).waiters →
      c ∈ x.waiters ∨ (Fresh w w' c ∧ A.gives (.exit b)))
    (exits : ∀ x, x.exitCode.isSome = true → (f x).exitCode.isSome = true) :
    Keeps A R begun w (w'.setBackend b f) := by
  refine h.data rfl rfl ?_ ?_ ?_
  · intro r c hc
    cases hc with
    | @reader b' _ hc =>
      rcases backend_setBackend b b' f w' with same | ⟨-, same⟩
      · exact .inl (.reader (same ▸ hc))
      · exact (readers _ c (same ▸ hc)).imp_left .reader
    | @writer b' _ hc =>
      rcases backend_setBackend b b' f w' with same | ⟨-, same⟩
      · exact .inl (.writer (same ▸ hc))
      · exact (writers _ c (same ▸ hc)).imp_left .writer
    | @waiter b' _ hc =>
      rcases backend_setBackend b b' f w' with same | ⟨rfl, same⟩
      · exact .inl (.waiter (same ▸ hc))
      · exact (waiters _ c (same ▸ hc)).imp_left .waiter
    | taker hc => exact .inl (.taker hc)
    | pending hc => exact .inl (.pending hc)
  · intro b' hb
    unfold Exited at hb ⊢
    rcases backend_setBackend b b' f w' with same | ⟨-, same⟩
    · rwa [same]
    · rw [same]
      exact exits _ hb
  · intro drops t ht
    cases ht with
    | reader ht => exact .inl (.reader ht)
    | answer ht => exact .inl (.answer ht)
    | reaper ht => exact .inl (.reaper ht)
    | relay ht => exact .inl (.relay ht)
    | report ht => exact .inl (.report ht)

theorem setSession (h : Keeps A R begun w w') (s : SessionId) {f : Session → Session}
    (takers : ∀ x c, c ∈ (f x).takers →
      c ∈ x.takers ∨ (Fresh w w' c ∧ A.gives .loose))
    (reaper : ∀ x t, (f x).reaper = some t → x.reaper = some t ∨ Begun begun w false t) :
    Keeps A R begun w (w'.setSession s f) := by
  refine h.data rfl rfl ?_ (fun _ hb => hb) ?_
  · intro r c hc
    cases hc with
    | reader hc => exact .inl (.reader hc)
    | writer hc => exact .inl (.writer hc)
    | waiter hc => exact .inl (.waiter hc)
    | @taker s' _ hc =>
      rcases session_setSession s s' f w' with same | ⟨-, same⟩
      · exact .inl (.taker (same ▸ hc))
      · exact (takers _ c (same ▸ hc)).imp_left .taker
    | pending hc => exact .inl (.pending hc)
  · intro drops t ht
    cases ht with
    | reader ht => exact .inl (.reader ht)
    | answer ht => exact .inl (.answer ht)
    | @reaper s' _ ht =>
      rcases session_setSession s s' f w' with same | ⟨-, same⟩
      · exact .inl (.reaper (same ▸ ht))
      · exact (reaper _ t (same ▸ ht)).imp_left .reaper
    | relay ht => exact .inl (.relay ht)
    | report ht => exact .inl (.report ht)

theorem setConnection (h : Keeps A R begun w w') (k : ConnectionId)
    {f : Connection → Connection}
    (pending : ∀ x p, p ∈ (f x).pending →
      p ∈ x.pending ∨ (Fresh w w' p.2 ∧ A.gives (.request k p.1)))
    (reader : ∀ x t, (f x).reader = some t → x.reader = some t ∨ Begun begun w true t)
    (answers : ∀ x t, t ∈ (f x).answers → t ∈ x.answers ∨ Begun begun w true t) :
    Keeps A R begun w (w'.setConnection k f) := by
  refine h.data rfl rfl ?_ (fun _ hb => hb) ?_
  · intro r c hc
    cases hc with
    | reader hc => exact .inl (.reader hc)
    | writer hc => exact .inl (.writer hc)
    | waiter hc => exact .inl (.waiter hc)
    | taker hc => exact .inl (.taker hc)
    | @pending k' id _ hc =>
      rcases connection_setConnection k k' f w' with same | ⟨rfl, same⟩
      · exact .inl (.pending (same ▸ hc))
      · exact (pending _ (id, c) (same ▸ hc)).imp_left .pending
  · intro drops t ht
    cases ht with
    | @reader k' _ ht =>
      rcases connection_setConnection k k' f w' with same | ⟨-, same⟩
      · exact .inl (.reader (same ▸ ht))
      · exact (reader _ t (same ▸ ht)).imp_left .reader
    | @answer k' _ ht =>
      rcases connection_setConnection k k' f w' with same | ⟨-, same⟩
      · exact .inl (.answer (same ▸ ht))
      · exact (answers _ t (same ▸ ht)).imp_left .answer
    | reaper ht => exact .inl (.reaper ht)
    | relay ht => exact .inl (.relay ht)
    | report ht => exact .inl (.report ht)

theorem setRelay (h : Keeps A R begun w w') (r : RelayId) {f : Relay → Relay}
    (task : ∀ x t, (f x).task = some t → x.task = some t ∨ Begun begun w true t) :
    Keeps A R begun w (w'.setRelay r f) := by
  refine h.data rfl rfl ?_ (fun _ hb => hb) ?_
  · intro role c hc
    cases hc with
    | reader hc => exact .inl (.reader hc)
    | writer hc => exact .inl (.writer hc)
    | waiter hc => exact .inl (.waiter hc)
    | taker hc => exact .inl (.taker hc)
    | pending hc => exact .inl (.pending hc)
  · intro drops t ht
    cases ht with
    | reader ht => exact .inl (.reader ht)
    | answer ht => exact .inl (.answer ht)
    | reaper ht => exact .inl (.reaper ht)
    | @relay r' _ ht =>
      rcases relay_setRelay r r' f w' with same | ⟨-, same⟩
      · exact .inl (.relay (same ▸ ht))
      · exact (task _ t (same ▸ ht)).imp_left .relay
    | report ht => exact .inl (.report ht)

theorem setWorkspace (h : Keeps A R begun w w') {f : Workspace → Workspace}
    (reports : ∀ t, t ∈ (f w'.workspace).reports →
      t ∈ w'.workspace.reports ∨ Begun begun w true t) :
    Keeps A R begun w (w'.setWorkspace f) := by
  refine h.data rfl rfl ?_ (fun _ hb => hb) ?_
  · intro role c hc
    cases hc with
    | reader hc => exact .inl (.reader hc)
    | writer hc => exact .inl (.writer hc)
    | waiter hc => exact .inl (.waiter hc)
    | taker hc => exact .inl (.taker hc)
    | pending hc => exact .inl (.pending hc)
  · intro drops t ht
    cases ht with
    | reader ht => exact .inl (.reader ht)
    | answer ht => exact .inl (.answer ht)
    | reaper ht => exact .inl (.reaper ht)
    | relay ht => exact .inl (.relay ht)
    | report ht => exact (reports t ht).imp_left .report

/-- What is shown or seen holds no cell. -/
theorem aside (h : Keeps A R begun w w') (loop : w''.loop = w'.loop)
    (current : w''.current = w'.current) (backends : w''.backends = w'.backends)
    (connections : w''.connections = w'.connections) (sessions : w''.sessions = w'.sessions)
    (relays : w''.relays = w'.relays) (workspace : w''.workspace.reports = w'.workspace.reports) :
    Keeps A R begun w w'' := by
  refine h.data loop current ?_ ?_ ?_
  · intro role c hc
    cases hc with
    | reader hc => exact .inl (.reader (by simpa only [World.backend, backends] using hc))
    | writer hc => exact .inl (.writer (by simpa only [World.backend, backends] using hc))
    | waiter hc => exact .inl (.waiter (by simpa only [World.backend, backends] using hc))
    | taker hc => exact .inl (.taker (by simpa only [World.session, sessions] using hc))
    | pending hc => exact .inl (.pending (by simpa only [World.connection, connections] using hc))
  · intro b hb
    simpa only [Exited, World.backend, backends] using hb
  · intro drops t ht
    cases ht with
    | reader ht => exact .inl (.reader (by simpa only [World.connection, connections] using ht))
    | answer ht => exact .inl (.answer (by simpa only [World.connection, connections] using ht))
    | reaper ht => exact .inl (.reaper (by simpa only [World.session, sessions] using ht))
    | relay ht => exact .inl (.relay (by simpa only [World.relay, relays] using ht))
    | report ht => exact .inl (.report (workspace ▸ ht))

/-- A cell is settled by somebody who holds it, or has made it. -/
theorem settle (h : Keeps A R begun w w') (c : CellId) {o : Outcome Result} (ho : Calm o)
    (ho' : o ≠ .error .cancelled) (known : (∃ r, w.Held r c ∧ w'.Earned A r o) ∨
      (Fresh w w' c ∧ ∃ r, A.gives r ∧ w'.Earned A r o)) :
    Keeps A R begun w (w'.onLoop (·.settle c o)) := by
  rw [← List.append_nil begun]
  have step : Loop.Op Calm R A.guards w'.loop (w'.loop.settle c o) := .settle _ c o ho ho'
  refine h.onLoop (.single step) (fun d hd => .inl hd.settle) ?_
  intro d o' before after
  rcases Loop.outcome?_settle c d o w'.loop with same | ⟨rfl, -, settled⟩
  · rw [same, before] at after
    cases after
  · rw [after] at settled
    cases settled
    rcases known with ⟨r, held, earned⟩ | ⟨fresh, r, gives, earned⟩
    · exact .holder r held (earned.mono fun _ hb => hb)
    · exact .fresh r (fresh.ops (.single step)) gives (earned.mono fun _ hb => hb)

theorem release (h : Keeps A R begun w w') (c : CellId)
    (known : (∃ r, w.Held r c ∧ w'.Earned A r (.ok .nothing)) ∨
      (Fresh w w' c ∧ ∃ r, A.gives r ∧ w'.Earned A r (.ok .nothing))) :
    Keeps A R begun w (w'.release c) := h.settle c (calm_ok _) (fun same => nomatch same) known

theorem releaseAll (h : Keeps A R begun w w') {cs : List CellId}
    (known : ∀ c ∈ cs, ∃ r, w.Held r c ∧ w'.Earned A r (.ok .nothing)) :
    Keeps A R begun w (w'.releaseAll cs) := by
  induction cs generalizing w' with
  | nil => exact h
  | cons c cs ih =>
    obtain ⟨first, others⟩ := List.forall_mem_cons.1 known
    refine ih (h.release c (.inl first)) fun d hd => ?_
    obtain ⟨r, held, earned⟩ := others d hd
    exact ⟨r, held, earned.mono fun _ hb => hb⟩

theorem newCell (h : Keeps A R begun w w') :
    Keeps A R begun w w'.newCell.2 := by
  have made := h.onLoop (f := fun l => (l.newCell .plain).2)
    (.single (.newCell _ .plain (fun _ hm => nomatch hm) rfl)) (fun _ hc => .inl hc.newCell)
    fun c o before after => by
      rw [Loop.outcome?_newCell, before] at after
      cases after
  rwa [List.append_nil] at made

theorem spawn (h : Keeps A R begun w w') (f : Frame) :
    Keeps A R (begun ++ [f]) w (w'.spawn f).2 := by
  refine h.onLoop (f := fun l => (l.spawn f).2) ?_ (fun _ hc => .inl hc.spawn) ?_
  · exact (Loop.Ops.refl w'.loop).spawn f
  · intro c o before after
    have same : (w'.loop.spawn f).2.outcome? c = w'.loop.outcome? c :=
      Loop.outcome?_newCell _ c w'.loop
    rw [same, before] at after
    cases after

theorem cancel (h : Keeps A R begun w w') {c : CellId} (hc : R c) :
    Keeps A R begun w (w'.onLoop fun l => (l.cancel c).2) := by
  rw [← List.append_nil begun]
  refine h.onLoop (f := fun l => (l.cancel c).2) (.single (.cancel _ _ hc calm_cancelled))
    (fun _ hd => .inl hd.cancel) ?_
  intro d o before after
  rcases Loop.outcome?_cancel c d w'.loop with same | ⟨cancelled, kind⟩
  · rw [same, before] at after
    cases after
  · rw [after] at cancelled
    exact .cancelled (Option.some.inj cancelled) fun t => Loop.kind?_cancel c d w'.loop ▸ kind t

theorem cancelTask (h : Keeps A R begun w w') {t : TaskId} (ht : R (w'.loop.taskCell t)) :
    Keeps A R begun w (w'.onLoop (·.cancelTask t)) := h.cancel ht

theorem setTask (h : Keeps A R begun w w') (t : TaskId)
    {f : TaskState Frame → TaskState Frame} (hf : ∀ task, (f task).place = task.place)
    (due : ∀ task, (f task).cancelDue = task.cancelDue) (guarding : A.guards) :
    Keeps A R begun w (w'.setTask t f) := by
  rw [← List.append_nil begun]
  refine h.onLoop (.single (.mark _ t f hf due guarding)) (fun _ hc => .inl hc.setTask) ?_
  intro c o before after
  have same : (w'.loop.setTask t f).outcome? c = w'.loop.outcome? c := rfl
  rw [same, before] at after
  cases after

theorem fresh_newCell (w : World) : Fresh w w.newCell.2 w.loop.cells.length where
  new := Nat.le_refl _
  inside := by simp [World.newCell, Loop.newCell]
  kind t same := by
    have plain := Loop.kind?_newCell_self .plain w.loop
    rw [show w.newCell.2.loop = (w.loop.newCell .plain).2 from rfl, plain] at same
    cases same

/-- Operations about one new cell. -/
theorem around (h : Keeps A R begun w w') {c : CellId}
    {f : Loop Frame Result Notice → Loop Frame Result Notice}
    (step : Loop.Around Calm R A.guards c w'.loop (f w'.loop)) (fresh : Fresh w (w'.onLoop f) c)
    (gives : A.gives .loose)
    (good : ∀ o, (f w'.loop).outcome? c = some o → o = .ok .nothing) :
    Keeps A R begun w (w'.onLoop f) := by
  rw [← List.append_nil begun]
  refine h.onLoop step.ops ?_ ?_
  · intro d hd
    rcases step.holds d hd with old | rfl
    · exact .inl old
    · exact .inr ⟨fresh, gives⟩
  · intro d o before after
    by_cases same : d = c
    · subst same
      exact .fresh .loose fresh gives (good o after)
    · rw [step.outcome d same, before] at after
      cases after

/-- Operations about no cell. -/
theorem aloof (h : Keeps A R begun w w')
    {f : Loop Frame Result Notice → Loop Frame Result Notice}
    (step : ∀ c, Loop.Around Calm R A.guards c w'.loop (f w'.loop)) :
    Keeps A R begun w (w'.onLoop f) := by
  rw [← List.append_nil begun]
  refine h.onLoop (step 0).ops ?_ ?_
  · intro d hd
    exact ((step (d + 1)).holds d hd).imp_right fun same => absurd same (Nat.ne_of_lt (Nat.lt_succ_self d))
  · intro d o before after
    rw [(step (d + 1)).outcome d (Nat.ne_of_lt (Nat.lt_succ_self d)), before] at after
    cases after

end Keeps
end World
end LanguageClient
