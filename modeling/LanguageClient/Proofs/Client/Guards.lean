import LanguageClient.Proofs.Client.Near

/-!
In a client nobody is cancelled but a task that serves, or one that waits under a timer which has
gone off.
-/

namespace LanguageClient

open Schedule

/-- Cells that a task will wait for and has not given up. -/
def Frame.wants : Frame → List CellId
  | .wait (.start c _) | .connection _ (.requestWritten _ c _) => [c]
  | _ => []

namespace World

variable {may : Frame → Prop} {R : CellId → Prop} {t u : TaskId} {c : CellId} {w w' w₂ : World}
variable {f : Frame} {rest begun : List Frame} {o : Outcome Result} {flow : Flow Frame Result}

theorem names_of_wants (h : c ∈ f.wants) : c ∈ f.names := by
  cases f with
  | wait p =>
    cases p with
    | start d timeout => exact h
    | guarded => cases h
    | released => cases h
  | connection k p =>
    cases p with
    | requestWritten id d timeout => exact h
    | _ => cases h
  | _ => cases h

/-- A task waits under a timer, and has been asked to give up so often before. -/
def Guarding (w : World) (t : TaskId) (id : TimerId) (n : Nat) : Prop :=
  ∃ rest, w.stack t = .wait (.guarded id n) :: rest

/-- The timer has gone off that a task waits under. -/
def Overdue (w : World) (t : TaskId) : Prop := ∃ id n, w.Guarding t id n ∧ id ∈ w.loop.expired

/-- A task is not cancelled but by its timer. -/
structure Minds (w : World) (t : TaskId) : Prop where
  due : ∀ task, w.loop.tasks[t]? = some task → task.cancelDue = true →
    w.Overdue t ∧ ∀ o, w.current ≠ some (t, o)
  lost : ∀ c, w.loop.waits t = some c → (∀ v, w.loop.kind? c ≠ some (.task v)) →
    w.loop.outcome? c = some (.error .cancelled) → w.Overdue t
  wanted : ∀ f ∈ w.stack t, ∀ c ∈ f.wants, w.loop.outcome? c ≠ some (.error .cancelled)
  counts : ∀ id n, w.Guarding t id n →
    id < w.loop.nextTimer ∧ w.cancels t = if id ∈ w.loop.expired then n + 1 else n

/-- Every timer that is to cancel a task is the one that the task waits under. -/
structure Timed (w : World) : Prop where
  numbered : Loop.Numbered w.loop.timers w.loop.nextTimer
  gone : ∀ id ∈ w.loop.expired,
    id < w.loop.nextTimer ∧ ∀ t, (id, t) ∉ Loop.alarms w.loop.timers
  alarms : ∀ id t, (id, t) ∈ Loop.alarms w.loop.timers → ∃ n, w.Guarding t id n
  unique : ∀ id t u n m, w.Guarding t id n → w.Guarding u id m → t = u

structure Guarded (w : World) : Prop extends Timed w where
  given : ∀ c, w.loop.givenUp c = false
  minds : ∀ t, ¬ Errand (w.stack t) → w.Minds t

/-- Below the top a cell is wanted only while what asks for it is written. -/
theorem Linked.wants_top {g : Frame} (h : Linked (f :: rest)) (hg : g ∈ rest) (hc : c ∈ g.wants) :
    Routine.drains.Has f := by
  induction rest generalizing f with
  | nil => cases hg
  | cons next rest ih =>
    obtain ⟨⟨r, calls, has⟩, below⟩ := h
    rcases List.mem_cons.1 hg with rfl | hg
    · cases g with
      | wait p => cases p <;> cases calls
      | connection k p =>
        cases p with
        | requestWritten id d timeout =>
          cases calls
          exact has
        | _ => cases hc
      | _ => cases hc
    · have drains := ih below hg
      cases drains <;> cases calls

theorem not_errand_wait {p : Wait} (linked : Linked (.wait p :: rest)) :
    ¬ Errand (.wait p :: rest) := by
  intro errand
  rcases errand.top linked with serves | drains
  · cases serves
  · cases drains

theorem Client.not_errand (h : w.Client) {id : TimerId} {n : Nat} (guarding : w.Guarding t id n) :
    ¬ Errand (w.stack t) := by
  obtain ⟨rest, top⟩ := guarding
  have linked := h.linked t
  rw [top] at linked ⊢
  exact not_errand_wait linked

/-- Where a task waits under a timer that has made a step: it has set that timer. -/
theorem Strides.guarding (h : w.Client) (s : Strides R w w' t f o rest begun flow w₂)
    (stack : w'.stack t = flow.frames ++ rest) {id : TimerId} {n : Nat}
    (guarding : w'.Guarding t id n) : .wait (.guarded id n) ∈ flow.frames := by
  obtain ⟨rest', top⟩ := guarding
  rw [stack] at top
  have linked : Linked (f :: rest) := s.top ▸ h.linked t
  cases flow with
  | done o' =>
    have below : rest = .wait (.guarded id n) :: rest' := top
    exact absurd (below ▸ List.mem_cons_self) linked.wait_top
  | goto g => exact List.mem_singleton.2 (List.cons_eq_cons.1 top).1.symm
  | await c g => exact List.mem_singleton.2 (List.cons_eq_cons.1 top).1.symm
  | pause g => exact List.mem_singleton.2 (List.cons_eq_cons.1 top).1.symm
  | call inner next => exact List.mem_cons.2 (.inl (List.cons_eq_cons.1 top).1.symm)

/-- Timers that cancel are set by waits alone. -/
theorem Leads.unguarded (h : Leads t w w' f o flow) (other : ∀ p, f ≠ .wait p) (id : TimerId)
    (n : Nat) : .wait (.guarded id n) ∉ flow.frames := by
  cases h with
  | waits => exact absurd rfl (other _)
  | guards => exact absurd rfl (other _)
  | givesUp => exact absurd rfl (other _)
  | serves _ _ flow_ => rcases flow_ with rfl | ⟨c, -, rfl⟩ <;> simp [Flow.frames]
  | stopsAnswers _ flow_ => rcases flow_ with rfl | ⟨c, rfl⟩ <;> simp [Flow.frames]
  | launches _ flow_ => rcases flow_ with rfl | ⟨c, -, rfl⟩ <;> simp [Flow.frames]
  | takes _ _ flow_ => rcases flow_ with rfl | rfl | ⟨c, -, rfl⟩ <;> simp [Flow.frames]
  | _ => simp [Flow.frames]

/-- What a task comes to want it wanted already, or has just made. -/
theorem Leads.wants {g : Frame} (h : Leads t w w' f o flow) (hg : g ∈ flow.frames)
    (hc : c ∈ g.wants) : (c ∈ f.wants ∧ f.starts = []) ∨ w.loop.cells.length ≤ c := by
  have none (wants : ∀ g' ∈ flow.frames, g'.wants = []) : False := by
    rw [wants g hg] at hc
    cases hc
  cases h with
  | requests =>
    rcases List.mem_cons.1 hg with rfl | hg
    · cases hc
    · rw [List.mem_singleton.1 hg] at hc
      exact .inr (Nat.le_of_eq (List.mem_singleton.1 hc).symm)
  | written =>
    rcases List.mem_cons.1 hg with rfl | hg
    · exact .inl ⟨hc, rfl⟩
    · rw [List.mem_singleton.1 hg] at hc
      cases hc
  | watches novel _ stages =>
    rcases List.mem_cons.1 hg with rfl | hg
    · rw [List.mem_singleton.1 hc]
      exact .inr novel.1
    · rw [List.mem_singleton.1 hg] at hc
      cases hc
  | @serves k p q _ _ _ serves flow_ =>
    have wants : (Frame.connection k q).wants = [] := by cases q <;> first | rfl | cases serves
    rcases flow_ with rfl | ⟨d, -, rfl⟩ <;> exact (none (List.forall_mem_singleton.2 wants)).elim
  | stopsAnswers _ flow_ =>
    rcases flow_ with rfl | ⟨d, rfl⟩ <;> exact (none (by simp [Flow.frames, Frame.wants])).elim
  | launches _ flow_ =>
    rcases flow_ with rfl | ⟨d, -, rfl⟩ <;> exact (none (by simp [Flow.frames, Frame.wants])).elim
  | takes _ _ flow_ =>
    rcases flow_ with rfl | rfl | ⟨d, -, rfl⟩ <;> exact (none (by simp [Flow.frames, Frame.wants])).elim
  | _ => exact (none (by simp [Flow.frames, Frame.wants])).elim

theorem lt_of_busy (busy : ¬ Errand (w.stack u)) : u < w.loop.tasks.length := by
  refine Nat.lt_of_not_le fun out => busy ?_
  rw [stack_of_le out]
  exact fun _ hf => nomatch hf

theorem stack_of_task (same : w'.loop.tasks[u]? = w.loop.tasks[u]?) : w'.stack u = w.stack u := by
  rw [stack, stack, same]

namespace Guarded

variable {reach : CellId → Prop} {marked : TaskId → Prop}

/-- A move comes to no cell that a task uses which the move is not about. -/
theorem apart (sound : w.Sound) (client : w.Client) (client' : w'.Client) (moved : Moved w w')
    (still : ¬ Mover w w' u) (busy : ¬ Errand (w.stack u)) (uses : w.Uses u c) (uses' : w'.Uses u c)
    (kind : ∀ v, w.loop.kind? c ≠ some (.task v)) : ¬ Touched w w' c := by
  have kind' (v : TaskId) : w'.loop.kind? c ≠ some (.task v) := by
    rw [moved.kind c (client.lt_of_uses sound uses)]
    exact kind v
  rintro (near | ⟨v, task⟩ | ⟨plain, t, mover, waits⟩)
  · rcases near with ⟨v, refers, rfl | waits⟩ | ⟨t, o, f, rest, runs, top, starts⟩
    · exact kind v (sound.cells v (sound.refers true v refers))
    · have same := client.users c v u kind (.inl waits) uses
      exact busy (same ▸ client.errands v refers)
    · have named : w.Uses t c := .inr ⟨f, top ▸ List.mem_cons_self, names_of_starts starts⟩
      have same := client.users c t u kind named uses
      exact still ⟨o, .inl (same ▸ runs)⟩
  · exact kind' v task
  · have same := client'.users c t u kind' (.inl waits) uses'
    exact still (same ▸ mover)

/-- A cell is not cancelled that is out of reach. -/
theorem spared (h : w.Guarded) (leaves : Loop.Leaves reach marked w.loop w'.loop)
    (settles : ∀ o, w.loop.outcome? c = some o → w'.loop.outcome? c = some o) (apart : ¬ reach c)
    (before : w.loop.outcome? c ≠ some (.error .cancelled)) :
    w'.loop.outcome? c ≠ some (.error .cancelled) := by
  intro after
  cases known : w.loop.outcome? c with
  | some o =>
    rw [settles o known] at after
    cases after
    exact before known
  | none =>
    rcases leaves.cancelled c known after with near | given
    · exact apart near
    · rw [h.given c] at given
      cases given

/-- A task that a move is not about is minded as before. -/
theorem stays (h : w.Guarded) (sound : w.Sound) (client : w.Client) (moved : Moved w w')
    (leaves : Loop.Leaves reach marked w.loop w'.loop) (unmarked : ¬ marked u)
    (inside : u < w.loop.tasks.length) (still : ∀ o, w'.current ≠ some (u, o))
    (busy : ¬ Errand (w.stack u)) (apart : ∀ c, w.Uses u c → w'.Uses u c →
      (∀ v, w.loop.kind? c ≠ some (.task v)) → ¬ reach c)
    (later : w.loop.nextTimer ≤ w'.loop.nextTimer) (expired : ∀ id n, w.Guarding u id n →
      (id ∈ w'.loop.expired ↔ id ∈ w.loop.expired)) : w'.Minds u := by
  have minds := h.minds u busy
  have task := leaves.task u inside unmarked
  have stack : w'.stack u = w.stack u := stack_of_task task
  have waits : w'.loop.waits u = w.loop.waits u := by rw [Loop.waits_eq, Loop.waits_eq, task]
  have guarding {id : TimerId} {n : Nat} : w'.Guarding u id n ↔ w.Guarding u id n := by
    rw [Guarding, Guarding, stack]
  have overdue : w.Overdue u → w'.Overdue u := fun ⟨id, n, under, gone⟩ =>
    ⟨id, n, guarding.2 under, (expired id n under).2 gone⟩
  have spared {c : CellId} (uses : w.Uses u c) (kind : ∀ v, w.loop.kind? c ≠ some (.task v))
      (before : w.loop.outcome? c ≠ some (.error .cancelled)) :
      w'.loop.outcome? c ≠ some (.error .cancelled) := by
    refine h.spared leaves (fun o => moved.settles.outcome) (apart c uses ?_ kind) before
    rw [Uses, waits, stack]
    exact uses
  refine ⟨fun task' found late => ?_, fun c hc kind cancelled => ?_, fun f hf c hc => ?_,
    fun id n under => ?_⟩
  · rw [task] at found
    exact ⟨overdue (minds.due task' found late).1, still⟩
  · rw [waits] at hc
    have kind' (v : TaskId) : w.loop.kind? c ≠ some (.task v) := by
      rw [← moved.kind c (client.inside u c hc)]
      exact kind v
    by_cases before : w.loop.outcome? c = some (.error .cancelled)
    · exact overdue (minds.lost c hc kind' before)
    · exact absurd cancelled (spared (.inl hc) kind' before)
  · rw [stack] at hf
    have plain := sound.names u f hf c (names_of_wants hc)
    refine spared (.inr ⟨f, hf, names_of_wants hc⟩) (fun v same => ?_) (minds.wanted f hf c hc)
    rw [plain] at same
    cases same
  · have under' := guarding.1 under
    obtain ⟨low, count⟩ := minds.counts id n under'
    refine ⟨Nat.lt_of_lt_of_le low later, ?_⟩
    have same : w'.cancels u = w.cancels u := by rw [cancels, cancels, task]
    rw [same, count]
    simp only [expired id n under']

/-- A task that has just begun. -/
theorem begins (leaves : Loop.Leaves reach marked w.loop w'.loop) (new : w.loop.tasks.length ≤ u)
    (unmarked : ¬ marked u) {g : Frame} (stack : w'.stack u = [g]) (waits : w'.loop.waits u = none)
    (names : g.names = []) (other : ∀ p, g ≠ .wait p) : w'.Minds u := by
  refine ⟨fun task found late => ?_, fun c hc => ?_, fun f hf c hc => ?_, fun id n under => ?_⟩
  · rw [leaves.fresh u task new unmarked found] at late
    cases late
  · rw [waits] at hc
    cases hc
  · rw [stack] at hf
    have named := names_of_wants hc
    rw [List.mem_singleton.1 hf, names] at named
    cases named
  · obtain ⟨rest, top⟩ := under
    rw [stack] at top
    exact absurd (List.cons_eq_cons.1 top).1 (other _)

/-- A task that has been woken. -/
theorem wakes (h : w.Guarded) {ready : List (Job Notice)}
    (busy : ¬ Errand (w.stack t)) (same : w' = { w with
      loop := ({ w.loop with ready := ready }).setTask t fun task =>
        { task with waits := none, cancelDue := false }
      current := some (t, o) }) : w'.Minds t := by
  have minds := h.minds t busy
  have tasks : w'.loop.tasks[t]? = (w.loop.tasks[t]?).map fun task =>
      { task with waits := none, cancelDue := false } := by
    rw [same]
    simp [Loop.setTask]
  have stack : w'.stack t = w.stack t := by
    rw [World.stack, World.stack, tasks]
    cases w.loop.tasks[t]? <;> rfl
  refine ⟨fun task found late => ?_, fun c hc => ?_, fun f hf c hc => ?_, fun id n under => ?_⟩
  · rw [tasks] at found
    obtain ⟨task', -, rfl⟩ := Option.map_eq_some_iff.1 found
    cases late
  · rw [Loop.waits_eq, tasks] at hc
    cases found : w.loop.tasks[t]? <;> rw [found] at hc <;> cases hc
  · rw [stack] at hf
    rw [same]
    exact minds.wanted f hf c hc
  · have under' : w.Guarding t id n := by
      obtain ⟨rest, top⟩ := under
      exact ⟨rest, stack ▸ top⟩
    have count : w'.cancels t = w.cancels t := by
      rw [cancels, cancels, tasks]
      cases w.loop.tasks[t]? <;> rfl
    rw [count, same]
    exact minds.counts id n under'

/-- A task that has made a step, and was not about to be cancelled. -/
theorem goes (h : w.Guarded) (sound : w.Sound) (client : w.Client) (moved : Moved w w')
    (s : Strides R w w' t f o rest begun flow w₂) (stack : w'.stack t = flow.frames ++ rest)
    (busy : ¬ Errand (w.stack t)) (leaves : Loop.Leaves (Touched w w') marked w.loop w'.loop)
    {task : TaskState Frame} (found : w₂.loop.tasks[t]? = some task) (calm : task.cancelDue = false)
    (unwaited : task.waits = none) (counts : ∀ id n, .wait (.guarded id n) ∈ flow.frames →
      id < w'.loop.nextTimer ∧ n = w₂.cancels t ∧ id ∉ w'.loop.expired) : w'.Minds t := by
  have minds := h.minds t busy
  have linked : Linked (f :: rest) := s.top ▸ client.linked t
  obtain ⟨task', landed, calm', count, lost⟩ := land_calm rest flow found calm unwaited
  rw [← s.lands.same] at landed lost
  have waiting (c : CellId) (waits : w'.loop.waits t = some c) : w'.loop.outcome? c = none := by
    rw [Loop.waits_eq, landed] at waits
    exact lost c waits
  -- A cell that the task wants can only be cancelled by the task itself.
  have kept (c : CellId) (plain : w'.loop.kind? c = some .plain)
      (before : w.loop.outcome? c ≠ some (.error .cancelled))
      (own : w.Near c → False) : w'.loop.outcome? c ≠ some (.error .cancelled) := by
    intro after
    refine h.spared leaves (fun o => moved.settles.outcome) ?_ before after
    rintro (near | ⟨v, task⟩ | ⟨-, v, mover, waits⟩)
    · exact own near
    · rw [plain] at task
      cases task
    · by_cases same : v = t
      · rw [waiting c (same ▸ waits)] at after
        cases after
      · obtain ⟨o', runs | runs⟩ := mover
        · rw [s.runs] at runs
          cases runs
          exact same rfl
        · exact s.lands.next.other same o' runs
  have wanted (g : Frame) (hg : g ∈ w.stack t) (c : CellId) (hc : c ∈ g.wants)
      (top : f.starts = []) : w'.loop.outcome? c ≠ some (.error .cancelled) := by
    have plain := sound.names t g hg c (names_of_wants hc)
    refine kept c ((moved.kind c (Loop.lt_of_kind? plain)).trans plain) (minds.wanted g hg c hc) ?_
    have kind (v : TaskId) : w.loop.kind? c ≠ some (.task v) := by simp [plain]
    rintro (⟨v, refers, rfl | waits⟩ | ⟨v, o', f', rest', runs, top', starts⟩)
    · exact kind v (sound.cells v (sound.refers true v refers))
    · have same := client.users c v t kind (.inl waits) (.inr ⟨g, hg, names_of_wants hc⟩)
      exact busy (same ▸ client.errands v refers)
    · rw [s.runs] at runs
      cases runs
      rw [s.top] at top'
      cases top'
      rw [top] at starts
      cases starts
  refine ⟨fun task'' found' late => ?_, fun c hc _ cancelled => ?_, fun g hg c hc => ?_,
    fun id n under => ?_⟩
  · rw [landed] at found'
    cases found'
    rw [calm'] at late
    cases late
  · rw [waiting c hc] at cancelled
    cases cancelled
  · rw [stack] at hg
    rcases List.mem_append.1 hg with new | old
    · rcases (client.leads s).wants new hc with ⟨own, top⟩ | fresh
      · exact wanted f (s.top ▸ List.mem_cons_self) c own top
      · have plain : w'.loop.kind? c = some .plain := by
          rcases s.turn.awaits.names g new c (names_of_wants hc) with named | ⟨-, plain⟩
          · have known := sound.names t f (s.top ▸ List.mem_cons_self) c named
            exact absurd (Loop.lt_of_kind? known) (Nat.not_lt.2 fresh)
          · have known : w₂.loop.kind? c = some .plain := plain
            exact ((s.lands.aside.kept .none).kind c (Loop.lt_of_kind? known)).trans known
        refine kept c plain (fun settled => ?_) fun near => ?_
        · exact absurd (lt_of_outcome? settled) (Nat.not_lt.2 fresh)
        · exact absurd (client.near_inside sound near) (Nat.not_lt.2 fresh)
    · have drains := linked.wants_top old hc
      refine wanted g (s.top ▸ List.mem_cons_of_mem f old) c hc ?_
      cases drains <;> rfl
  · obtain ⟨low, same, gone⟩ := counts id n (s.guarding client stack under)
    have count' : w'.cancels t = w₂.cancels t := by
      rw [cancels, cancels, landed, found]
      exact count
    refine ⟨low, ?_⟩
    rw [if_neg gone, count', same]

end Guarded

/-- A task that has just begun waits for nothing and under no timer. -/
theorem opened_ne_wait (client : w.Client) (first : ∀ g, may g → g.isCall = true)
    {g : Frame} (source : (w.current = none ∧ may g) ∨ ∃ t f o rest begun flow w₂,
      Strides R w w' t f o rest begun flow w₂ ∧ begun[u - w.loop.tasks.length]? = some g) (p : Wait) :
    g ≠ .wait p := by
  rcases source with ⟨-, allowed⟩ | ⟨t, f, o, rest, begun, flow, w₂, s, found⟩
  · exact Frame.ne_wait_of_call (first g allowed) p
  · rintro rfl
    rcases s.turn.change.opened (client.places t f (s.top ▸ List.mem_cons_self)) _
      (List.mem_of_getElem? found) with serves | ⟨k, grace, same⟩
    · cases serves
    · cases same

theorem guarding_iff (sound : w.Sound) (client : w.Client) (m : Move may R w w')
    (first : ∀ g, may g → g.isCall = true)
    (other : ∀ o p rest, w.current = some (u, o) → w.stack u ≠ .wait p :: rest) {id : TimerId}
    {n : Nat} : w'.Guarding u id n ↔ w.Guarding u id n := by
  cases sound.fate m u with
  | stays stack => rw [Guarding, Guarding, stack]
  | ends ends stack => simp [Guarding, stack, ends.2]
  | wakes _ stack => rw [Guarding, Guarding, stack]
  | begins new stack _ _ source =>
    have wait := opened_ne_wait client first source
    simp [Guarding, stack, stack_of_le new, wait]
  | @goes f o rest begun flow w₂ s stack =>
    have top : ∀ p, f ≠ .wait p := fun p same => other o p rest s.runs (same ▸ s.top)
    constructor
    · exact fun under => absurd (s.guarding client stack under) ((client.leads s).unguarded top id n)
    · rintro ⟨rest', same⟩
      exact absurd same (other o _ rest' s.runs)

namespace Guarded

theorem given_ (h : w.Guarded) (sound : w.Sound) (client : w.Client) (moved : Moved w w')
    (leaves : Loop.Leaves (Touched w w') marked w.loop w'.loop) (c : CellId) :
    w'.loop.givenUp c = false := by
  by_cases touched : Touched w w' c
  · rcases touched with near | ⟨v, task⟩ | ⟨plain, -⟩
    · rcases client.near_kind sound near with ⟨v, -, -, task⟩ | plain
      · exact Loop.givenUp_of_kind ((moved.kind c (Loop.lt_of_kind? task)).trans task)
          fun _ same => nomatch same
      · exact Loop.givenUp_of_kind ((moved.kind c (Loop.lt_of_kind? plain)).trans plain)
          fun _ same => nomatch same
    · exact Loop.givenUp_of_kind task fun _ same => nomatch same
    · exact Loop.givenUp_of_kind plain fun _ same => nomatch same
  · exact (leaves.givenUp c touched).trans (h.given c)

/-- A timer goes off that cancels nobody, or is not there any more. -/
theorem quiet (h : w.Guarded) (sound : w.Sound) (client : w.Client) (moved : Moved w w')
    (idle' : w'.current = none) (tasks : w'.loop.tasks = w.loop.tasks)
    (leaves : Loop.Leaves (fun _ => False) (fun _ => False) w.loop w'.loop)
    (timers : w'.loop.timers.Sublist w.loop.timers) (next : w'.loop.nextTimer = w.loop.nextTimer)
    (expired : w'.loop.expired = w.loop.expired) : w'.Guarded := by
  have stack (u : TaskId) : w'.stack u = w.stack u := stack_of_task (by rw [tasks])
  have guarding {u : TaskId} {id : TimerId} {n : Nat} : w'.Guarding u id n ↔ w.Guarding u id n := by
    rw [Guarding, Guarding, stack]
  have alarms {id : TimerId} {u : TaskId} (hu : (id, u) ∈ Loop.alarms w'.loop.timers) :
      (id, u) ∈ Loop.alarms w.loop.timers := (timers.filterMap _).subset hu
  refine ⟨⟨⟨h.numbered.1.sublist (timers.map _), fun timer member => ?_⟩, fun id gone => ?_,
    fun id u hu => ?_, fun id t u n m ht hu => ?_⟩, fun c => ?_, fun u busy => ?_⟩
  · rw [next]
    exact h.numbered.2 timer (timers.subset member)
  · rw [expired] at gone
    exact ⟨next ▸ (h.gone id gone).1, fun u hu => (h.gone id gone).2 u (alarms hu)⟩
  · obtain ⟨n, under⟩ := h.alarms id u (alarms hu)
    exact ⟨n, guarding.2 under⟩
  · exact h.unique id t u n m (guarding.1 ht) (guarding.1 hu)
  · exact (leaves.givenUp c fun bad => bad).trans (h.given c)
  · rw [stack] at busy
    exact h.stays sound client moved leaves (fun bad => bad) (lt_of_busy busy) (by simp [idle']) busy
      (fun _ _ _ _ bad => bad) (Nat.le_of_eq next.symm) fun _ _ _ => by rw [expired]

/-- A timer goes off: the task that it was set for is asked to give up, and no other is. -/
theorem expire (h : w.Guarded) (sound : w.Sound) (client : w.Client) (moved : Moved w w')
    (idle' : w'.current = none) {id : TimerId} {ready : List (Job Notice)}
    (armed : (id, t) ∈ Loop.alarms w.loop.timers)
    (same : w'.loop = { (({ w.loop with ready := ready }).stopTimer id).cancelTask t with
      expired := w.loop.expired ++ [id] }) : w'.Guarded := by
  obtain ⟨n, under⟩ := h.alarms id t armed
  have known := under
  obtain ⟨rest, top⟩ := known
  have linked : Linked (.wait (.guarded id n) :: rest) := top ▸ client.linked t
  have busy : ¬ Errand (w.stack t) := client.not_errand under
  have inside : t < w.loop.tasks.length := lt_of_stack (top ▸ List.mem_cons_self)
  let l : Loop Frame Result Notice := ({ w.loop with ready := ready }).stopTimer id
  have own := sound.cells t inside
  have plain (c : CellId) : w.loop.waits t = some c → w.loop.kind? c = some .plain :=
    client.plain t c (.inr ⟨_, rest, top⟩)
  have spares : Loop.Spares (fun c => c = w.loop.taskCell t ∨ w.loop.waits t = some c) (· = t) l
      (l.cancelTask t) := Loop.Spares.cancelTask (l := l) own plain
  have leaves : Loop.Leaves (fun c => c = w.loop.taskCell t ∨ w.loop.waits t = some c) (· = t) w.loop
      w'.loop := by
    have before : Loop.Leaves (fun c => c = w.loop.taskCell t ∨ w.loop.waits t = some c) (· = t)
        w.loop l := .of_eq rfl rfl
    rw [same]
    exact (before.trans spares.toLeaves (p := Calm) (.cancel calm_cancelled _ _)).trans
      (.of_eq rfl rfl) (p := Calm) (.of_eq fun _ => rfl)
  have stack (u : TaskId) : w'.stack u = w.stack u := by
    have step : Loop.Op (ρ := Result) Calm (fun _ => True) False l (l.cancelTask t) :=
      .cancel _ _ trivial calm_cancelled
    have places : w'.loop.places = w.loop.places := by
      rw [same]
      exact step.places
    exact stack_congr (by rw [Loop.piles_eq, Loop.piles_eq, places]) u
  have guarding {u : TaskId} {id : TimerId} {n : Nat} : w'.Guarding u id n ↔ w.Guarding u id n := by
    rw [Guarding, Guarding, stack]
  have expired : w'.loop.expired = w.loop.expired ++ [id] := by rw [same]
  have later : w.loop.nextTimer ≤ w'.loop.nextTimer := by
    rw [same]
    exact spares.later
  have timers : Loop.alarms w'.loop.timers = Loop.alarms l.timers := by
    rw [same]
    exact spares.alarms
  have alarms {id' : TimerId} {u : TaskId} (hu : (id', u) ∈ Loop.alarms w'.loop.timers) :
      (id', u) ∈ Loop.alarms w.loop.timers ∧ id' ≠ id := by
    rw [timers] at hu
    obtain ⟨timer, member, rfl, alarm⟩ := Loop.mem_alarms.1 hu
    obtain ⟨old, other⟩ := List.mem_filter.1 member
    exact ⟨Loop.mem_alarms.2 ⟨timer, old, rfl, alarm⟩, by simpa using other⟩
  have low : id < w.loop.nextTimer := ((h.minds t busy).counts id n under).1
  refine ⟨⟨?_, fun id' gone => ?_, fun id' u hu => ?_, fun id' v u n m hv hu => ?_⟩, fun c => ?_,
    fun u busy' => ?_⟩
  · rw [same]
    refine spares.numbered ⟨?_, fun timer member => ?_⟩
    · exact h.numbered.1.sublist (List.filter_sublist.map _)
    · exact h.numbered.2 timer (List.mem_filter.1 member).1
  · rw [expired] at gone
    rcases List.mem_append.1 gone with old | new
    · obtain ⟨low, none⟩ := h.gone id' old
      exact ⟨Nat.lt_of_lt_of_le low later, fun u hu => none u (alarms hu).1⟩
    · rw [List.mem_singleton.1 new]
      exact ⟨Nat.lt_of_lt_of_le low later, fun u hu => (alarms hu).2 rfl⟩
  · obtain ⟨n, under⟩ := h.alarms id' u (alarms hu).1
    exact ⟨n, guarding.2 under⟩
  · exact h.unique id' v u n m (guarding.1 hv) (guarding.1 hu)
  · by_cases near : c = w.loop.taskCell t ∨ w.loop.waits t = some c
    · rcases near with rfl | waits
      · exact Loop.givenUp_of_kind ((moved.kind _ (Loop.lt_of_kind? own)).trans own)
          fun _ same => nomatch same
      · have known := plain c waits
        exact Loop.givenUp_of_kind ((moved.kind _ (Loop.lt_of_kind? known)).trans known)
          fun _ same => nomatch same
    · exact (leaves.givenUp c near).trans (h.given c)
  · rw [stack] at busy'
    by_cases other : u = t
    · subst other
      have overdue : w'.Overdue u :=
        ⟨id, n, guarding.2 under, expired ▸ List.mem_append_right _ List.mem_cons_self⟩
      have minds := h.minds u busy
      refine ⟨fun _ _ _ => ⟨overdue, by simp [idle']⟩, fun _ _ _ _ => overdue, fun f hf c hc => ?_,
        fun id' n' under' => ?_⟩
      · rw [stack, top] at hf
        rcases List.mem_cons.1 hf with rfl | hf
        · cases hc
        · cases linked.wants_top hf hc
      · obtain ⟨rest', top'⟩ := guarding.1 under'
        rw [top] at top'
        cases top'
        refine ⟨Nat.lt_of_lt_of_le low later, ?_⟩
        rw [if_pos (expired ▸ List.mem_append_right _ List.mem_cons_self)]
        have before := (minds.counts id n under).2
        rw [if_neg fun gone => (h.gone id gone).2 u armed] at before
        obtain ⟨task, found⟩ : ∃ task, w.loop.tasks[u]? = some task :=
          ⟨_, List.getElem?_eq_getElem inside⟩
        have cell : w.loop.taskCell u = task.cell := by rw [Loop.taskCell, found]
        have going : w.loop.outcome? task.cell = none := by
          rw [← cell]
          refine Option.not_isSome_iff_eq_none.1 fun done => ?_
          have empty := ((sound.done u inside).1 done).1
          rw [top] at empty
          cases empty
        obtain ⟨due, known, -⟩ := Loop.tasks_cancelTask (l := l) found (cell ▸ own) going fun c hc => by
          refine plain c ?_
          rw [Loop.waits_eq, found]
          exact hc
        have count : w'.cancels u = task.cancels + 1 := by
          rw [cancels, same]
          dsimp only
          rw [known]
        have before' : task.cancels = n := by simpa [cancels, found] using before
        rw [count, before']
    · refine h.stays sound client moved leaves other (lt_of_busy busy') (by simp [idle']) busy'
        (fun c uses _ kind near => ?_) later fun id' n' under' => ?_
      · rcases near with rfl | waits
        · exact kind t own
        · exact other (client.users c u t kind uses (.inl waits))
      · rw [expired, List.mem_append, List.mem_singleton]
        refine or_iff_left fun same => ?_
        subst same
        exact other (h.unique id' u t n' n under' under)

/-- A timer goes off. -/
theorem fire (h : w.Guarded) (sound : w.Sound) (client : w.Client) (moved : Moved w w')
    (idle' : w'.current = none) {id : TimerId} {ready : List (Job Notice)}
    (same : w'.loop = ({ w.loop with ready := ready }).fire id .nothing) : w'.Guarded := by
  let l : Loop Frame Result Notice := { w.loop with ready := ready }
  have unfolded : w'.loop = l.fire id .nothing := same
  rw [Loop.fire] at unfolded
  split at unfolded
  · refine h.quiet sound client moved idle' ?_ (.of_eq ?_ ?_) ?_ ?_ ?_
    all_goals simp [unfolded, l]
  · next timer found =>
    have member : timer ∈ w.loop.timers := List.mem_of_find?_eq_some found
    have named : timer.id = id := by simpa using List.find?_some found
    dsimp only at unfolded
    split at unfolded
    · next c _ =>
      have settled := Loop.clock_settle c (.ok .nothing) (l.stopTimer id)
      have leaves : Loop.Leaves (fun _ => False) (fun _ => False) w.loop (l.stopTimer id) :=
        .of_eq rfl rfl
      refine h.quiet sound client moved idle' ?_ ?_ ?_ ?_ ?_
      · rw [unfolded]
        exact Loop.tasks_settle c _ _
      · rw [unfolded]
        exact leaves.trans (p := Calm) (Loop.Spares.settle (by simp) _).toLeaves
          (.settle (calm_ok _) c _)
      · rw [unfolded, settled.1]
        exact List.filter_sublist
      · rw [unfolded, settled.2.1]
        rfl
      · rw [unfolded, settled.2.2]
        rfl
    · next t alarm =>
      exact h.expire sound client moved idle' (Loop.mem_alarms.2 ⟨timer, member, named, alarm⟩) unfolded

/-- The timers after a move that leaves those alone that cancel tasks. -/
theorem timed (h : w.Guarded) (guarding : ∀ u id n, w'.Guarding u id n ↔ w.Guarding u id n)
    (loop : Loop.Spares reach marked w.loop w'.loop) : w'.Timed where
  numbered := loop.numbered h.numbered
  gone id gone := by
    rw [loop.expired] at gone
    obtain ⟨low, none⟩ := h.gone id gone
    refine ⟨Nat.lt_of_lt_of_le low loop.later, fun u hu => none u ?_⟩
    rwa [← loop.alarms]
  alarms id u hu := by
    rw [loop.alarms] at hu
    obtain ⟨n, under⟩ := h.alarms id u hu
    exact ⟨n, (guarding u id n).2 under⟩
  unique id t u n m ht hu := h.unique id t u n m ((guarding t id n).1 ht) ((guarding u id m).1 hu)

/-- The timers after a step of a wait. -/
theorem timed_waits (h : w.Guarded) (client : w.Client) {p : Wait}
    (s : Strides R w w' t (.wait p) o rest begun flow w₂) (stack : w'.stack t = flow.frames ++ rest)
    (times : Times t w.loop w₂ p o flow) (landed : Loop.Spares reach marked w₂.loop w'.loop)
    (guarding : ∀ u id n, u ≠ t → (w'.Guarding u id n ↔ w.Guarding u id n)) : w'.Timed := by
  have mine {id : TimerId} {n : Nat} (under : w'.Guarding t id n) :
      .wait (.guarded id n) ∈ flow.frames := s.guarding client stack under
  have before {id : TimerId} {n : Nat} (under : w.Guarding t id n) : p = .guarded id n := by
    obtain ⟨rest', top⟩ := under
    rw [s.top] at top
    cases top
    rfl
  have low {u : TaskId} {id : TimerId} {n : Nat} (under : w.Guarding u id n) :
      id < w.loop.nextTimer := ((h.minds u (client.not_errand under)).counts id n under).1
  cases times with
  | spares other stays loop =>
    have spares : Loop.Spares (fun _ => True) (fun _ => True) w.loop w'.loop :=
      (loop.mono (fun _ _ => trivial) fun _ _ => trivial).trans
        (landed.mono (fun _ _ => trivial) fun _ _ => trivial) (s.lands.aside.kept .none).settles
    refine h.timed (fun u id n => ?_) spares
    by_cases same : u = t
    · subst same
      exact ⟨fun under => absurd (mine under) (stays id n), fun under => absurd (before under) (other id n)⟩
    · exact guarding u id n same
  | @sets c span r due timers next expired =>
    have alarms {id : TimerId} {u : TaskId} : (id, u) ∈ Loop.alarms w'.loop.timers ↔
        (id, u) ∈ Loop.alarms w.loop.timers ∨ (id = w.loop.nextTimer ∧ u = t) := by
      rw [landed.alarms, timers, Loop.alarms, List.filterMap_append, List.mem_append]
      exact or_congr Iff.rfl (by simp)
    have later : w.loop.nextTimer < w'.loop.nextTimer :=
      Nat.lt_of_lt_of_le (next ▸ Nat.lt_succ_self _) landed.later
    refine ⟨landed.numbered ⟨?_, fun timer member => ?_⟩, fun id gone => ?_, fun id u hu => ?_,
      fun id v u n m hv hu => ?_⟩
    · rw [timers, List.map_append, List.nodup_append]
      refine ⟨h.numbered.1, List.pairwise_singleton _ _, ?_⟩
      rintro id old id' new rfl
      obtain ⟨timer, member, rfl⟩ := List.mem_map.1 old
      exact absurd (List.mem_singleton.1 new) (Nat.ne_of_lt (h.numbered.2 timer member))
    · rw [next]
      rw [timers] at member
      rcases List.mem_append.1 member with old | new
      · exact Nat.lt_succ_of_lt (h.numbered.2 timer old)
      · rw [List.mem_singleton.1 new]
        exact Nat.lt_succ_self _
    · rw [landed.expired, expired] at gone
      obtain ⟨below, none⟩ := h.gone id gone
      refine ⟨Nat.lt_trans below later, fun u hu => ?_⟩
      rcases alarms.1 hu with old | ⟨rfl, -⟩
      · exact none u old
      · exact Nat.lt_irrefl _ below
    · rcases alarms.1 hu with old | ⟨rfl, rfl⟩
      · obtain ⟨n, under⟩ := h.alarms id u old
        by_cases same : u = t
        · subst same
          cases before under
        · exact ⟨n, (guarding u id n same).2 under⟩
      · exact ⟨_, rest, stack⟩
    · have new {id : TimerId} {n : Nat} (under : w'.Guarding t id n) : id = w.loop.nextTimer := by
        cases List.mem_singleton.1 (mine under)
        rfl
      by_cases hv' : v = t
      · by_cases hu' : u = t
        · rw [hv', hu']
        · have old := low ((guarding u id m hu').1 hu)
          exact absurd (new (n := n) (hv' ▸ hv)) (Nat.ne_of_lt old)
      · have under := (guarding v id n hv').1 hv
        by_cases hu' : u = t
        · have old := low under
          exact absurd (new (n := m) (hu' ▸ hu)) (Nat.ne_of_lt old)
        · exact h.unique id v u n m under ((guarding u id m hu').1 hu)
  | @takes id n o o' tasks cells next taken =>
    have expired : ∀ id' ∈ w'.loop.expired, id' ∈ w.loop.expired := by
      rw [landed.expired]
      rcases taken with ⟨-, -, same⟩ | ⟨-, same, -⟩
      · rw [same]
        exact fun id' member => (List.mem_filter.1 member).1
      · rw [same]
        exact fun _ member => member
    have alarms {id' : TimerId} {u : TaskId} (hu : (id', u) ∈ Loop.alarms w'.loop.timers) :
        (id', u) ∈ Loop.alarms w.loop.timers ∧ id' ≠ id := by
      rw [landed.alarms] at hu
      rcases taken with ⟨late, same, -⟩ | ⟨-, -, same⟩
      · rw [same] at hu
        refine ⟨hu, ?_⟩
        rintro rfl
        exact (h.gone _ late).2 u hu
      · rw [same] at hu
        obtain ⟨timer, member, rfl, alarm⟩ := Loop.mem_alarms.1 hu
        obtain ⟨old, other⟩ := List.mem_filter.1 member
        exact ⟨Loop.mem_alarms.2 ⟨timer, old, rfl, alarm⟩, by simpa using other⟩
    have timers : w₂.loop.timers.Sublist w.loop.timers := by
      rcases taken with ⟨-, same, -⟩ | ⟨-, -, same⟩
      · exact same ▸ .refl _
      · exact same ▸ List.filter_sublist
    have later : w.loop.nextTimer ≤ w'.loop.nextTimer := next ▸ landed.later
    have other {u : TaskId} {id' : TimerId} {n' : Nat} (under : w'.Guarding u id' n') : u ≠ t := by
      rintro rfl
      cases mine under
    refine ⟨landed.numbered ⟨h.numbered.1.sublist (timers.map _), fun timer member => ?_⟩,
      fun id' gone => ?_, fun id' u hu => ?_, fun id' v u n m hv hu => ?_⟩
    · rw [next]
      exact h.numbered.2 timer (timers.subset member)
    · obtain ⟨below, none⟩ := h.gone id' (expired id' gone)
      exact ⟨Nat.lt_of_lt_of_le below later, fun u hu => none u (alarms hu).1⟩
    · obtain ⟨old, other⟩ := alarms hu
      obtain ⟨n', under⟩ := h.alarms id' u old
      by_cases same : u = t
      · subst same
        cases before under
        exact absurd rfl other
      · exact ⟨n', (guarding u id' n' same).2 under⟩
    · exact h.unique id' v u n m ((guarding v id' n (other hv)).1 hv) ((guarding u id' m (other hu)).1 hu)

/-- Other tasks do not see it when a timer is taken back. -/
theorem clock (h : w.Guarded) (mild : Mild w w') : w.loop.nextTimer ≤ w'.loop.nextTimer ∧
    ∀ u id n, (∀ o, w.current ≠ some (u, o)) → w.Guarding u id n →
      (id ∈ w'.loop.expired ↔ id ∈ w.loop.expired) := by
  cases mild with
  | plain loop => exact ⟨loop.later, fun _ _ _ _ _ => by rw [loop.expired]⟩
  | @waits t p o rest begun flow w₂ s times landed =>
    rw [landed.expired]
    cases times with
    | spares _ _ loop =>
      exact ⟨Nat.le_trans loop.later landed.later, fun _ _ _ _ _ => by rw [loop.expired]⟩
    | sets _ next expired =>
      exact ⟨Nat.le_trans (next ▸ Nat.le_succ _) landed.later, fun _ _ _ _ _ => by rw [expired]⟩
    | @takes id n o o' _ _ next taken =>
      refine ⟨next ▸ landed.later, fun u id' n' other under => ?_⟩
      rcases taken with ⟨-, -, same⟩ | ⟨-, same, -⟩
      · rw [same, List.mem_filter]
        refine and_iff_left (decide_eq_true fun same => ?_)
        subst same
        exact other _ (h.unique id' t u n n' ⟨rest, s.top⟩ under ▸ s.runs)
      · rw [same]

/-- Unless a timer goes off a move is mild. -/
theorem mild (h : w.Guarded) (sound : w.Sound) (client : w.Client) (m : Moves may w.Near w w') :
    (w.current = none ∧ w'.current = none ∧ ∃ id rest, w.loop.ready = .fire id :: rest ∧
      w'.loop = ({ w.loop with ready := rest }).fire id .nothing) ∨ Mild w w' := by
  refine client.mild sound m fun t o task runs found late => ?_
  refine Classical.byContradiction fun busy => ?_
  exact ((h.minds t busy).due task found late).2 o runs

theorem move (h : w.Guarded) (sound : w.Sound) (client : w.Client) (client' : w'.Client)
    (m : Moves may w.Near w w') (first : ∀ g, may g → g.isCall = true) :
    w'.Guarded := by
  rcases h.mild sound client m with ⟨idle, idle', id, rest, ready, same⟩ | mild
  · exact h.fire sound client m.moved idle' same
  have leaves := mild.leaves
  have others (u : TaskId) (id : TimerId) (n : Nat)
      (other : ∀ o p rest, w.current = some (u, o) → w.stack u ≠ .wait p :: rest) :
      w'.Guarding u id n ↔ w.Guarding u id n :=
    guarding_iff sound client m.move first other
  have timed : w'.Timed := by
    cases mild with
    | plain loop other => exact h.timed (fun u id n => others u id n fun o p rest => other u o p rest) loop
    | @waits t p o rest begun flow w₂ s times landed =>
      have stack : w'.stack t = flow.frames ++ rest :=
        (s.turn.piles (sound.running s.runs) s.lands).1
      refine h.timed_waits client s stack times landed fun u id n hu => others u id n ?_
      intro o' p' rest' runs
      rw [s.runs] at runs
      cases runs
      exact absurd rfl hu
  obtain ⟨later, expired⟩ := h.clock mild
  refine ⟨timed, h.given_ sound client m.moved leaves, fun u busy => ?_⟩
  cases sound.fate m.move u with
  | stays stack _ before after =>
    have still : ¬ Mover w w' u := by
      rintro ⟨o, runs | runs⟩
      · exact before o runs
      · exact after o runs
    rw [stack] at busy
    refine h.stays sound client m.moved leaves ?_ (lt_of_busy busy) after busy
      (fun c => apart sound client client' m.moved still busy) later fun id n => expired u id n before
    rintro (refers | mover)
    · exact busy (client.errands u refers)
    · exact still mover
  | ends _ stack => exact absurd (fun f hf => by rw [stack] at hf; cases hf) busy
  | @wakes _ o idle stack _ _ runs =>
    rw [stack] at busy
    cases m.move with
    | rests _ _ idle' =>
      rw [idle'] at runs
      cases runs
    | ends _ idle' =>
      rw [idle'] at runs
      cases runs
    | wakes _ _ _ runs' _ _ _ _ same =>
      rw [runs] at runs'
      cases runs'
      exact h.wakes busy same
    | goes runs' =>
      rw [idle] at runs'
      cases runs'
  | @begins g new stack waits after source =>
    have unmarked : ¬ Marked w w' u := by
      rintro (refers | ⟨o, runs | runs⟩)
      · exact absurd (sound.refers true u refers) (Nat.not_lt.2 new)
      · exact absurd (sound.running runs) (Nat.not_lt.2 new)
      · exact after o runs
    have names : g.names = [] := by
      rcases source with ⟨-, allowed⟩ | ⟨t, f, o, rest, begun, flow, w₂, s, found⟩
      · exact Frame.names_of_call (first g allowed)
      · exact (s.turn.change.firsts g (List.mem_of_getElem? found)).1
    exact begins leaves new unmarked stack waits names
      (opened_ne_wait client first source)
  | @goes f o rest begun flow w₂ s stack =>
    have inside := sound.running s.runs
    have busy' : ¬ Errand (w.stack u) := by
      rw [s.top]
      exact fun errand => busy (stack ▸ errand.goes (client.leads s))
    obtain ⟨task, found⟩ : ∃ task, w.loop.tasks[u]? = some task :=
      ⟨_, List.getElem?_eq_getElem inside⟩
    have calm : task.cancelDue = false := by
      refine Bool.eq_false_iff.2 fun late => ?_
      exact ((h.minds u busy').due task found late).2 o s.runs
    have unwaited : task.waits = none := by
      have waits := (sound.orderly.running u (by rw [s.runs]; rfl)).2.1
      rw [Loop.waits_eq, found] at waits
      exact waits
    cases mild with
    | plain loop other =>
      have top (p : Wait) : f ≠ .wait p := fun same => other u o p rest s.runs (same ▸ s.top)
      have unmarked : ¬ w.Refers true u := fun refers => busy' (client.errands u refers)
      refine h.goes sound client m.moved s stack busy' leaves
        (((client.steps sound s top).task u inside unmarked).trans found) calm unwaited ?_
      exact fun id n under => absurd under ((client.leads s).unguarded top id n)
    | @waits t p o' rest' begun' flow' w₂' s' times landed =>
      have same := s.runs.symm.trans s'.runs
      cases same
      have same := s.top.symm.trans s'.top
      cases same
      have same := s.steps.symm.trans s'.steps
      cases same
      obtain ⟨task₂, found₂⟩ : ∃ task, w₂.loop.tasks[u]? = some task :=
        ⟨_, List.getElem?_eq_getElem (Nat.lt_of_lt_of_le inside s.turn.keeps.kept.tasks)⟩
      obtain ⟨n, before⟩ := times.task inside found₂
      rw [found] at before
      cases before
      refine h.goes sound client m.moved s stack busy' leaves found₂ calm unwaited fun id n under => ?_
      cases times with
      | spares _ stays => exact absurd under (stays id n)
      | sets _ next expired =>
        cases List.mem_singleton.1 under
        refine ⟨Nat.lt_of_lt_of_le (next ▸ Nat.lt_succ_self _) landed.later, rfl, fun gone => ?_⟩
        rw [landed.expired, expired] at gone
        exact Nat.lt_irrefl _ (h.gone _ gone).1
      | takes => cases under

end Guarded
end World
end LanguageClient
