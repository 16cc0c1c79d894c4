import LanguageClient.Proofs.World.Path
import LanguageClient.Proofs.World.Steady

/-!
What becomes of a single task in a move: it stays where it is, ends, is woken, begins, or goes on by
a step.
-/

namespace LanguageClient

open Schedule

namespace World

variable {may : Frame → Prop} {R : CellId → Prop} {w w' : World} {t u : TaskId} {o o' : Outcome Result}

/-- A task makes a step, and lands. -/
structure Strides (R : CellId → Prop) (w w' : World) (t : TaskId) (f : Frame) (o : Outcome Result)
    (rest begun : List Frame) (flow : Flow Frame Result) (w₂ : World) : Prop where
  runs : w.current = some (t, o)
  top : w.stack t = f :: rest
  steps : { w with current := none }.resume t f o = (flow, w₂)
  turn : Turn R { w with current := none } f o begun (flow, w₂)
  lands : Landed t rest flow w₂ w'

theorem Strides.gives {w w' w₂ : World} {f : Frame} {o : Outcome Result} {rest begun : List Frame}
    {flow : Flow Frame Result} {r : Role} (strides : Strides R w w' t f o rest begun flow w₂)
    (h : w.Grants.gives r) : w.Offers f r := by
  obtain ⟨t', o', f', rest', runs, top, offers⟩ := h
  rw [strides.runs] at runs
  cases runs
  rw [strides.top] at top
  cases top
  exact offers

/-- A new cell that a task comes to wait for is no task's. -/
theorem Strides.kind {w w' w₂ : World} {f g : Frame} {o : Outcome Result} {rest begun : List Frame}
    {flow : Flow Frame Result} {c : CellId} (strides : Strides R w w' t f o rest begun flow w₂)
    (sound : w.Sound) (same : flow = .await c g) (new : w.loop.cells.length ≤ c) :
    ∃ k, w'.loop.kind? c = some k ∧ ∀ t, k ≠ .task t := by
  have kept {k : Source} (h : w₂.loop.kind? c = some k) : w'.loop.kind? c = some k :=
    ((strides.lands.aside.kept .none).kind c (Loop.lt_of_kind? h)).trans h
  rcases strides.turn.awaits.cell c g same with named | ⟨drops, u, known, rfl⟩ | made
  · have plain := sound.names t f (strides.top ▸ List.mem_cons_self) c named
    exact absurd (Loop.lt_of_kind? plain) (Nat.not_lt.2 new)
  · exact absurd (sound.inside (sound.refers drops u known.aside)) (Nat.not_lt.2 new)
  · obtain ⟨k, kind⟩ : ∃ k, w₂.loop.kind? c = some k := by
      rw [Loop.kind?, List.getElem?_eq_getElem made.inside]
      exact ⟨_, rfl⟩
    exact ⟨k, kept kind, (made.members k kind).1⟩

/-- What becomes of a single task. -/
inductive Fate (may : Frame → Prop) (R : CellId → Prop) (w w' : World) (u : TaskId) : Prop
  | stays (stack : w'.stack u = w.stack u) (waits : w'.loop.waits u = w.loop.waits u)
    (before : ∀ o, w.current ≠ some (u, o)) (after : ∀ o, w'.current ≠ some (u, o))
  | ends {o : Outcome Result} (ends : w.Ends u o) (stack : w'.stack u = [])
    (waits : w'.loop.waits u = none) (after : w'.current = none)
  | wakes {waited : Option CellId} {o : Outcome Result} (idle : w.current = none)
    (stack : w'.stack u = w.stack u) (before : w.loop.waits u = waited)
    (waits : w'.loop.waits u = none) (runs : w'.current = some (u, o))
    (outcome : if w.loop.due u then o = .error .cancelled
      else (waited = none ∧ o = .ok .nothing) ∨ ∃ c, waited = some c ∧ w.loop.outcome? c = some o)
  | begins {g : Frame} (new : w.loop.tasks.length ≤ u) (stack : w'.stack u = [g])
    (waits : w'.loop.waits u = none) (after : ∀ o, w'.current ≠ some (u, o))
    (source : (w.current = none ∧ may g) ∨ ∃ t f o rest begun flow w₂,
      Strides R w w' t f o rest begun flow w₂ ∧ begun[u - w.loop.tasks.length]? = some g)
  | goes {f : Frame} {o : Outcome Result} {rest begun : List Frame} {flow : Flow Frame Result}
    {w₂ : World} (strides : Strides R w w' u f o rest begun flow w₂)
    (stack : w'.stack u = flow.frames ++ rest)

theorem waits_of_le (h : w.loop.tasks.length ≤ t) : w.loop.waits t = none := by
  rw [Loop.waits_eq, List.getElem?_eq_none h]
  rfl

/-- Only the task that makes a step runs after it. -/
theorem Next.other {flow : Flow Frame Result} (h : Next t w' flow) (hu : u ≠ t) (o : Outcome Result) :
    w'.current ≠ some (u, o) := by
  intro runs
  have known {o' : Outcome Result} (same : w'.current = some (t, o')) : False := by
    rw [same] at runs
    cases runs
    exact hu rfl
  cases flow with
  | done => exact known h.1
  | goto => exact known h.1
  | call => exact known h.1
  | pause =>
    rw [h.1] at runs
    cases runs
  | await =>
    rcases h with ⟨o', -, same, -⟩ | ⟨same, -⟩
    · exact known same
    · rw [same] at runs
      cases runs

theorem Sound.fate (h : w.Sound) (m : Move may R w w') (u : TaskId) : Fate may R w w' u := by
  cases m with
  | @rests begun l allowed idle idle' _ piles waits =>
    have before (o : Outcome Result) : w.current ≠ some (u, o) := by simp [idle]
    have after (o : Outcome Result) : w'.current ≠ some (u, o) := by simp [idle']
    rcases stack_begun piles u with ⟨-, same⟩ | ⟨new, g, hg, same⟩ | out
    · exact .stays same (waits u) before after
    · exact .begins new same ((waits u).trans (waits_of_le new)) after
        (.inl ⟨idle, allowed g (List.mem_of_getElem? hg)⟩)
    · refine .stays ?_ (waits u) before after
      have old : w.loop.tasks.length ≤ u := by
        rw [← length_piles w', piles, List.length_append, length_piles] at out
        exact Nat.le_trans (Nat.le_add_right _ _) out
      rw [stack_of_le out, stack_of_le old]
  | @ends t o ends idle' _ piles waits =>
    by_cases same : u = t
    · subst same
      refine .ends ends ((stack_congr piles u).trans ends.2) ((waits u).trans ?_) idle'
      exact (h.orderly.running u (by rw [ends.1]; rfl)).2.1
    · refine .stays (stack_congr piles u) (waits u) (fun o' runs => ?_) (by simp [idle'])
      rw [ends.1] at runs
      cases runs
      exact same rfl
  | @wakes t waited o idle ready going runs _ piles waits outcome moved =>
    by_cases same : u = t
    · subst same
      refine .wakes idle (stack_congr piles u) ?_ ?_ runs outcome
      · exact ((h.calm idle).resuming u waited (ready ▸ List.mem_cons_self)).2.1
      · rw [moved]
        refine (Loop.waits_setTask u u _ _).trans ?_
        rw [if_pos rfl]
        cases w.loop.tasks[u]? <;> rfl
    · refine .stays (stack_congr piles u) (waits u same) (by simp [idle]) fun o' runs' => ?_
      rw [runs] at runs'
      cases runs'
      exact same rfl
  | @goes t o f rest begun flow w₀ w₂ runs top taken steps turn lands =>
    subst taken
    have strides : Strides R w w' t f o rest begun flow w₂ := ⟨runs, top, steps, turn, lands⟩
    obtain ⟨here, others⟩ := turn.piles (h.running runs) lands
    by_cases same : u = t
    · subst same
      exact .goes strides here
    · have waits : w'.loop.waits u = w.loop.waits u :=
        (lands.waits u same).trans (turn.keeps.ops.waits u)
      have before (o' : Outcome Result) : w.current ≠ some (u, o') := by
        intro runs'
        rw [runs] at runs'
        cases runs'
        exact same rfl
      have after := lands.next.other same
      rcases others u same with ⟨-, stack⟩ | ⟨new, g, hg, stack⟩ | out
      · exact .stays stack waits before after
      · exact .begins new stack (waits.trans (waits_of_le new)) after
          (.inr ⟨t, f, o, rest, begun, flow, w₂, strides, hg⟩)
      · refine .stays ?_ waits before after
        have grown : w.loop.tasks.length ≤ w'.loop.tasks.length :=
          Nat.le_trans turn.keeps.kept.tasks (lands.aside.kept .none).tasks
        rw [stack_of_le out, stack_of_le (Nat.le_trans grown out)]

variable {f : Frame} {above below : List Frame}

/-- What stands below a place stays there, and so does that until it has gone on. -/
theorem Sound.above_cases (sound : w.Sound) (move : Move may R w w')
    (stack : w.stack t = above ++ f :: below) : (∃ above, w'.stack t = above ++ f :: below) ∨
      ∃ o begun flow w₂, Strides R w w' t f o below begun flow w₂ ∧ w'.stack t = flow.frames ++ below := by
  cases sound.fate move t with
  | stays same | wakes _ same => exact .inl ⟨above, same.trans stack⟩
  | ends ends =>
    rw [ends.2] at stack
    cases above <;> cases stack
  | begins new =>
    rw [stack_of_le new] at stack
    cases above <;> cases stack
  | @goes g o rest begun flow w₂ strides same =>
    have top := strides.top.symm.trans stack
    cases above with
    | nil =>
      cases top
      exact .inr ⟨o, begun, flow, w₂, strides, same⟩
    | cons g' above =>
      cases top
      exact .inl ⟨flow.frames ++ above, same.trans (List.append_assoc ..).symm⟩

/-- What stands at the bottom of a stack does so after a move, unless it is what has gone on. -/
theorem Sound.last_cases (sound : w.Sound) (move : Move may R w w')
    (last : (w.stack t).getLast? = some f) : (w'.stack t).getLast? = some f ∨
      ∃ o begun flow w₂, Strides R w w' t f o [] begun flow w₂ ∧ w'.stack t = flow.frames := by
  obtain ⟨above, stack⟩ := List.getLast?_eq_some_iff.1 last
  rcases sound.above_cases move stack with ⟨above, stack⟩ | ⟨o, begun, flow, w₂, strides, stack⟩
  · exact .inl (stack ▸ List.getLast?_concat)
  · exact .inr ⟨o, begun, flow, w₂, strides, stack.trans (List.append_nil _)⟩

/-- A task that stands at a single place stays there, or has gone on from it. -/
theorem Sound.single_cases (sound : w.Sound) (move : Move may R w w')
    (stack : w.stack t = [f]) : w'.stack t = [f] ∨
      ∃ o begun flow w₂, Strides R w w' t f o [] begun flow w₂ ∧ w'.stack t = flow.frames := by
  cases sound.fate move t with
  | stays same | wakes _ same => exact .inl (same.trans stack)
  | ends ends =>
    rw [ends.2] at stack
    cases stack
  | begins new =>
    rw [stack_of_le new] at stack
    cases stack
  | @goes f' o rest begun flow w₂ strides same =>
    cases strides.top.symm.trans stack
    exact .inr ⟨o, begun, flow, w₂, strides, same.trans (List.append_nil _)⟩

/-- A task has come to its end, or is about to, with what it returns. -/
def Returned (w : World) (t : TaskId) (o : Outcome Result) : Prop :=
  w.Ends t o ∨ w.loop.outcome? (w.loop.taskCell t) = some o

theorem Returned.later (h : w.Returned t o) (moves : Moves may R w w') (inside : t < w.loop.tasks.length) :
    w'.loop.outcome? (w'.loop.taskCell t) = some o := by
  rw [moves.moved.taskCell t inside]
  rcases h with ends | settled
  · exact Sound.ended moves.move ends
  · exact moves.moved.settles.outcome settled

theorem Sound.over_of_done (sound : w.Sound) (done : w.loop.taskDone t = true) : w.stack t = [] := by
  by_cases inside : t < w.loop.tasks.length
  · exact ((sound.done t inside).1 done).1
  · exact stack_of_le (Nat.le_of_not_lt inside)

theorem Sound.stack_of_returned (sound : w.Sound) (h : w.Returned t o) : w.stack t = [] := by
  rcases h with ends | settled
  · exact ends.2
  · exact sound.over_of_done (Option.isSome_iff_exists.2 ⟨o, settled⟩)

/-- A task that is at its end has not told of it yet. -/
theorem Sound.unsettled_of_ends (sound : w.Sound) (ends : w.Ends t o) :
    w.loop.outcome? (w.loop.taskCell t) ≠ some o' := by
  intro settled
  have going := sound.going ends.1
  rw [Loop.taskDone, Loop.isSettled, settled] at going
  cases going

theorem Sound.returned_unique (sound : w.Sound) (h : w.Returned t o)
    (settled : w.loop.outcome? (w.loop.taskCell t) = some o') : o = o' := by
  rcases h with ends | settled'
  · exact absurd settled (sound.unsettled_of_ends ends)
  · exact Option.some.inj (settled'.symm.trans settled)

/-- What a task comes to is what its last step has returned. -/
theorem Sound.returned_cases (sound : w.Sound) (moves : Moves may R w w') (sound' : w'.Sound)
    (inside : t < w.loop.tasks.length) (h : w'.Returned t o) :
    w.Returned t o ∨ ∃ f o' begun w₂, Strides R w w' t f o' [] begun (.done o) w₂ := by
  cases going : w.loop.taskDone t with
  | true =>
    obtain ⟨o', done⟩ := Option.isSome_iff_exists.1 going
    rw [sound'.returned_unique h (Returned.later (.inr done) moves inside)]
    exact .inl (.inr done)
  | false =>
    rcases h with ends | settled
    · cases sound.fate moves.move t with
      | stays _ _ _ after => exact absurd ends.1 (after _)
      | ends _ _ _ after =>
        have runs := ends.1
        rw [after] at runs
        cases runs
      | wakes idle stack =>
        exact absurd (stack.symm.trans ends.2) (sound.stack_ne_nil inside idle going)
      | begins new => exact absurd inside (Nat.not_lt.2 new)
      | @goes f o' rest begun flow w₂ strides stack =>
        obtain ⟨frames, rfl⟩ := List.append_eq_nil_iff.1 (stack.symm.trans ends.2)
        cases flow with
        | done o'' =>
          cases strides.lands.next.1.symm.trans ends.1
          exact .inr ⟨f, o', begun, w₂, strides⟩
        | _ => cases frames
    · rw [moves.moved.taskCell t inside] at settled
      exact .inl (.inl (sound.ends_of_settled moves.moved inside going settled))

/-- Only tasks that have just begun come to be known, and those that may be given up are errands. -/
theorem Sound.refers_cases (h : w.Sound) (m : Move may R w w') {drops : Bool}
    (ht : w'.Refers drops t) : w.Refers drops t ∨ (w.loop.tasks.length ≤ t ∧
      ∃ g, w'.stack t = [g] ∧ (drops = true → g.isErrand = true)) := by
  cases m with
  | @rests begun l allowed idle idle' _ piles _ _ _ _ refers =>
    refine (refers drops t ht).imp_right fun new => ⟨new.le, ?_⟩
    obtain ⟨i, g, found, rfl, errand⟩ := new
    refine ⟨g, ?_, errand⟩
    rw [stack_eq, piles, List.getElem?_append_right (length_piles w ▸ Nat.le_add_right _ _),
      length_piles, Nat.add_sub_cancel_left, List.getElem?_map, found]
    rfl
  | ends _ _ _ _ _ _ _ same =>
    rw [same] at ht
    exact .inl ht.aside.aside
  | wakes _ _ _ _ _ _ _ _ same =>
    rw [same] at ht
    exact .inl ht.aside
  | @goes u o f rest begun flow w₀ w₂ runs top taken steps turn lands =>
    subst taken
    rw [lands.aside.same] at ht
    rcases turn.keeps.refers drops t ht.aside with old | new
    · exact .inl old.aside
    · right
      have low : w.loop.tasks.length ≤ t := new.le
      have other : t ≠ u := Nat.ne_of_gt (Nat.lt_of_lt_of_le (h.running runs) low)
      refine ⟨low, ?_⟩
      obtain ⟨i, g, found, rfl, errand⟩ := new
      rcases (turn.piles (h.running runs) lands).2 _ other with ⟨old, -⟩ | ⟨-, g', found', stack⟩ | out
      · exact absurd old (Nat.not_lt.2 low)
      · have index : ∀ n : Nat, n + i - n = i := fun n => Nat.add_sub_cancel_left n i
        rw [index] at found'
        rw [found] at found'
        cases found'
        exact ⟨g, stack, errand⟩
      · have grown : w₂.loop.tasks.length = w.loop.tasks.length + begun.length :=
          length_tasks_of_ops turn.keeps.ops
        have same : w'.loop.tasks.length = w₂.loop.tasks.length := by
          rw [← length_piles, lands.piles, List.length_set, length_piles]
        have inside := Nat.add_lt_add_left (List.getElem?_eq_some_iff.1 found).1 w.loop.tasks.length
        rw [← grown, ← same] at inside
        exact absurd inside (Nat.not_lt.2 out)

end World

namespace Moment

open World

variable {may : Frame → Prop} {R : CellId → Prop} {m : Moment} {w' : World}

/-- The place at which the task at work goes on, and with what. -/
def top? (m : Moment) : Option (Frame × Outcome Result) :=
  m.world.current.bind fun run => (m.world.stack run.1).head?.map (·, run.2)

theorem top?_of_idle (idle : m.world.current = none) : m.top? = none := by
  rw [top?, idle]
  rfl

theorem top?_of_runs {t : TaskId} {f : Frame} {o : Outcome Result} {rest : List Frame}
    (runs : m.world.current = some (t, o)) (top : m.world.stack t = f :: rest) :
    m.top? = some (f, o) := by
  rw [top?, runs, Option.bind_some, top]
  rfl

/-- A task makes a step, or nothing happens to what a reading tells of that is left alone from outside. -/
theorem Goes.cases {α : Type} {φ : World → α} (goes : m.Goes w') (moves : Moves may R m.world w')
    (steady : Steady φ) (heed : ∀ n w, φ (w.heed n) = φ w) (take : ∀ a w, φ (w.take a) = φ w) :
    (m.top? = none ∧ φ w' = φ m.world) ∨
      (w' = m.world.step ∧ ∃ t f o rest begun flow w₂,
        Strides R m.world w' t f o rest begun flow w₂) := by
  cases goes with
  | step w =>
    cases runs : w.current with
    | none =>
      refine .inl ⟨top?_of_idle runs, ?_⟩
      rw [World.step, runs]
      dsimp only
      split
      · rfl
      · exact (steady.runJob _ heed _).trans (steady.onLoop w _)
    | some task =>
      obtain ⟨t, o⟩ := task
      have same : w.step = w.stepTask t o := by rw [World.step, runs]
      cases top : w.stack t with
      | nil =>
        refine .inl ⟨?_, ?_⟩
        · rw [top?, runs, Option.bind_some, top]
          rfl
        · show φ w.step = φ w
          rw [same, stepTask_nil top]
          exact (steady.onLoop _ _).trans (steady.current w _)
      | cons f rest =>
        refine .inr ⟨rfl, ?_⟩
        cases moves.move with
        | rests _ idle => cases idle.symm.trans runs
        | ends ends =>
          cases ends.1.symm.trans runs
          cases ends.2.symm.trans top
        | wakes idle => cases idle.symm.trans runs
        | goes runs top taken steps turn lands =>
          subst taken
          exact ⟨_, _, _, _, _, _, _, runs, top, steps, turn, lands⟩
  | take idle a => exact .inl ⟨top?_of_idle idle, take a _⟩
  | tick idle => exact .inl ⟨top?_of_idle idle, steady.tick _⟩
  | wait idle => exact .inl ⟨top?_of_idle idle, steady.onLoop _ _⟩

end Moment

namespace World

variable {may : Frame → Prop} {R : CellId → Prop} {t : TaskId} {m : Moment} {w' : World} {f : Frame}
variable {o : Outcome Result} {rest : List Frame}

/-- A task that can go on does. -/
theorem Sound.strides_of_runs (sound : m.world.Sound) (move : Move may R m.world w')
    (runs : m.Runs t f o rest) : ∃ begun flow w₂, Strides R m.world w' t f o rest begun flow w₂ := by
  obtain ⟨runs, top⟩ := runs
  cases sound.fate move t with
  | stays _ _ still => exact absurd runs (still o)
  | ends ends =>
    rw [ends.2] at top
    cases top
  | wakes idle =>
    rw [runs] at idle
    cases idle
  | begins new => exact absurd (sound.running runs) (Nat.not_lt.2 new)
  | goes strides =>
    cases strides.runs.symm.trans runs
    cases strides.top.symm.trans top
    exact ⟨_, _, _, strides⟩

/-- Where a task stands that has gone on, and how it goes on next. -/
theorem Sound.runs_on (sound : m.world.Sound) (move : Move may R m.world w') (runs : m.Runs t f o rest) :
    w'.stack t = ({ m.world with current := none }.resume t f o).1.frames ++ rest ∧
      Next t w' ({ m.world with current := none }.resume t f o).1 := by
  obtain ⟨begun, flow, w₂, strides⟩ := sound.strides_of_runs move runs
  rw [strides.steps]
  exact ⟨(strides.turn.piles (sound.running strides.runs) strides.lands).1, strides.lands.next⟩

end World
end LanguageClient
