import LanguageClient.Proofs.World.Path

/-!
Nobody is forgotten, at any point of any run: a task that has not come to its end runs, has a job at
hand, or is woken by the cell that it waits for.
-/

namespace LanguageClient.World

open Schedule

variable {may : Frame → Prop} {R : CellId → Prop} {w w' : World} {t u : TaskId}

def Attentive (w : World) : Prop :=
  ∀ t, t < w.loop.tasks.length → w.loop.taskDone t = false →
    (∃ o, w.current = some (t, o)) ∨ w.loop.Attends t

theorem attends_setTask (h : w.loop.Attends u) (t : TaskId) (f : TaskState Frame → TaskState Frame) :
    (w.setTask t f).loop.Attends u := h.aside rfl (List.Subset.refl _)

theorem attends_suspend (h : w.loop.Attends u) (t : TaskId) (c : CellId) :
    (w.suspend t c).loop.Attends u := by
  have watched : (w.watchCell t c).loop.Attends u :=
    attends_setTask (w := w.onLoop (·.watch c (.task t))) (h.watch c (.task t)) t _
  rw [suspend_eq]
  split
  · split
    · have reached := watched.cancel c
      dsimp only
      split
      · exact attends_setTask (w := { w.watchCell t c with loop := _ }) reached t _
      · exact reached
    · exact watched
  · exact watched

theorem attends_land (h : w.loop.Attends u) (t : TaskId) (rest : List Frame)
    (flow : Flow Frame Result) : (land t rest (flow, w)).loop.Attends u := by
  cases flow with
  | done o => exact attends_setTask h t _
  | goto f => exact attends_setTask h t _
  | call inner next => exact attends_setTask h t _
  | pause f =>
    have set : (w.setStack t (f :: rest)).loop.Attends u := attends_setTask h t _
    exact set.aside rfl (List.subset_append_left _ _)
  | await c f =>
    have set : (w.setStack t (f :: rest)).loop.Attends u := attends_setTask h t _
    rw [land_await]
    split
    · exact set
    · exact attends_suspend set t c

/-- A task that is left waiting is woken by the cell it waits for. -/
theorem suspend_attends {c : CellId} (inside : c < w.loop.cells.length) :
    (w.suspend t c).loop.Attends t := by
  have watched : (w.watchCell t c).loop.Attends t :=
    attends_setTask (w := w.onLoop (·.watch c (.task t))) (Loop.Attends.watches inside) t _
  rw [suspend_eq]
  split
  · split
    · have reached := watched.cancel c
      dsimp only
      split
      · exact attends_setTask (w := { w.watchCell t c with loop := _ }) reached t _
      · exact reached
    · exact watched
  · exact watched

/-- A task that has made a step runs on, or goes on in time. -/
theorem land_attends {flow : Flow Frame Result}
    (inside : ∀ c g, flow = .await c g → c < w.loop.cells.length) (rest : List Frame) :
    (∃ o, (land t rest (flow, w)).current = some (t, o)) ∨
      (land t rest (flow, w)).loop.Attends t := by
  cases flow with
  | done o => exact .inl ⟨o, rfl⟩
  | goto f => exact .inl ⟨_, rfl⟩
  | call inner next => exact .inl ⟨_, rfl⟩
  | pause f => exact .inr (.ready none (List.mem_append_right _ List.mem_cons_self))
  | await c f =>
    rw [land_await]
    split
    · exact .inl ⟨_, rfl⟩
    · exact .inr (suspend_attends (w := w.setStack t (f :: rest)) (inside c f rfl))

theorem Move.attentive (move : Move may R w w') (sound : w.Sound) (moved : Moved w w')
    (h : w.Attentive) : w'.Attentive := by
  intro u inside going
  have before (old : u < w.loop.tasks.length) : w.loop.taskDone u = false := by
    refine Bool.eq_false_iff.2 fun done => Bool.eq_false_iff.1 going ?_
    rw [Loop.taskDone, moved.taskCell u old]
    exact Loop.isSettled_mono moved.settles done
  cases move with
  | @rests begun l allowed idle idle' core piles waits pops queue calms refers due attends =>
    right
    refine attends u ?_
    by_cases old : u < w.loop.tasks.length
    · left
      rcases h u old (before old) with ⟨o, runs⟩ | known
      · rw [idle] at runs
        cases runs
      · cases pops with
        | none => exact known
        | job ready other =>
          refine known.pop ready fun waited same => ?_
          have done := other u waited same
          rw [before old] at done
          cases done
    · exact .inr ⟨Nat.le_of_not_lt old, inside⟩
  | @ends t o ends idle' core piles waits done queue same =>
    have old : u < w.loop.tasks.length := by
      rw [same] at inside
      have tasks : (w.loop.settle (w.loop.taskCell t) o).tasks = w.loop.tasks := Loop.tasks_settle _ o _
      exact tasks ▸ inside
    rcases h u old (before old) with ⟨o', runs⟩ | known
    · rw [ends.1] at runs
      cases runs
      rw [Loop.taskDone, moved.taskCell _ old, Loop.isSettled, done] at going
      cases going
    · right
      rw [same]
      exact known.settle _ o
  | @wakes t waited o idle ready going' runs core piles waits outcome same =>
    by_cases here : u = t
    · exact .inl ⟨o, here ▸ runs⟩
    · right
      have old : u < w.loop.tasks.length := by
        have lengths := congrArg List.length piles
        rw [length_piles, length_piles] at lengths
        exact lengths ▸ inside
      rcases h u old (before old) with ⟨o', runs'⟩ | known
      · rw [idle] at runs'
        cases runs'
      · have popped := known.pop ready fun waited' job => here (by cases job; rfl)
        rw [same]
        exact popped.aside rfl (List.Subset.refl _)
  | @goes t o f rest begun flow w₀ w₂ runs top taken steps turn lands =>
    subst taken
    rw [lands.same]
    by_cases here : u = t
    · subst here
      refine land_attends (fun c g awaits => ?_) rest
      rcases turn.awaits.cell c g awaits with named | ⟨drops, v, known, rfl⟩ | made
      · have plain := sound.names u f (top ▸ List.mem_cons_self) c named
        exact Nat.lt_of_lt_of_le (Loop.lt_of_kind? plain) turn.keeps.ops.length_cells
      · exact Nat.lt_of_lt_of_le (sound.inside (sound.refers drops v known.aside))
          turn.keeps.ops.length_cells
      · exact made.inside
    · right
      refine attends_land ?_ t rest flow
      by_cases old : u < w.loop.tasks.length
      · rcases h u old (before old) with ⟨o', runs'⟩ | known
        · rw [runs] at runs'
          cases runs'
          exact absurd rfl here
        · exact known.ops turn.keeps.ops
      · have lengths := congrArg List.length lands.piles
        rw [List.length_set, length_piles, length_piles] at lengths
        exact .of_begun turn.keeps.ops (Nat.le_of_not_lt old) (lengths ▸ inside)

/-- When nothing is left to do, whoever has not come to its end waits for a cell that is not
settled. -/
theorem Attentive.waits (h : w.Attentive) (sound : w.Sound) (idle : w.isIdle = true)
    (inside : t < w.loop.tasks.length) (going : w.loop.taskDone t = false) :
    ∃ c, w.loop.waits t = some c ∧ w.loop.outcome? c = none := by
  simp only [isIdle, Bool.and_eq_true, Option.isNone_iff_eq_none, List.isEmpty_iff] at idle
  rcases h t inside going with ⟨o, runs⟩ | known
  · rw [idle.1] at runs
    cases runs
  · exact known.waits_of_idle (sound.calm idle.1) idle.2

end LanguageClient.World
