import LanguageClient.Proofs.Schedule.Kind

/-!
Nobody is forgotten: whoever does not run goes on with a job at hand, or is woken by the cell that it
waits for.
-/

namespace LanguageClient.Schedule

variable {φ ρ κ : Type}

namespace Loop

/-- A job goes on with a task, or a cell will have it go on. -/
inductive Attends (l : Loop φ ρ κ) (t : TaskId) : Prop
  | ready (waited : Option CellId) (h : .resume t waited ∈ l.ready)
  | watched (c : CellId) (cell : Cell ρ κ) (h : l.cells[c]? = some cell) (h' : .task t ∈ cell.wakers)

namespace Attends

variable {may : Outcome ρ → Prop} {reach : CellId → Prop} {guards : Prop} {begun : List φ}
variable {l l' : Loop φ ρ κ} {t : TaskId} {c : CellId}

theorem aside (h : l.Attends t) (cells : l'.cells = l.cells) (ready : l.ready ⊆ l'.ready) :
    l'.Attends t := by
  cases h with
  | ready waited h => exact .ready waited (ready h)
  | watched d cell h h' => exact .watched d cell (cells ▸ h) h'

theorem settle (h : l.Attends t) (c : CellId) (o : Outcome ρ) : (l.settle c o).Attends t := by
  unfold Loop.settle
  split
  · next source wakers found =>
    cases h with
    | ready waited h => exact .ready waited (List.mem_append_left _ h)
    | watched d cell h h' =>
      by_cases same : c = d
      · subst same
        rw [found] at h
        cases h
        exact .ready (some c) (List.mem_append_right _ (List.mem_map_of_mem (f := Waker.job c) h'))
      · exact .watched d cell ((List.getElem?_set_ne same).trans h) h'
  · exact h

theorem watch (h : l.Attends t) (c : CellId) (waker : Waker κ) : (l.watch c waker).Attends t := by
  unfold Loop.watch
  split
  · next source wakers found =>
    have inside : c < l.cells.length := (List.getElem?_eq_some_iff.1 found).1
    cases h with
    | ready waited h => exact .ready waited h
    | watched d cell h h' =>
      by_cases same : c = d
      · subst same
        rw [found] at h
        cases h
        exact .watched c _ (List.getElem?_set_self inside) (List.mem_append_left _ h')
      · exact .watched d cell ((List.getElem?_set_ne same).trans h) h'
  · exact h.aside rfl (List.subset_append_left _ _)

/-- Whoever waits for a cell is woken by it. -/
theorem watches (inside : c < l.cells.length) : (l.watch c (.task t)).Attends t := by
  unfold Loop.watch
  split
  · exact .watched c _ (List.getElem?_set_self inside) (List.mem_append_right _ List.mem_cons_self)
  · exact .ready (some c) (List.mem_append_right _ List.mem_cons_self)

theorem setSource (h : l.Attends t) (c : CellId) (source : Source) :
    (l.setSource c source).Attends t := by
  cases h with
  | ready waited h => exact .ready waited h
  | watched d cell h h' =>
    by_cases same : c = d
    · refine .watched d { cell with source := source } ?_ h'
      simp [Loop.setSource, h, same]
    · refine .watched d cell ?_ h'
      simp [Loop.setSource, h, same]

theorem newCell (h : l.Attends t) (source : Source) : (l.newCell source).2.Attends t := by
  cases h with
  | ready waited h => exact .ready waited h
  | watched d cell h h' =>
    refine .watched d cell ?_ h'
    exact (List.getElem?_append_left (List.getElem?_eq_some_iff.1 h).1).trans h

theorem countDown (h : l.Attends t) (c : CellId) (ok : ρ) : (l.countDown c ok).Attends t := by
  unfold Loop.countDown
  dsimp only
  split
  · split
    · exact h.setSource c _
    · exact (h.setSource c _).settle c _
  · split
    · exact h.setSource c _
    · exact (h.setSource c _).settle c _
  · exact h

theorem cancel (h : l.Attends t) (c : CellId) : (l.cancel c).2.Attends t := by
  refine cancel_keeps (motive := fun l => l.Attends t) ?_ ?_ ?_ c h
  · intro l d before
    exact before.settle d _
  · intro l u f _ _ before
    exact before.aside rfl (List.Subset.refl _)
  · intro l d source before
    exact before.setSource d source

theorem op (h : l.Attends t) (step : Op may reach guards l l') : l'.Attends t := by
  cases step with
  | newCell source => exact h.newCell source
  | settle c o => exact h.settle c o
  | watch c waker => exact h.watch c waker
  | push job => exact h.aside rfl (List.subset_append_left _ _)
  | mark => exact h.aside rfl (List.Subset.refl _)
  | countDown c ok => exact h.countDown c ok
  | cancel c => exact h.cancel c
  | clock => exact h.aside rfl (List.Subset.refl _)

theorem spawn (h : l.Attends t) (f : φ) : (l.spawn f).2.Attends t :=
  (h.newCell (.task l.tasks.length)).aside rfl (List.subset_append_left _ _)

theorem spawned (f : φ) (l : Loop φ ρ κ) : (l.spawn f).2.Attends l.tasks.length :=
  .ready none (List.mem_append_right _ List.mem_cons_self)

theorem ops (h : l.Attends t) (steps : Ops may reach guards begun l l') : l'.Attends t := by
  induction steps with
  | refl => exact h
  | tail _ step ih => exact (ih h).op step
  | spawn _ f ih => exact (ih h).spawn f

/-- Nor are those forgotten that have just begun. -/
theorem of_begun (steps : Ops may reach guards begun l l') (new : l.tasks.length ≤ t)
    (inside : t < l'.tasks.length) : l'.Attends t := by
  induction steps with
  | refl => exact absurd inside (Nat.not_lt.2 new)
  | tail _ step ih =>
    rw [length_tasks_of_places step.places] at inside
    exact (ih new inside).op step
  | @spawn _ _ l' _ f ih =>
    have grown : (l'.spawn f).2.tasks.length = l'.tasks.length + 1 := by
      simp [Loop.spawn, Loop.push, Loop.newCell]
    rw [grown] at inside
    rcases Nat.lt_succ_iff_lt_or_eq.1 inside with old | rfl
    · exact (ih new old).spawn f
    · exact spawned f l'

/-- Another job has been carried out. -/
theorem pop {job : Job κ} {rest : List (Job κ)} (h : l.Attends t) (ready : l.ready = job :: rest)
    (other : ∀ waited, job ≠ .resume t waited) : { l with ready := rest }.Attends t := by
  cases h with
  | ready waited h =>
    rw [ready] at h
    rcases List.mem_cons.1 h with same | later
    · exact absurd same.symm (other waited)
    · exact .ready waited later
  | watched d cell h h' => exact .watched d cell h h'

/-- Whoever does not go on waits for a cell that is not settled. -/
theorem waits_of_idle (h : l.Attends t) (orderly : l.Orderly none) (idle : l.ready = []) :
    ∃ c, l.waits t = some c ∧ l.outcome? c = none := by
  cases h with
  | ready waited h =>
    rw [idle] at h
    cases h
  | watched c cell h h' =>
    obtain ⟨waits, unsettled⟩ := orderly.watching c cell t h h'
    refine ⟨c, waits, ?_⟩
    rw [Loop.outcome?, h]
    exact unsettled

end Attends
end Loop
end LanguageClient.Schedule
