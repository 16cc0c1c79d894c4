import LanguageClient.Proofs.Schedule.Orderly

/-!
Which cells the loop itself will settle: those that a timer, a job or something that waits for
another cell will release. Operations on other cells add none.
-/

namespace LanguageClient.Schedule

variable {φ ρ κ : Type}

/-- The cell that is released, or counted down, once what this waits for is settled. -/
def Waker.released? : Waker κ → Option CellId
  | .release c | .member c => some c
  | .task _ | .call _ => none

def Job.released? : Job κ → Option CellId
  | .release c | .member c => some c
  | .resume _ _ | .call _ | .fire _ => none

theorem Waker.released?_job (waker : Waker κ) (c : CellId) :
    (waker.job c).released? = waker.released? := by
  cases waker <;> rfl

namespace Loop

inductive Holds (l : Loop φ ρ κ) (c : CellId) : Prop
  | alarm (timer : Timer) (h : timer ∈ l.timers) (h' : timer.alarm = .release c)
  | waker (d : CellId) (cell : Cell ρ κ) (waker : Waker κ) (h : l.cells[d]? = some cell)
    (h' : waker ∈ cell.wakers) (same : waker.released? = some c)
  | job (job : Job κ) (h : job ∈ l.ready) (h' : job.released? = some c)

namespace Holds

variable {l l' : Loop φ ρ κ} {c d : CellId}

theorem settle {o : Outcome ρ} (h : (l.settle d o).Holds c) : l.Holds c := by
  unfold Loop.settle at h
  split at h
  · next source wakers found =>
    have hd : d < l.cells.length := (List.getElem?_eq_some_iff.1 found).1
    cases h with
    | alarm timer h h' => exact .alarm timer h h'
    | waker e cell waker h h' same =>
      by_cases hde : d = e
      · subst hde
        simp only [List.getElem?_set_self hd, Option.some.injEq] at h
        subst h
        cases h'
      · simp only [List.getElem?_set_ne hde] at h
        exact .waker e cell waker h h' same
    | job job h h' =>
      rcases List.mem_append.1 h with h | h
      · exact .job job h h'
      · obtain ⟨waker, hw, rfl⟩ := List.mem_map.1 h
        rw [Waker.released?_job] at h'
        exact .waker d _ waker found hw h'
  · exact h

theorem setTask {t : TaskId} {f : TaskState φ → TaskState φ} (h : (l.setTask t f).Holds c) :
    l.Holds c := by
  cases h with
  | alarm timer h h' => exact .alarm timer h h'
  | waker e cell waker h h' same => exact .waker e cell waker h h' same
  | job job h h' => exact .job job h h'

theorem setSource {source : Source} (h : (l.setSource d source).Holds c) : l.Holds c := by
  cases h with
  | alarm timer h h' => exact .alarm timer h h'
  | waker e cell waker h h' same =>
    simp only [Loop.setSource, List.getElem?_modify] at h
    obtain ⟨old, found, rfl⟩ := Option.map_eq_some_iff.1 h
    refine .waker e old waker found ?_ same
    by_cases hde : d = e
    · simpa [hde] using h'
    · simpa [hde] using h'
  | job job h h' => exact .job job h h'

theorem newCell {source : Source} (h : (l.newCell source).2.Holds c) : l.Holds c := by
  cases h with
  | alarm timer h h' => exact .alarm timer h h'
  | waker e cell waker h h' same =>
    rw [Loop.newCell] at h
    by_cases hl : e < l.cells.length
    · rw [List.getElem?_append_left hl] at h
      exact .waker e cell waker h h' same
    · rw [List.getElem?_append_right (Nat.le_of_not_lt hl)] at h
      rw [List.mem_singleton.1 (List.mem_of_getElem? h)] at h'
      cases h'
  | job job h h' => exact .job job h h'

theorem push {job : Job κ} (h : (l.push job).Holds c) : l.Holds c ∨ job.released? = some c := by
  cases h with
  | alarm timer h h' => exact .inl (.alarm timer h h')
  | waker e cell waker h h' same => exact .inl (.waker e cell waker h h' same)
  | job other h h' =>
    rcases List.mem_append.1 h with h | h
    · exact .inl (.job other h h')
    · rw [List.mem_singleton.1 h] at h'
      exact .inr h'

theorem watch {waker : Waker κ} (h : (l.watch d waker).Holds c) :
    l.Holds c ∨ waker.released? = some c := by
  unfold Loop.watch at h
  split at h
  · next source wakers found =>
    have hd : d < l.cells.length := (List.getElem?_eq_some_iff.1 found).1
    cases h with
    | alarm timer h h' => exact .inl (.alarm timer h h')
    | waker e cell other h h' same =>
      by_cases hde : d = e
      · subst hde
        simp only [List.getElem?_set_self hd, Option.some.injEq] at h
        subst h
        rcases List.mem_append.1 h' with h' | h'
        · exact .inl (.waker d _ other found h' same)
        · rw [List.mem_singleton.1 h'] at same
          exact .inr same
      · simp only [List.getElem?_set_ne hde] at h
        exact .inl (.waker e cell other h h' same)
    | job job h h' => exact .inl (.job job h h')
  · rcases push h with h | h
    · exact .inl h
    · rw [Waker.released?_job] at h
      exact .inr h

theorem countDown {ok : ρ} (h : (l.countDown d ok).Holds c) : l.Holds c := by
  unfold Loop.countDown at h
  dsimp only at h
  split at h
  · split at h
    · exact h.setSource
    · exact h.settle.setSource
  · split at h
    · exact h.setSource
    · exact h.settle.setSource
  · exact h

theorem cancel (h : (l.cancel d).2.Holds c) : l.Holds c := by
  refine cancel_keeps (motive := fun l' => l'.Holds c → l.Holds c) ?_ ?_ ?_ d (fun h => h) h
  · exact fun l' e before h => before h.settle
  · exact fun l' t f _ _ before h => before h.setTask
  · exact fun l' e source before h => before h.setSource

theorem spawn {f : φ} (h : (l.spawn f).2.Holds c) : l.Holds c := by
  have pushed : (((l.newCell (.task l.tasks.length)).2).push (.resume l.tasks.length none)).Holds c := by
    cases h with
    | alarm timer h h' => exact .alarm timer h h'
    | waker e cell waker h h' same => exact .waker e cell waker h h' same
    | job job h h' => exact .job job h h'
  rcases push pushed with h | h
  · exact h.newCell
  · cases h

end Holds

end Loop
end LanguageClient.Schedule
