import LanguageClient.Proofs.World.Fate

/-!
The tasks of calls, whatever is called. Each begins where the call does, and goes on from there when it
gets its turn.
-/

namespace LanguageClient

open Schedule

/-- The task of a call begins where the call does. -/
theorem Moment.Goes.call {m : Moment} {w' : World} {c : Call} (h : m.Goes w')
    (act : m.act = some (.call c)) :
    m.world.current = none ∧ w'.stack m.world.nextTask = [c.frame] ∧
      w'.loop.tasks.length = m.world.nextTask + 1 := by
  cases h with
  | take idle a =>
    cases act
    refine ⟨idle, ?_, World.nextTask_take_call c _⟩
    simp [World.stack, World.take, World.nextTask, World.spawn, Loop.spawn, Loop.push, Loop.newCell]
  | _ => cases act

/-- The task of a call that is made, and no other, begins where the call does. -/
theorem Moment.Goes.fresh {m : Moment} {w' : World} {t : TaskId} {f : Frame} (h : m.Goes w')
    (begins : m.Begins f) (new : m.world.loop.tasks.length ≤ t) (stack : w'.stack t = [f]) :
    ∃ c, m.act = some (.call c) ∧ f = c.frame ∧ t = m.world.nextTask := by
  obtain ⟨c, act, rfl⟩ := begins
  refine ⟨c, act, rfl, Nat.le_antisymm ?_ new⟩
  have inside := World.lt_of_stack (f := c.frame) (stack ▸ List.mem_singleton_self _)
  rw [(h.call act).2.2] at inside
  exact Nat.le_of_lt_succ inside

namespace World

variable {may : Frame → Prop} {R : CellId → Prop} {t : TaskId} {w w' : World} {f : Frame}
variable {ms : List Moment} {m : Moment} {c : Call}

/-- A call has been made, and this is its task. -/
def Called (ms : List Moment) (t : TaskId) (c : Call) : Prop :=
  ∃ m ∈ ms, m.act = some (.call c) ∧ t = m.world.nextTask

theorem called_next :
    Called (ms ++ [m]) t c ↔ Called ms t c ∨ (m.act = some (.call c) ∧ t = m.world.nextTask) := by
  constructor
  · rintro ⟨m', member, act, task⟩
    rcases List.mem_append.1 member with old | last
    · exact .inl ⟨m', old, act, task⟩
    · cases List.mem_singleton.1 last
      exact .inr ⟨act, task⟩
  · rintro (⟨m', member, act, task⟩ | ⟨act, task⟩)
    · exact ⟨m', List.mem_append_left _ member, act, task⟩
    · exact ⟨m, List.mem_append_right _ (List.mem_singleton_self m), act, task⟩

theorem Called.later (h : Called ms t c) (m : Moment) : Called (ms ++ [m]) t c := called_next.2 (.inl h)

theorem Called.act (h : Called ms t c) : .call c ∈ acts ms := by
  obtain ⟨m, member, act, -⟩ := h
  exact List.mem_filterMap.2 ⟨m, member, act⟩

/-- The task of a call has not had its turn yet. -/
structure Unturned (w : World) (t : TaskId) (f : Frame) : Prop where
  stack : w.stack t = [f]
  waits : w.loop.waits t = none
  asleep : ∀ o, w.current ≠ some (t, o)

/-- The task of a call that is made waits for its turn. -/
theorem Sound.unturned_of_call (sound : m.world.Sound) (move : Move may R m.world w') (goes : m.Goes w')
    (act : m.act = some (.call c)) : w'.Unturned m.world.nextTask c.frame := by
  obtain ⟨idle, stack, -⟩ := goes.call act
  cases sound.fate move m.world.nextTask with
  | stays same | wakes _ same =>
    rw [stack_of_le (Nat.le_refl m.world.nextTask), stack] at same
    cases same
  | ends _ same =>
    rw [stack] at same
    cases same
  | goes strides => cases strides.runs.symm.trans idle
  | begins _ _ waits asleep => exact ⟨stack, waits, asleep⟩

/-- A task that begins in a step waits for its turn. -/
theorem Strides.unturned {g : Frame} {o : Outcome Result} {rest begun : List Frame}
    {flow : Flow Frame Result} {w₂ : World} {i : Nat} (strides : Strides R w w' t f o rest begun flow w₂)
    (sound : w.Sound) (place : begun[i]? = some g) :
    w.loop.tasks.length + i < w'.loop.tasks.length ∧ w'.Unturned (w.loop.tasks.length + i) g := by
  have running := sound.running strides.runs
  have other : w.loop.tasks.length + i ≠ t := by
    rintro rfl
    exact absurd running (Nat.not_lt.2 (Nat.le_add_right _ _))
  have grown : w₂.loop.tasks.length = w.loop.tasks.length + begun.length :=
    length_tasks_of_ops strides.turn.keeps.ops
  have same : w'.loop.tasks.length = w₂.loop.tasks.length := by
    rw [← length_piles, strides.lands.piles, List.length_set, length_piles]
  have inside : w.loop.tasks.length + i < w'.loop.tasks.length := by
    rw [same, grown]
    exact Nat.add_lt_add_left (List.getElem?_eq_some_iff.1 place).1 _
  refine ⟨inside, ?_, ?_, strides.lands.next.other other⟩
  · rcases (strides.turn.piles running strides.lands).2 _ other with ⟨old, -⟩ | ⟨-, g', place', stack⟩ | out
    · exact absurd old (Nat.not_lt.2 (Nat.le_add_right _ _))
    · have there : begun[w.loop.tasks.length + i - w.loop.tasks.length]? = some g' := place'
      rw [Nat.add_sub_cancel_left, place] at there
      cases there
      exact stack
    · exact absurd inside (Nat.not_lt.2 out)
  · have waits := (strides.lands.waits _ other).trans (strides.turn.keeps.ops.waits _)
    exact waits.trans (waits_of_le (Nat.le_add_right _ _))

/-- A call that gets its turn begins, unless it has been given up. -/
theorem Unturned.next (h : w.Unturned t f) (sound : w.Sound) (move : Move may R w w')
    (inside : t < w.loop.tasks.length) : w'.Unturned t f ∨
      w'.stack t = [f] ∧ ∃ o, w'.current = some (t, o) ∧ (o = .error .cancelled ∨ ∃ r, o = .ok r) := by
  cases sound.fate move t with
  | stays stack waits _ asleep => exact .inl ⟨stack.trans h.stack, waits.trans h.waits, asleep⟩
  | ends ends => exact absurd ends.1 (h.asleep _)
  | @wakes waited o _ stack before _ runs outcome =>
    refine .inr ⟨stack.trans h.stack, o, runs, ?_⟩
    -- it has waited for nothing, so that only a cancellation can be what it hears
    split at outcome
    · exact .inl outcome
    · rcases outcome with ⟨-, rfl⟩ | ⟨c, same, -⟩
      · exact .inr ⟨_, rfl⟩
      · cases h.waits.symm.trans (before.trans same)
  | begins new => exact absurd inside (Nat.not_lt.2 new)
  | goes strides => exact absurd strides.runs (h.asleep _)

end World
end LanguageClient
