import LanguageClient.Proofs.Client.Outcomes

/-!
Tasks that wait for a cell, and tasks that wait until what they have written is taken.
-/

namespace LanguageClient

open Schedule

namespace World

variable {may : Frame → Prop} {R : CellId → Prop} {t : TaskId} {c d : CellId} {w w' w₂ : World}
variable {f g : Frame} {rest begun below : List Frame} {flow : Flow Frame Result} {k : ConnectionId}
variable {o : Outcome Result} {ms : List Moment} {m : Moment}

/-- A task waits for a cell, or goes on with what has come of that, unless it has been cancelled. -/
inductive Heeds (w : World) (t : TaskId) (c : CellId) : Prop
  | waits (waits : w.loop.waits t = some c)
  | runs {o : Outcome Result} (runs : w.current = some (t, o))
    (outcome : o = .error .cancelled ∨ w.loop.outcome? c = some o)

theorem Heeds.of_next (next : Next t w (.await c g)) : w.Heeds t c := by
  rcases next with ⟨o, settled, runs, -⟩ | ⟨-, waits⟩
  · exact .runs runs (.inr settled)
  · exact .waits waits

theorem Heeds.next (h : w.Heeds t c) (sound : w.Sound) (moves : Moves may R w w') (busy : w.stack t ≠ []) :
    (w'.stack t = w.stack t ∧ w'.Heeds t c) ∨ ∃ f o rest begun flow w₂,
      Strides R w w' t f o rest begun flow w₂ ∧ (o = .error .cancelled ∨ w.loop.outcome? c = some o) := by
  cases sound.fate moves.move t with
  | ends ends => exact absurd ends.2 busy
  | begins new => exact absurd (stack_of_le new) busy
  | stays stack waits before =>
    cases h with
    | waits waits' => exact .inl ⟨stack, .waits (waits.trans waits')⟩
    | runs runs => exact absurd runs (before _)
  | @wakes waited o idle stack before _ runs outcome =>
    cases h with
    | runs runs' => cases runs'.symm.trans idle
    | waits waits =>
      refine .inl ⟨stack, .runs runs ?_⟩
      split at outcome
      · exact .inl outcome
      · cases before.symm.trans waits
        rcases outcome with ⟨none, -⟩ | ⟨d, same, settled⟩
        · cases none
        · cases same
          exact .inr (moves.moved.settles.outcome settled)
  | goes strides =>
    cases h with
    | waits waits =>
      have none := (sound.orderly.running t (by rw [strides.runs]; rfl)).2.1
      cases none.symm.trans waits
    | runs runs outcome =>
      cases strides.runs.symm.trans runs
      exact .inr ⟨_, _, _, _, _, _, strides, outcome⟩

/-- A cell that has just been made to be waited for. -/
theorem Typed.of_await (sound : m.world.Sound) (moves : Moves may R m.world w')
    (strides : Strides R m.world w' t f o rest begun (.await d g) w₂) (new : m.world.loop.cells.length ≤ d)
    (gives : ∀ r, m.world.Offers f r → r = .loose) : Typed (ms ++ [m]) w' .loose d :=
  .made sound moves.moved new (strides.kind sound rfl new) (fun r given => gives r (strides.gives given)) (by simp)

/-- A cell that nobody has a use for is settled with nothing, or cancelled. -/
theorem Typed.calm (loose : Typed ms w .loose d) (outcome : o = .error .cancelled ∨ w.loop.outcome? d = some o) :
    o = .error .cancelled ∨ ∃ r, o = .ok r := by
  rcases outcome with cancelled | settled
  · exact .inl cancelled
  · exact (loose.settled o settled).imp_right fun nothing => ⟨_, nothing⟩

/-- A task waits until what it has written is taken. -/
inductive Draining (ms : List Moment) (w : World) (t : TaskId) (k : ConnectionId) (below : List Frame) : Prop
  | drains {r : Result} (stack : w.stack t = .connection k .drain :: below) (runs : w.current = some (t, .ok r))
  | drained {r : Result} (stack : w.stack t = .connection k .drained :: below)
    (runs : w.current = some (t, .ok r))
  | waits {d : CellId} (stack : w.stack t = .connection k .drained :: below) (loose : Typed ms w .loose d)
    (heeds : w.Heeds t d)

theorem Draining.busy (h : Draining ms w t k below) : w.stack t ≠ [] := by
  cases h with
  | drains stack | drained stack | waits stack => exact stack ▸ List.cons_ne_nil _ _

section Step

variable (sound : m.world.Sound) (moves : Moves may R m.world w')

include sound moves

theorem Draining.of_drain {r : Result} (runs : m.Runs t (.connection k .drain) (.ok r) below) :
    Draining (ms ++ [m]) w' t k below := by
  obtain ⟨begun, flow, w₂, strides⟩ := sound.strides_of_runs moves.move runs
  have after := (strides.turn.piles (sound.running strides.runs) strides.lands).1
  have next := strides.lands.next
  have steps : { m.world with current := none }.drain k = (flow, w₂) := strides.steps
  unfold drain at steps
  dsimp only at steps
  split at steps
  · cases steps
    exact .waits after (.of_await sound moves strides (Nat.le_refl _) fun r loose => loose) (.of_next next)
  · cases steps
    exact .drained after next.1

/-- What has been written is taken, or cannot be any more. -/
theorem drained_on (runs : m.Runs t (.connection k .drained) o below)
    (calm : o = .error .cancelled ∨ ∃ r, o = .ok r) :
    w'.stack t = below ∧ ∃ o, w'.current = some (t, o) ∧ (o = .error .cancelled ∨ Sent o) := by
  obtain ⟨after, next⟩ := sound.runs_on moves.move runs
  rcases calm with rfl | ⟨r, rfl⟩
  · exact ⟨after, _, next.1, .inl rfl⟩
  · have comes : ∃ o', ({ m.world with current := none }.resume t (.connection k .drained) (.ok r)).1 = .done o' ∧
        Sent o' := by
      rcases drained_cases k { m.world with current := none } with breaks | ⟨-, flows⟩
      · exact ⟨_, breaks, .inr ⟨_, _, rfl⟩⟩
      · exact ⟨_, flows, .inl ⟨_, rfl⟩⟩
    obtain ⟨o', done, sent⟩ := comes
    rw [done] at after next
    exact ⟨after, o', next.1, .inr sent⟩

theorem Draining.next (h : Draining ms m.world t k below) (goes : m.Goes w') :
    Draining (ms ++ [m]) w' t k below ∨
      w'.stack t = below ∧ ∃ o, w'.current = some (t, o) ∧ (o = .error .cancelled ∨ Sent o) := by
  cases h with
  | drains stack runs => exact .inl (.of_drain sound moves ⟨runs, stack⟩)
  | drained stack runs => exact .inr (drained_on sound moves ⟨runs, stack⟩ (.inr ⟨_, rfl⟩))
  | waits stack loose heeds =>
    rcases heeds.next sound moves (stack ▸ List.cons_ne_nil _ _) with
      ⟨same, heeds⟩ | ⟨f, o, rest, begun, flow, w₂, strides, outcome⟩
    · exact .inl (.waits (same.trans stack) (loose.later goes sound moves.moved) heeds)
    · exact .inr (drained_on sound moves ⟨strides.runs, stack⟩ (loose.calm outcome))

end Step

end World
end LanguageClient
