import LanguageClient.World.Act

/-!
What comes of a world, whatever is done to it from outside and whenever. What holds of the first
world and is kept by steps, acts and time holds at every point of every run.
-/

namespace LanguageClient.World

open Schedule

/-- A run from a first world, with the acts taken so far. Acts come, and time passes, while no task
runs. -/
inductive Run (first : World) : List Act → World → Prop where
  | first : Run first [] first
  | step {acts : List Act} {w : World} (h : Run first acts w) : Run first acts w.step
  | take {acts : List Act} {w : World} (h : Run first acts w) (hw : w.current = none) (a : Act) :
    Run first (acts ++ [a]) (w.take a)
  | tick {acts : List Act} {w : World} (h : Run first acts w) (hw : w.current = none) :
    Run first acts w.tick
  | wait {acts : List Act} {w : World} (h : Run first acts w) (hw : w.current = none)
    {target : Time} (ht : w.isDueBy target = false) : Run first acts (w.waitUntil target)

/-- Worlds that come about when only some acts are taken. -/
def Reachable (allowed : Act → Prop) (first w : World) : Prop :=
  ∃ acts, Run first acts w ∧ ∀ a ∈ acts, allowed a

namespace Run

theorem settle {first w : World} {acts : List Act} (h : Run first acts w) (fuel : Nat) :
    Run first acts (w.settle fuel) := by
  induction fuel generalizing w with
  | zero => exact h
  | succ fuel ih =>
    rw [World.settle]
    split
    · exact h
    · exact ih h.step

theorem trans {first second w : World} {acts more : List Act} (h : Run first acts second)
    (h' : Run second more w) : Run first (acts ++ more) w := by
  induction h' with
  | first => simpa using h
  | step _ ih => exact ih.step
  | take _ hw a ih => simpa using ih.take hw a
  | tick _ hw ih => exact ih.tick hw
  | wait _ hw ht ih => exact ih.wait hw ht

end Run

namespace Reachable

theorem first (allowed : Act → Prop) (w : World) : Reachable allowed w w :=
  ⟨[], .first, by simp⟩

theorem take {allowed : Act → Prop} {first w : World} (h : Reachable allowed first w)
    (hw : w.current = none) {a : Act} (ha : allowed a) : Reachable allowed first (w.take a) := by
  obtain ⟨acts, h, hacts⟩ := h
  refine ⟨acts ++ [a], h.take hw a, fun b hb => ?_⟩
  rcases List.mem_append.1 hb with hb | hb
  · exact hacts b hb
  · exact List.mem_singleton.1 hb ▸ ha

theorem settle {allowed : Act → Prop} {first w : World} (h : Reachable allowed first w)
    (fuel : Nat) : Reachable allowed first (w.settle fuel) :=
  let ⟨acts, h, hacts⟩ := h
  ⟨acts, h.settle fuel, hacts⟩

end Reachable
end LanguageClient.World
