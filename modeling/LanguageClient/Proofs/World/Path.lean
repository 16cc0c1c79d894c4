import LanguageClient.Proofs.World.Sound

/-!
Runs with their history: every world that there has been, and what was done to it from outside.
-/

namespace LanguageClient

open Schedule

/-- Not done by those who only use what there is: they give nobody up and take over no connection. -/
def Act.isTame : Act → Bool
  | .cancel _ | .listen .. => false
  | _ => true

/-- A world that is left, and what is done to it then from outside. -/
structure Moment where
  world : World
  act : Option Act

namespace Moment

/-- What comes of a moment. Acts come, and time passes, while no task runs. -/
inductive Goes : Moment → World → Prop
  | step (w : World) : Goes ⟨w, none⟩ w.step
  | take {w : World} (idle : w.current = none) (a : Act) : Goes ⟨w, some a⟩ (w.take a)
  | tick {w : World} (idle : w.current = none) : Goes ⟨w, none⟩ w.tick
  | wait {w : World} (idle : w.current = none) {target : Time} (h : w.isDueBy target = false) :
    Goes ⟨w, none⟩ (w.waitUntil target)

/-- The place at which the task of a call begins. -/
def Begins (m : Moment) (f : Frame) : Prop := ∃ c, m.act = some (.call c) ∧ f = c.frame

/-- A task goes on from the top of its stack. -/
def Runs (m : Moment) (t : TaskId) (f : Frame) (o : Outcome Result) (rest : List Frame) : Prop :=
  m.world.current = some (t, o) ∧ m.world.stack t = f :: rest

/-- A response to a request is read while that still waits for one. -/
def Tells (m : Moment) (k : ConnectionId) (id : Nat) (o : Outcome Result) : Prop :=
  ∃ t r f rest c, m.Runs t f (.ok r) rest ∧ m.world.Hears f k id o ∧
    (id, c) ∈ (m.world.connection k).pending ∧ m.world.loop.outcome? c = none

variable {m : Moment} {w' : World} {R : CellId → Prop}

/-- Nobody from outside begins to read. -/
theorem not_begins_read (m : Moment) (k : ConnectionId) : ¬ m.Begins (.connection k (.read .start)) := by
  rintro ⟨c, -, same⟩
  cases c <;> cases same

/-- All that is known of what comes of a moment, if nobody takes over a connection. -/
theorem Goes.covered (goes : m.Goes w') (sound : m.world.Sound) (covers : m.world.Covers R)
    (listens : ∀ a, m.act = some a → ∀ k owner, a ≠ .listen k owner)
    (cancels : ∀ t, m.act = some (.cancel t) → t < m.world.loop.tasks.length →
      R (m.world.loop.taskCell t)) : World.Moves m.Begins R m.world w' := by
  cases goes with
  | step w => exact World.step_moves sound covers
  | take idle a =>
    refine World.take_moves (sound.calm idle) idle (fun k owner same => ?_) (fun c same => ⟨c, ?_, rfl⟩)
      fun t same => cancels t (by rw [same])
    · exact absurd same (listens a rfl k owner)
    · rw [same]
  | tick idle => exact World.tick_moves (sound.calm idle) idle
  | wait idle _ => exact World.waitUntil_moves (sound.calm idle) idle _

theorem Goes.moves (h : m.Goes w') (sound : m.world.Sound) (covers : m.world.Covers R)
    (tame : ∀ a, m.act = some a → a.isTame = true) : World.Moves m.Begins R m.world w' := by
  refine h.covered sound covers (fun a act k owner same => ?_) fun t act => ?_
  · have bad := tame a act
    rw [same] at bad
    cases bad
  · cases tame _ act

theorem Goes.kept (goes : m.Goes w') (sound : m.world.Sound)
    (listens : ∀ a, m.act = some a → ∀ k owner, a ≠ .listen k owner) :
    World.Moves m.Begins (· < m.world.loop.cells.length) m.world w' :=
  goes.covered sound sound.covers listens fun _ _ inside => sound.inside inside

/-- A world stays sound as long as nobody takes over a connection. -/
theorem Goes.sound (goes : m.Goes w') (sound : m.world.Sound)
    (listens : ∀ a, m.act = some a → ∀ k owner, a ≠ .listen k owner) : w'.Sound := by
  refine sound.move (goes.kept sound listens) fun f begins => ?_
  obtain ⟨c, -, rfl⟩ := begins
  exact World.frame_first c

end Moment

/-- At one moment of a history, and at no other. -/
def Once (P : Moment → Prop) (ms : List Moment) : Prop :=
  ∃ before m after, ms = before ++ m :: after ∧ P m ∧ ∀ m' ∈ before ++ after, ¬ P m'

namespace Once

variable {P : Moment → Prop} {ms : List Moment} {m : Moment}

theorem now (never : ∀ m' ∈ ms, ¬ P m') (h : P m) : Once P (ms ++ [m]) :=
  ⟨ms, m, [], rfl, h, by simpa using never⟩

theorem later (h : Once P ms) (other : ¬ P m) : Once P (ms ++ [m]) := by
  obtain ⟨before, m', after, rfl, holds, never⟩ := h
  refine ⟨before, m', after ++ [m], by simp, holds, fun x hx => ?_⟩
  rw [← List.append_assoc] at hx
  rcases List.mem_append.1 hx with old | last
  · exact never x old
  · exact List.mem_singleton.1 last ▸ other

end Once

theorem never_next {P : Moment → Prop} {ms : List Moment} {m : Moment} (never : ∀ m' ∈ ms, ¬ P m')
    (other : ¬ P m) : ∀ m' ∈ ms ++ [m], ¬ P m' :=
  List.forall_mem_append.2 ⟨never, List.forall_mem_singleton.2 other⟩

namespace World

/-- The history of a world that has come of another, the first moment first. -/
inductive Path (first : World) : List Moment → World → Prop
  | first : Path first [] first
  | next {ms : List Moment} {m : Moment} {w : World} (h : Path first ms m.world) (goes : m.Goes w) :
    Path first (ms ++ [m]) w

/-- What has been done from outside, in order. -/
def acts (ms : List Moment) : List Act := ms.filterMap (·.act)

theorem acts_next (ms : List Moment) (m : Moment) : acts (ms ++ [m]) = acts ms ++ m.act.toList := by
  rw [acts, List.filterMap_append, ← acts]
  cases act : m.act <;> simp [act]

/-- A response to a request has been read in time. -/
def Told (ms : List Moment) (k : ConnectionId) (id : Nat) (o : Outcome Result) : Prop :=
  ∃ m ∈ ms, m.Tells k id o

/-- The moments at which a world settles, as far as the steps go. -/
def track (fuel : Nat) (w : World) : List Moment :=
  match fuel with
  | 0 => []
  | fuel + 1 => if w.isIdle then [] else ⟨w, none⟩ :: w.step.track fuel

/-- Every run has a history. -/
theorem run_iff_path {first w : World} {done : List Act} :
    Run first done w ↔ ∃ ms, Path first ms w ∧ acts ms = done := by
  constructor
  · intro run
    induction run with
    | first => exact ⟨[], .first, rfl⟩
    | step _ ih =>
      obtain ⟨ms, path, rfl⟩ := ih
      exact ⟨_, .next path (.step _), by simp [acts]⟩
    | take _ idle a ih =>
      obtain ⟨ms, path, rfl⟩ := ih
      exact ⟨_, .next path (.take idle a), by simp [acts]⟩
    | tick _ idle ih =>
      obtain ⟨ms, path, rfl⟩ := ih
      exact ⟨_, .next path (.tick idle), by simp [acts]⟩
    | wait _ idle h ih =>
      obtain ⟨ms, path, rfl⟩ := ih
      exact ⟨_, .next path (.wait idle h), by simp [acts]⟩
  · rintro ⟨ms, path, rfl⟩
    induction path with
    | first => exact .first
    | next _ goes ih =>
      rw [acts, List.filterMap_append, ← acts]
      cases goes with
      | step w => simpa using ih.step
      | take idle a => simpa using ih.take idle a
      | tick idle => simpa using ih.tick idle
      | wait idle h => simpa using ih.wait idle h

namespace Path

variable {first w : World} {ms : List Moment}

/-- What every moment of a history keeps holds at its end. -/
theorem keeps (h : Path first ms w) {I : List Moment → World → Prop} (begins : I [] first)
    (next : ∀ ms m w', Path first ms m.world → I ms m.world → m.Goes w' → I (ms ++ [m]) w') :
    I ms w := by
  induction h with
  | first => exact begins
  | next h goes ih => exact next _ _ _ h ih goes

theorem take (path : Path first ms w) (idle : w.current = none) (a : Act) :
    Path first (ms ++ [⟨w, some a⟩]) (w.take a) :=
  .next (m := ⟨w, some a⟩) path (.take idle a)

theorem settle (path : Path first ms w) (fuel : Nat) :
    Path first (ms ++ w.track fuel) (w.settle fuel) := by
  induction fuel generalizing ms w with
  | zero => simpa [track, World.settle] using path
  | succ fuel ih =>
    rw [track, World.settle]
    split
    · rwa [List.append_nil]
    · rw [List.append_cons]
      exact ih (.next (m := ⟨w, none⟩) path (.step w))

/-- A history that goes on to another has been one itself. -/
theorem within (path : Path first ms w) {before : List Moment} {m : Moment}
    (h : before ++ [m] <+: ms) : Path first before m.world ∧ ∃ w', m.Goes w' := by
  induction path with
  | first => cases List.append_eq_nil_iff.1 (List.prefix_nil.1 h) |>.2
  | @next ms m' w' earlier goes ih =>
    rcases List.prefix_concat_iff.1 h with same | shorter
    · obtain ⟨rfl, last⟩ := List.append_inj' same rfl
      cases last
      exact ⟨earlier, _, goes⟩
    · exact ih shorter

/-- What a path has come to at one of its moments. -/
theorem split (path : Path first ms w) {m : Moment} (member : m ∈ ms) :
    ∃ before after, ms = before ++ m :: after ∧ Path first before m.world := by
  obtain ⟨before, after, same⟩ := List.append_of_mem member
  exact ⟨before, after, same, (path.within ⟨after, by simp [same]⟩).1⟩

/-- Worlds stay sound as long as nobody takes over a connection. -/
theorem sound (path : Path first ms w) (sound : first.Sound)
    (listens : ∀ a ∈ acts ms, ∀ k owner, a ≠ .listen k owner) : w.Sound := by
  refine path.keeps (I := fun ms w => (∀ a ∈ acts ms, ∀ k owner, a ≠ .listen k owner) → w.Sound)
    (fun _ => sound) (fun ms m w' _ ih goes all => ?_) listens
  rw [acts_next] at all
  exact goes.sound (ih fun a ha => all a (List.mem_append_left _ ha)) fun a ha =>
    all a (List.mem_append_right _ (by simp [ha]))

end Path
end World
end LanguageClient
