import LanguageClient.Proofs.Client.Calls
import LanguageClient.Proofs.Roster.Apart
import LanguageClient.Proofs.Roster.Sharing
import LanguageClient.Proofs.World.Attentive

/-!
However many calls for the session of a key there are, and whenever their turns come: all of them come to
the one session that the first has made.
-/

namespace LanguageClient

open Schedule

/-- Nothing happens to the session of a key at this moment but its launch; nobody starts it by hand, or
takes over a connection. -/
structure Moment.Undisturbed (m : Moment) (key : String) : Prop extends m.Smooth key where
  listens : ∀ k owner, m.act ≠ some (.listen k owner)
  starts : ∀ s, m.act = some (.call (.startSession s)) →
    s < m.world.sessions.length ∧ (m.world.session s).key ≠ key

namespace Moment

variable {m : Moment} {key : String}

/-- A task is at work. -/
def At (m : Moment) (t : TaskId) : Prop := ∃ o, m.world.current = some (t, o)

end Moment

namespace World

variable {may : Frame → Prop} {R : CellId → Prop} {t u : TaskId} {w w' w₂ : World}
variable {o : Outcome Result} {s : SessionId} {key : String} {root : Option Root} {r : Result}
variable {m : Moment} {ms : List Moment}

/-- The task of a call has been cancelled before its turn. -/
def Withdrawn (ms : List Moment) (t : TaskId) (root : Option Root) : Prop :=
  ∃ m ∈ ms, m.act = some (.cancel t) ∧ m.world.stack t = [.roster (.ensure root)]

/-- How far a call for a session has come. -/
inductive Fares (ms : List Moment) (w : World) (t : TaskId) (root : Option Root) : Prop
  | waits (stack : w.stack t = [.roster (.ensure root)]) (apart : w.Apart t)
    (unwaited : w.loop.waits t = none) (still : ∀ o, w.current ≠ some (t, o))
  | turn {r : Result} (stack : w.stack t = [.roster (.ensure root)]) (runs : w.current = some (t, .ok r))
  | launches {s : SessionId}
    (last : (w.stack t).getLast? = some (.roster (.sessionStarted (Session.keyOf root) s)))
  | returned {o : Outcome Result} (told : ∃ m ∈ ms, m.Returns (Session.keyOf root) o ∧ m.At t)
    (ends : w.Returned t o)
  | withdrawn (h : Withdrawn ms t root)

theorem Withdrawn.later (h : Withdrawn ms t root) (m : Moment) : Withdrawn (ms ++ [m]) t root :=
  let ⟨m', member, withdrawn⟩ := h
  ⟨m', List.mem_append_left _ member, withdrawn⟩

/-- Who hears of a launch comes to an end with that. -/
theorem sessionStarted_done (key : String) (s : SessionId) (o : Outcome Result) (w : World) :
    ∃ o', (w.sessionStarted key s o).1 = .done o' := by
  unfold sessionStarted
  split
  · split <;> exact ⟨_, rfl⟩
  · exact ⟨_, rfl⟩
  · exact ⟨_, rfl⟩

section Step

variable (sound : m.world.Sound) (moves : Moves may R m.world w')

include sound moves in
/-- A call that has got its turn comes to an end at once, or launches a session. -/
theorem Fares.turns (stack : m.world.stack t = [.roster (.ensure root)])
    (runs : m.world.current = some (t, .ok r)) : Fares (ms ++ [m]) w' t root := by
  have runs : m.Runs t (.roster (.ensure root)) (.ok r) [] := ⟨runs, stack⟩
  obtain ⟨begun, flow, w₂, strides⟩ := sound.strides_of_runs moves.move runs
  have after := (strides.turn.piles (sound.running strides.runs) strides.lands).1
  have steps : { m.world with current := none }.ensure root = (flow, w₂) := strides.steps
  have next := strides.lands.next
  rcases ensure_cases root { m.world with current := none } with ⟨o, done⟩ | ⟨s, calls⟩
  · have here : m.Returns (Session.keyOf root) o :=
      ⟨t, _, _, [], runs, .inl ⟨root, r, rfl, rfl, rfl⟩, done⟩
    rw [steps] at done
    subst done
    exact .returned ⟨m, List.mem_append_right _ (List.mem_singleton_self m), here, _, runs.1⟩
      (.inl ⟨next.1, after⟩)
  · rw [steps] at calls
    subst calls
    exact .launches (congrArg List.getLast? after)

include sound moves in
theorem Fares.goes_on (last : (m.world.stack t).getLast? =
    some (.roster (.sessionStarted (Session.keyOf root) s))) : Fares (ms ++ [m]) w' t root := by
  rcases sound.last_cases moves.move last with last' | ⟨o, begun, flow, w₂, strides, stack⟩
  · exact .launches last'
  · have steps : { m.world with current := none }.sessionStarted (Session.keyOf root) s o = (flow, w₂) :=
      strides.steps
    obtain ⟨o', done⟩ := sessionStarted_done (Session.keyOf root) s o { m.world with current := none }
    have here : m.Returns (Session.keyOf root) o' :=
      ⟨t, _, _, [], ⟨strides.runs, strides.top⟩, .inr ⟨s, rfl⟩, done⟩
    rw [steps] at done
    subst done
    exact .returned ⟨m, List.mem_append_right _ (List.mem_singleton_self m), here, _, strides.runs⟩
      (.inl ⟨strides.lands.next.1, stack⟩)

include sound moves in
theorem Fares.next (h : Fares ms m.world t root) (goes : m.Goes w') (inside : t < m.world.loop.tasks.length)
    (listens : ∀ a, m.act = some a → ∀ k owner, a ≠ .listen k owner) : Fares (ms ++ [m]) w' t root := by
  have last : m ∈ ms ++ [m] := List.mem_append_right _ (List.mem_singleton_self m)
  cases h with
  | withdrawn h => exact .withdrawn (h.later m)
  | launches last => exact .goes_on sound moves last
  | turn stack runs => exact .turns sound moves stack runs
  | returned told ends =>
    obtain ⟨m', member, returns⟩ := told
    exact .returned ⟨m', List.mem_append_left _ member, returns⟩ (.inr (Returned.later ends moves inside))
  | waits stack apart unwaited still =>
    -- nobody knows of the task, so only from outside can it be cancelled before its turn
    by_cases cancelled : m.act = some (.cancel t)
    · exact .withdrawn ⟨m, last, cancelled, stack⟩
    · cases sound.fate moves.move t with
      | stays stack' waits _ asleep =>
        have apart' := apart.next sound goes listens (fun _ => cancelled) still asleep
          fun new => absurd inside (Nat.not_lt.2 new)
        exact .waits (stack'.trans stack) apart' (waits.trans unwaited) asleep
      | ends ends => exact absurd ends.1 (still _)
      | @wakes waited o _ stack' before _ runs outcome =>
        rw [apart.loop.due] at outcome
        rcases outcome with ⟨-, rfl⟩ | ⟨c, same, -⟩
        · exact .turn (stack'.trans stack) runs
        · rw [unwaited, same] at before
          cases before
      | begins new => exact absurd inside (Nat.not_lt.2 new)
      | goes strides => exact absurd strides.runs (still _)

end Step

/-- All that is known of the calls for some of the roots, whatever else happens. -/
structure Traced (asked : Option Root → Prop) (ms : List Moment) (w : World) : Prop where
  sound : w.Sound
  /-- Nobody knows of tasks that are yet to come. -/
  unborn : ∀ t, w.loop.tasks.length ≤ t → w.Apart t
  calls : ∀ t root, Called ms t (.ensure root) → asked root → t < w.loop.tasks.length ∧ Fares ms w t root

theorem Traced.next {asked : Option Root → Prop} (h : Traced asked ms m.world) (goes : m.Goes w')
    (listens : ∀ a, m.act = some a → ∀ k owner, a ≠ .listen k owner) : Traced asked (ms ++ [m]) w' := by
  have sound := h.sound
  have moves := goes.kept sound listens
  have sound' : w'.Sound := goes.sound sound listens
  have absent {w : World} (sound : w.Sound) {t : TaskId} (new : w.loop.tasks.length ≤ t)
      (o : Outcome Result) : w.current ≠ some (t, o) := fun runs =>
    absurd (sound.running runs) (Nat.not_lt.2 new)
  refine ⟨sound', fun t out => ?_, fun t root called same => ?_⟩
  · have new := Nat.le_trans moves.moved.tasks out
    exact (h.unborn t new).next sound goes listens (fun inside => absurd inside (Nat.not_lt.2 new))
      (absent sound new) (absent sound' out) fun _ => .inl out
  -- a call has been made before, or is made at this moment and then has the next task
  · rcases called_next.1 called with old | ⟨act, rfl⟩
    · obtain ⟨inside, fares⟩ := h.calls t root old same
      exact ⟨Nat.lt_of_lt_of_le inside moves.moved.tasks, fares.next sound moves goes inside listens⟩
    · obtain ⟨idle, stack, count⟩ := goes.call act
      have new : m.world.loop.tasks.length ≤ m.world.nextTask := Nat.le_refl _
      obtain ⟨-, waits, asleep⟩ := sound.unturned_of_call moves.move goes act
      have apart := (h.unborn _ new).next sound goes listens (fun inside => absurd inside (Nat.not_lt.2 new))
        (absent sound new) asleep fun _ => .inr ⟨_, act⟩
      exact ⟨count ▸ Nat.lt_succ_self _, .waits stack apart waits asleep⟩

/-- All that is known of the calls for a key in an undisturbed history. -/
structure Concurrent (key : String) (ms : List Moment) (w : World) : Prop where
  sound : w.Sound
  attentive : w.Attentive
  known : w.Known
  sharing : Unsought key ms w ∨ ∃ s, Shared key s ms w
  /-- Nobody knows of tasks that are yet to come. -/
  unborn : ∀ t, w.loop.tasks.length ≤ t → w.Apart t
  calls : ∀ t root, Called ms t (.ensure root) → Session.keyOf root = key →
    t < w.loop.tasks.length ∧ Fares ms w t root

theorem Concurrent.next (h : Concurrent key ms m.world) (goes : m.Goes w') (quiet : m.Undisturbed key)
    (lives : w'.Lives key) : Concurrent key (ms ++ [m]) w' := by
  have listens (a : Act) (act : m.act = some a) (k : ConnectionId) (owner : Connection.Owner) :
      a ≠ .listen k owner := fun same => quiet.listens k owner (same ▸ act)
  have first (g : Frame) (begins : m.Begins g) (s : SessionId) (launches : g.launches s = true) :
      g = .session s .start ∧ s < m.world.sessions.length ∧ (m.world.session s).key ≠ key := by
    obtain ⟨c, act, rfl⟩ := begins
    obtain rfl := Frame.of_launches_call launches
    exact ⟨rfl, quiet.starts s act⟩
  have sound := h.sound
  have moves := goes.kept sound listens
  have traced : Traced (fun root => Session.keyOf root = key) ms m.world := ⟨sound, h.unborn, h.calls⟩
  obtain ⟨sound', unborn, calls⟩ := traced.next goes listens
  exact ⟨sound', moves.move.attentive sound moves.moved h.attentive, h.known.move sound moves.move
      (fun g begins s launches => ⟨(first g begins s launches).1, (first g begins s launches).2.1⟩),
    sharing_next sound moves.move quiet.toSmooth lives h.sharing h.known
      (fun g begins s launches => (first g begins s launches).2), unborn, calls⟩

/-- A task is to hear what comes of the launch of a session, and no other is. -/
def Expects (w : World) (key : String) (s : SessionId) (t : TaskId) : Prop :=
  ∀ u, .roster (.sessionStarted key s) ∈ w.stack u ↔ u = t

theorem Progress.started (h : Progress key s ms w) : Once (·.Starts s) ms ∨ (∀ m ∈ ms, ¬ m.Starts s) ∧
    ∃ t r rest, w.current = some (t, .ok r) ∧ w.stack t = .session s .start :: rest := by
  cases h with
  | made runs stack _ _ _ unstarted => exact .inr ⟨unstarted, _, _, _, runs, stack⟩
  | goes _ _ _ started => exact .inl started
  | ended _ _ started => exact .inl started

theorem Progress.hooked (h : Progress key s ms w) :
    (Once (·.Hooks s) ms ∧ ∀ t, .roster (.sessionStarted key s) ∉ w.stack t) ∨
      (∀ m ∈ ms, ¬ m.Hooks s) ∧ ∃ t, w.Expects key s t := by
  have only {t : TaskId} (there : .roster (.sessionStarted key s) ∈ w.stack t)
      (others : ∀ u, u ≠ t → ∀ g ∈ w.stack u, g.launches s = false) : w.Expects key s t := by
    refine fun u => ⟨fun also => Decidable.byContradiction fun other => ?_, fun same => same ▸ there⟩
    exact Bool.false_ne_true ((others u other _ also).symm.trans (Frame.launches_told key))
  cases h with
  | made _ stack _ _ others _ unhooked => exact .inr ⟨unhooked, _, only (by simp [stack]) others⟩
  | goes launch _ others _ unhooked =>
    refine .inr ⟨unhooked, _, only ?_ others⟩
    cases launch with
    | goes stack => simp [stack]
    | returns _ stack => simp [stack]
  | ended clear _ _ hooked =>
    refine .inl ⟨hooked, fun t there => ?_⟩
    exact Bool.false_ne_true ((clear t _ there).symm.trans (Frame.launches_told key))

namespace Concurrent

variable (h : Concurrent key ms w) (called : Called ms t (.ensure root)) (same : Session.keyOf root = key)

include h in
theorem going {f : Frame} (hf : f ∈ w.stack t) : w.loop.taskDone t = false :=
  Bool.eq_false_iff.2 fun done => List.ne_nil_of_mem hf (((h.sound.done t (lt_of_stack hf)).1 done).1)

include h called same in
/-- A call comes to an end by coming to a session, unless it has been withdrawn. -/
theorem ended (settled : w.loop.outcome? (w.loop.taskCell t) = some o) :
    (∃ m ∈ ms, m.Returns key o) ∨ Withdrawn ms t root := by
  have done : w.loop.taskDone t = true := Option.isSome_iff_exists.2 ⟨o, settled⟩
  have busy {f : Frame} (hf : f ∈ w.stack t) {p : Prop} : p :=
    absurd ((h.going hf).symm.trans done) Bool.false_ne_true
  subst same
  cases (h.calls t root called rfl).2 with
  | waits stack | turn stack => exact busy (stack ▸ List.mem_singleton_self _)
  | launches last => exact busy (List.mem_of_getLast? last)
  | returned told ends =>
    rcases ends with ends | known
    · exact absurd ((h.sound.going ends.1).symm.trans done) Bool.false_ne_true
    · cases settled.symm.trans known
      obtain ⟨m, member, returns, -⟩ := told
      exact .inl ⟨m, member, returns⟩
  | withdrawn h => exact .inr h

end Concurrent

section Start

variable {config : Config} {settings : Settings} {roots : List Root} {launcher : Roster.Launcher}
variable {ws : Workspace} {shell : Shell} {plans : List Backend.Plan}

end Start

end World
end LanguageClient
