import LanguageClient.Proofs.Client.Calls

/-!
Calls get their turn in the order in which they are made: what is called later waits behind what was
called earlier until that has been taken up.
-/

namespace LanguageClient

open Schedule

/-- The task of a call waits at the end of the queue. -/
theorem Moment.Goes.queued {m : Moment} {w' : World} {c : Call} (h : m.Goes w')
    (act : m.act = some (.call c)) : w'.current = none ∧
      Loop.resumed w'.loop.ready = Loop.resumed m.world.loop.ready ++ [m.world.nextTask] := by
  cases h with
  | take idle a =>
    cases act
    exact ⟨idle, Loop.resumed_append _ _⟩
  | _ => cases act

namespace World

variable {may : Frame → Prop} {R : CellId → Prop} {t u : TaskId} {w w' w₂ : World}
variable {f g : Frame} {rest begun : List Frame} {o : Outcome Result} {flow : Flow Frame Result}
variable {ms : List Moment} {m : Moment} {c : Call}

/-- What a move does to the queue of tasks: it takes up the first, or only adds to it, except that it
may drop the first when that has ended. -/
inductive Queues (w w' : World) : Prop
  | takes {t : TaskId} {o : Outcome Result} (runs : w'.current = some (t, o))
    (first : Loop.resumed w.loop.ready = t :: Loop.resumed w'.loop.ready)
  | adds {gone left : List TaskId} (past : ∀ t ∈ gone, w.stack t = [])
    (before : Loop.resumed w.loop.ready = gone ++ left)
    (after : left <+: Loop.resumed w'.loop.ready)
    (runs : ∀ t o, w'.current = some (t, o) → ∃ o', w.current = some (t, o'))

open Queues in
theorem Sound.queues (sound : w.Sound) (m : Move may R w w') : Queues w w' := by
  have longer {l l' : Loop Frame Result Notice} (h : l.ready <+: l'.ready) :
      Loop.resumed l.ready <+: Loop.resumed l'.ready := h.filterMap _
  cases m with
  | rests _ _ idle' _ _ _ pops queue =>
    have runs (t : TaskId) (o : Outcome Result) (runs : w'.current = some (t, o)) :
        ∃ o', w.current = some (t, o') := by
      rw [idle'] at runs
      cases runs
    cases pops with
    | none => exact @adds w w' [] _ nofun (List.nil_append _).symm (longer queue) runs
    | @job job rest ready other =>
      refine @adds w w' job.resumed?.toList (Loop.resumed rest) (fun t ht => ?_) ?_ (longer queue) runs
      · cases job with
        | resume u waited =>
          cases List.mem_singleton.1 ht
          exact sound.over_of_done (other t waited rfl)
        | _ => cases ht
      · rw [ready]
        cases job <;> rfl
  | ends _ idle' _ _ _ _ queue =>
    refine @adds w w' [] _ nofun (List.nil_append _).symm (longer queue) fun t o runs => ?_
    rw [idle'] at runs
    cases runs
  | wakes _ ready _ runs =>
    refine .takes runs ?_
    rw [ready]
    rfl
  | @goes t o f rest begun flow w₀ w₂ runs _ taken _ turn lands =>
    subst taken
    refine @adds w w' [] _ nofun (List.nil_append _).symm
      ((longer turn.keeps.ops.ready).trans (longer lands.aside.queue)) fun u o' runs' => ⟨o, ?_⟩
    by_cases same : u = t
    · exact same ▸ runs
    · exact absurd runs' (lands.next.other same o')

/-- Who waits for a turn keeps its place or gets the turn. -/
theorem Queues.lined (h : Queues w w') (stands : f ∈ w.stack t)
    (lined : t ∈ Loop.resumed w.loop.ready) :
    (∃ o, w'.current = some (t, o)) ∨ t ∈ Loop.resumed w'.loop.ready := by
  cases h with
  | takes runs first =>
    rw [first] at lined
    rcases List.mem_cons.1 lined with rfl | later
    · exact .inl ⟨_, runs⟩
    · exact .inr later
  | adds past before after =>
    rw [before] at lined
    rcases List.mem_append.1 lined with gone | left
    · rw [past t gone] at stands
      cases stands
    · exact .inr (after.subset left)

/-- Who waits behind another gets no turn before that. -/
theorem Queues.inTurn (h : Queues w w') (other : t ≠ u) (once : (Loop.resumed w.loop.ready).Nodup)
    (stands : f ∈ w.stack t) (stands' : g ∈ w.stack u) (still : ∀ o, w.current ≠ some (u, o))
    (lined : [t, u].Sublist (Loop.resumed w.loop.ready)) : (∀ o, w'.current ≠ some (u, o)) ∧
      ((∃ o, w'.current = some (t, o)) ∨ [t, u].Sublist (Loop.resumed w'.loop.ready)) := by
  cases h with
  | @takes v o runs first =>
    rw [first] at lined once
    rcases List.sublist_cons_iff.1 lined with later | ⟨r, same, behind⟩
    · refine ⟨fun o' runs' => ?_, .inr later⟩
      rw [runs] at runs'
      cases runs'
      exact (List.nodup_cons.1 once).1 (later.subset (List.mem_cons_of_mem _ List.mem_cons_self))
    · cases same
      refine ⟨fun o' runs' => ?_, .inl ⟨o, runs⟩⟩
      rw [runs] at runs'
      cases runs'
      exact other rfl
  | @adds gone left past before after runs =>
    refine ⟨fun o' runs' => ?_, .inr ?_⟩
    · obtain ⟨o, before⟩ := runs u o' runs'
      exact still o before
    · have kept : ∀ v ∈ [t, u], v ∉ gone := by
        rintro v hv hg
        rcases List.mem_cons.1 hv with rfl | last
        · rw [past v hg] at stands
          cases stands
        · cases List.mem_singleton.1 last
          rw [past u hg] at stands'
          cases stands'
      rw [before] at lined
      obtain ⟨l₁, l₂, parts, first, second⟩ := List.sublist_append_iff.1 lined
      have none : l₁ = [] := List.eq_nil_iff_forall_not_mem.2 fun v hv =>
        kept v (parts ▸ List.mem_append_left _ hv) (first.subset hv)
      rw [none, List.nil_append] at parts
      exact (parts ▸ second).trans after.sublist

/-- Tasks that have only been called wait for their turn in the order in which they were. -/
structure Queued (w : World) : Prop where
  lined : ∀ t f, f ∈ w.stack t → f.isUse 0 = true →
    (∃ o, w.current = some (t, o)) ∨ t ∈ Loop.resumed w.loop.ready
  inTurn : ∀ t u f g, t < u → f ∈ w.stack t → f.isUse 0 = true → g ∈ w.stack u → g.isUse 0 = true →
    (∀ o, w.current ≠ some (u, o)) ∧
      ((∃ o, w.current = some (t, o)) ∨ [t, u].Sublist (Loop.resumed w.loop.ready))

theorem Queued.move (h : Queued m.world) (alone : m.world.Alone)
    (goes : m.Goes w') (moves : Moves m.Begins R m.world w') : Queued w' := by
  have queues := alone.sound.queues moves.move
  have cases_ {t : TaskId} {f : Frame} (hf : f ∈ w'.stack t) (use : f.isUse 0 = true) :
      (f ∈ m.world.stack t ∧ t < m.world.loop.tasks.length ∧ ∀ o, m.world.current ≠ some (t, o)) ∨
        (∃ c, m.act = some (.call c) ∧ t = m.world.nextTask) := by
    rcases alone.client.use_cases alone.sound moves.move use hf with ⟨old, -, still⟩ | ⟨stack, new, begins⟩
    · exact .inl ⟨old, lt_of_stack old, still⟩
    · obtain ⟨c, act, -, task⟩ := goes.fresh begins new stack
      exact .inr ⟨c, act, task⟩
  refine ⟨fun t f hf use => ?_, fun t u f g lt hf use hg use' => ?_⟩
  · rcases cases_ hf use with ⟨old, -, still⟩ | ⟨c, act, task⟩
    · refine queues.lined old ((h.lined t f old use).resolve_left ?_)
      rintro ⟨o, runs⟩
      exact still o runs
    · right
      rw [(goes.queued act).2, task]
      exact List.mem_append_right _ (List.mem_singleton_self _)
  · rcases cases_ hf use with ⟨old, inside, still⟩ | ⟨c, act, task⟩
    · rcases cases_ hg use' with ⟨old', -, still'⟩ | ⟨c, act, task⟩
      · have lined := ((h.inTurn t u f g lt old use old' use').2).resolve_left (by
          rintro ⟨o, runs⟩
          exact still o runs)
        exact queues.inTurn (Nat.ne_of_lt lt) alone.sound.orderly.resumedOnce old old' still' lined
      · obtain ⟨idle, queue⟩ := goes.queued act
        have lined := (h.lined t f old use).resolve_left (by
          rintro ⟨o, runs⟩
          exact still o runs)
        refine ⟨fun o runs => ?_, .inr ?_⟩
        · rw [idle] at runs
          cases runs
        · rw [queue, task]
          exact (List.singleton_sublist.2 lined).append (List.Sublist.refl [m.world.nextTask])
    · rcases cases_ hg use' with ⟨-, inside, -⟩ | ⟨-, -, task'⟩
      · exact absurd (Nat.lt_trans lt inside) (Nat.not_lt.2 (Nat.le_of_eq task.symm))
      · exact absurd (task.trans task'.symm) (Nat.ne_of_lt lt)

end World
end LanguageClient
