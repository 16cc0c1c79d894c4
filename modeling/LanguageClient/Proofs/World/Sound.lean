import LanguageClient.Proofs.World.Step

/-!
What holds of a world that has come about from a sound one: the loop is in order, nobody holds a
cell that is not there or that is a task's, and a task is done exactly when it has nowhere to go on.
-/

namespace LanguageClient.World

open Schedule

variable {R : CellId → Prop} {may : Frame → Prop} {begun : List Frame}
variable {w w' : World} {t u : TaskId} {o : Outcome Result}

theorem stack_eq (t : TaskId) (w : World) : w.stack t = (w.loop.piles[t]?).getD [] := by
  rw [stack, Loop.piles, List.getElem?_map]
  cases w.loop.tasks[t]? <;> rfl

theorem length_piles (w : World) : w.loop.piles.length = w.loop.tasks.length := List.length_map _

theorem stack_of_le (h : w.loop.tasks.length ≤ t) : w.stack t = [] := by
  rw [stack, List.getElem?_eq_none h]

theorem lt_of_stack {f : Frame} (h : f ∈ w.stack t) : t < w.loop.tasks.length := by
  refine Nat.lt_of_not_le fun out => ?_
  rw [stack_of_le out] at h
  cases h

theorem stack_congr (h : w'.loop.piles = w.loop.piles) (t : TaskId) : w'.stack t = w.stack t := by
  rw [stack_eq, stack_eq, h]

theorem length_tasks_of_piles (h : w'.loop.piles = w.loop.piles) :
    w'.loop.tasks.length = w.loop.tasks.length := by
  rw [← length_piles, ← length_piles, h]

/-- Where the tasks are after some have begun. -/
theorem stack_begun (h : w'.loop.piles = w.loop.piles ++ begun.map fun f => [f]) (u : TaskId) :
    (u < w.loop.tasks.length ∧ w'.stack u = w.stack u) ∨
      (w.loop.tasks.length ≤ u ∧ ∃ f, begun[u - w.loop.tasks.length]? = some f ∧ w'.stack u = [f]) ∨
      w'.loop.tasks.length ≤ u := by
  by_cases old : u < w.loop.tasks.length
  · left
    rw [stack_eq, stack_eq, h, List.getElem?_append_left (length_piles w ▸ old)]
    exact ⟨old, rfl⟩
  · right
    have low : w.loop.piles.length ≤ u := length_piles w ▸ Nat.le_of_not_lt old
    cases found : begun[u - w.loop.tasks.length]? with
    | some f =>
      left
      refine ⟨Nat.le_of_not_lt old, f, rfl, ?_⟩
      rw [stack_eq, h, List.getElem?_append_right low, length_piles, List.getElem?_map, found]
      rfl
    | none =>
      right
      have short := List.getElem?_eq_none_iff.1 found
      rw [← length_piles w', h, List.length_append, List.length_map, Nat.add_comm, length_piles]
      exact Nat.add_le_of_le_sub (Nat.le_of_not_lt old) short

theorem stack_landed {rest : List Frame} {flow : Flow Frame Result} {w₂ : World}
    (lands : Landed t rest flow w₂ w') (inside : t < w₂.loop.tasks.length) :
    w'.stack t = flow.frames ++ rest ∧ ∀ u, u ≠ t → w'.stack u = w₂.stack u := by
  refine ⟨?_, fun u hu => ?_⟩
  · rw [stack_eq, lands.piles, List.getElem?_set_self (length_piles w₂ ▸ inside)]
    rfl
  · rw [stack_eq, lands.piles, List.getElem?_set_ne (Ne.symm hu), ← stack_eq]

/-- Frames at which tasks begin name no cells and give up no tasks. -/
theorem Change.firsts {f : Frame} {flow : Flow Frame Result} {x : Core}
    (h : Change w f o begun flow x) (g : Frame) (hg : g ∈ begun) : g.names = [] ∧ g.lates = [] := by
  rcases h.begun_cases hg with errand | ⟨s, grace, rfl⟩ | ⟨s, limit, rfl⟩
  · unfold Frame.isErrand at errand
    split at errand <;> first | exact ⟨rfl, rfl⟩ | cases errand
  · exact ⟨rfl, rfl⟩
  · exact ⟨rfl, rfl⟩

/-- A step gives up later only tasks that it has begun. -/
theorem Change.lates {f : Frame} {flow : Flow Frame Result} {x : Core}
    (h : Change w f o begun flow x) :
    ∀ g ∈ flow.frames, ∀ u ∈ g.lates,
      w.loop.tasks.length ≤ u ∧ u < w.loop.tasks.length + begun.length := by
  have none (g : Frame) (h : g.lates = []) : ∀ u ∈ g.lates,
      w.loop.tasks.length ≤ u ∧ u < w.loop.tasks.length + begun.length := by
    intro u hu
    rw [h] at hu
    cases hu
  cases h with
  | quiet frames =>
    intro g hg
    have plain := (frames g hg).plain
    refine none g ?_
    cases g with
    | roster p =>
      cases p with
      | stopsOver => cases plain
      | _ => rfl
    | _ => rfl
  | closing _ frames =>
    intro g hg
    refine none g ?_
    cases frames g hg <;> rfl
  | launches _ flow_ =>
    rcases flow_ with rfl | ⟨c, rfl⟩ <;> exact List.forall_mem_singleton.2 (none _ rfl)
  | connects _ flow_ =>
    rcases flow_ with ⟨params, timeout, -, rfl⟩ | ⟨e, rfl, -⟩
    · exact List.forall_mem_cons.2 ⟨none _ rfl, List.forall_mem_singleton.2 (none _ rfl)⟩
    · exact fun g hg => nomatch hg
  | greets flow_ =>
    rcases flow_ with ⟨k, -, rfl⟩ | ⟨-, rfl⟩
    · exact List.forall_mem_cons.2 ⟨none _ rfl, List.forall_mem_singleton.2 (none _ rfl)⟩
    · exact List.forall_mem_singleton.2 (none _ rfl)
  | dismisses flow_ =>
    rcases flow_ with ⟨k, -, rfl⟩ | ⟨-, rfl⟩
    · exact List.forall_mem_cons.2 ⟨none _ rfl, List.forall_mem_singleton.2 (none _ rfl)⟩
    · exact List.forall_mem_singleton.2 (none _ rfl)
  | stopsAll stops_ =>
    refine List.forall_mem_singleton.2 fun u hu => ?_
    obtain ⟨stop, hs, rfl⟩ := List.mem_map.1 hu
    rw [stops_] at hs
    obtain ⟨i, hi, rfl⟩ := List.mem_mapIdx.1 hs
    rw [List.length_map] at hi ⊢
    exact ⟨Nat.le_add_right _ _, Nat.add_lt_add_left hi _⟩
  | closes => exact fun g hg => nomatch hg
  | withdraws => exact fun g hg => nomatch hg
  | shuts => exact fun g hg => nomatch hg
  | loses => exact fun g hg => nomatch hg
  | stumbles => exact fun g hg => nomatch hg
  | fails => exact fun g hg => nomatch hg
  | drops => exact fun g hg => nomatch hg
  | buffers => exact fun g hg => nomatch hg
  | forgets => exact fun g hg => nomatch hg
  | strikes => exact fun g hg => nomatch hg
  | notes => exact List.forall_mem_singleton.2 (none _ rfl)
  | arrives => exact List.forall_mem_singleton.2 (none _ rfl)
  | joins => exact List.forall_mem_singleton.2 (none _ rfl)
  | stops => exact List.forall_mem_singleton.2 (none _ rfl)
  | leaves => exact List.forall_mem_singleton.2 (none _ rfl)
  | requests => exact List.forall_mem_cons.2 ⟨none _ rfl, List.forall_mem_singleton.2 (none _ rfl)⟩
  | answers => exact List.forall_mem_cons.2 ⟨none _ rfl, List.forall_mem_singleton.2 (none _ rfl)⟩
  | abandons => exact List.forall_mem_cons.2 ⟨none _ rfl, List.forall_mem_singleton.2 (none _ rfl)⟩
  | readies => exact List.forall_mem_cons.2 ⟨none _ rfl, List.forall_mem_singleton.2 (none _ rfl)⟩
  | tells => exact List.forall_mem_cons.2 ⟨none _ rfl, List.forall_mem_singleton.2 (none _ rfl)⟩
  | asks => exact List.forall_mem_cons.2 ⟨none _ rfl, List.forall_mem_singleton.2 (none _ rfl)⟩
  | creates => exact List.forall_mem_cons.2 ⟨none _ rfl, List.forall_mem_singleton.2 (none _ rfl)⟩

/-- Where a task has come that has made a step, and where the others are. -/
theorem Turn.piles {f : Frame} {rest : List Frame} {flow : Flow Frame Result} {w₂ : World}
    (turn : Turn R w f o begun (flow, w₂)) (inside : t < w.loop.tasks.length)
    (lands : Landed t rest flow w₂ w') :
    w'.stack t = flow.frames ++ rest ∧ ∀ u, u ≠ t →
      (u < w.loop.tasks.length ∧ w'.stack u = w.stack u) ∨
      (w.loop.tasks.length ≤ u ∧
        ∃ g, begun[u - w.loop.tasks.length]? = some g ∧ w'.stack u = [g]) ∨
      w'.loop.tasks.length ≤ u := by
  have piles : w₂.loop.piles = w.loop.piles ++ begun.map fun f => [f] := turn.keeps.ops.piles
  have grown : w₂.loop.tasks.length = w.loop.tasks.length + begun.length :=
    length_tasks_of_ops turn.keeps.ops
  obtain ⟨here, others⟩ := stack_landed lands (grown ▸ Nat.lt_add_right _ inside)
  have same : w'.loop.tasks.length = w₂.loop.tasks.length := by
    rw [← length_piles, lands.piles, List.length_set, length_piles]
  refine ⟨here, fun u hu => ?_⟩
  rw [others u hu, same]
  exact stack_begun piles u

namespace Sound

theorem taskCell_inj (h : w.Sound) (ht : t < w.loop.tasks.length) (hu : u < w.loop.tasks.length)
    (same : w.loop.taskCell t = w.loop.taskCell u) : t = u := by
  have known := h.cells t ht
  rw [same, h.cells u hu] at known
  cases known
  rfl

theorem running (h : w.Sound) (runs : w.current = some (t, o)) : t < w.loop.tasks.length :=
  (h.orderly.running t (by rw [runs]; rfl)).1

theorem calm (h : w.Sound) (idle : w.current = none) : w.loop.Orderly none := by
  have orderly := h.orderly
  rwa [idle] at orderly

theorem stack_ne_nil (h : w.Sound) (ht : t < w.loop.tasks.length) (idle : w.current = none)
    (going : w.loop.taskDone t = false) : w.stack t ≠ [] := by
  intro empty
  have done := (h.done t ht).2 ⟨empty, fun o runs => by rw [idle] at runs; cases runs⟩
  rw [going] at done
  cases done

/-- The cell of a task is settled only by its end. -/
theorem ends_of_settled (h : w.Sound) (moved : Moved w w') (ht : t < w.loop.tasks.length)
    (going : w.loop.taskDone t = false) {o : Outcome Result}
    (done : w'.loop.outcome? (w.loop.taskCell t) = some o) : w.Ends t o := by
  have unsettled : w.loop.outcome? (w.loop.taskCell t) = none :=
    Option.not_isSome_iff_eq_none.1 (Bool.eq_false_iff.1 going)
  have kind : w'.loop.kind? (w.loop.taskCell t) = some (.task t) :=
    (moved.kind _ (h.inside ht)).trans (h.cells t ht)
  rcases moved.settled _ o unsettled done with settled | ⟨u, ends, same⟩
  · cases settled with
    | holder r held _ => exact absurd (h.cells t ht) (h.owned r _ t held)
    | cancelled _ other => exact absurd kind (other t)
    | fresh _ fresh => exact absurd kind (fresh.kind t)
  · rwa [h.taskCell_inj ht (h.running ends.1) same]

/-- A task that has just begun is not done. -/
theorem going_of_made (h : w.Sound) (moved : Moved w w') (new : w.loop.tasks.length ≤ t)
    (ht : t < w'.loop.tasks.length) : w'.loop.taskDone t = false := by
  obtain ⟨low, kind⟩ := moved.made t new ht
  refine Bool.eq_false_iff.2 fun done => ?_
  obtain ⟨o, done⟩ := Option.isSome_iff_exists.1 done
  have absent : w.loop.outcome? (w'.loop.taskCell t) = none := by
    rw [Loop.outcome?, List.getElem?_eq_none low]
    rfl
  rcases moved.settled _ o absent done with settled | ⟨u, ends, same⟩
  · cases settled with
    | holder r held _ => exact absurd (h.held r _ held) (Nat.not_lt.2 low)
    | cancelled _ other => exact absurd kind (other t)
    | fresh _ fresh => exact absurd kind (fresh.kind t)
  · exact absurd (same ▸ h.inside (h.running ends.1)) (Nat.not_lt.2 low)

theorem taskDone_iff (h : w.Sound) (moved : Moved w w') (ht : t < w.loop.tasks.length)
    (ended : ∀ o, w.Ends t o → w'.loop.outcome? (w.loop.taskCell t) = some o) :
    w'.loop.taskDone t = true ↔ w.loop.taskDone t = true ∨ ∃ o, w.Ends t o := by
  rw [Loop.taskDone, moved.taskCell t ht]
  constructor
  · intro done
    obtain ⟨o, done⟩ := Option.isSome_iff_exists.1 done
    cases going : w.loop.taskDone t with
    | true => exact .inl rfl
    | false => exact .inr ⟨o, h.ends_of_settled moved ht going done⟩
  · rintro (done | ⟨o, ends⟩)
    · obtain ⟨o, done⟩ := Option.isSome_iff_exists.1 done
      exact Option.isSome_iff_exists.2 ⟨o, moved.settles.outcome done⟩
    · exact Option.isSome_iff_exists.2 ⟨o, ended o ends⟩

/-- A move ends the task that comes to its end. -/
theorem ended (move : Move may R w w') (ends : w.Ends t o) :
    w'.loop.outcome? (w.loop.taskCell t) = some o := by
  cases move with
  | rests _ idle => exact absurd (idle.symm.trans ends.1) (by simp)
  | @ends u o' ends' _ _ _ _ done =>
    have same := ends.1.symm.trans ends'.1
    cases same
    exact done
  | wakes idle => exact absurd (idle.symm.trans ends.1) (by simp)
  | goes runs top =>
    have same := ends.1.symm.trans runs
    cases same
    rw [ends.2] at top
    cases top

/-- Where a task of a world stands after a move, and whether it runs. -/
theorem doneness (h : w.Sound) (move : Move may R w w') (ht : t < w.loop.tasks.length) :
    (w'.stack t = [] ∧ ∀ o, w'.current ≠ some (t, o)) ↔
      (w.stack t = [] ∧ ∀ o, w.current ≠ some (t, o)) ∨ ∃ o, w.Ends t o := by
  cases move with
  | rests _ idle idle' _ piles =>
    have same : w'.stack t = w.stack t := by
      rcases stack_begun piles t with ⟨-, same⟩ | ⟨new, -⟩ | out
      · exact same
      · exact absurd ht (Nat.not_lt.2 new)
      · rw [← length_piles, piles, List.length_append, length_piles] at out
        exact absurd (Nat.lt_of_lt_of_le ht (Nat.le_add_right _ _)) (Nat.not_lt.2 out)
    simp [same, idle, idle', Ends]
  | @ends u o ends idle' _ piles =>
    have same := stack_congr piles t
    by_cases other : t = u
    · subst other
      exact ⟨fun _ => .inr ⟨o, ends⟩, fun _ => ⟨same.trans ends.2, by simp [idle']⟩⟩
    · have here : ∀ o', w.current ≠ some (t, o') := by
        intro o' runs
        rw [ends.1] at runs
        cases runs
        exact other rfl
      simp [same, idle', here, Ends]
  | @wakes u waited o idle ready going runs _ piles =>
    have same := stack_congr piles t
    by_cases other : t = u
    · subst other
      have busy := h.stack_ne_nil ht idle going
      simp [same, runs, busy, Ends]
    · have here : ∀ o', w'.current ≠ some (t, o') := by
        intro o' runs'
        rw [runs] at runs'
        cases runs'
        exact other rfl
      simp [same, here, idle, Ends]
  | @goes u o f rest begun flow w₀ w₂ runs top taken steps turn lands =>
    subst taken
    obtain ⟨here, others⟩ := turn.piles (h.running runs) lands
    by_cases other : t = u
    · subst other
      have before : w.stack t ≠ [] := by
        rw [top]
        exact List.cons_ne_nil f rest
      have after : ¬ (w'.stack t = [] ∧ ∀ o, w'.current ≠ some (t, o)) := by
        rintro ⟨empty, stays⟩
        rw [here] at empty
        have next := lands.next
        cases flow with
        | done o' => exact stays o' next.1
        | _ => cases empty
      simp [after, before, Ends]
    · have same : w'.stack t = w.stack t := by
        rcases others t other with ⟨-, same⟩ | ⟨new, -⟩ | out
        · exact same
        · exact absurd ht (Nat.not_lt.2 new)
        · have grown : w.loop.tasks.length ≤ w'.loop.tasks.length :=
            Nat.le_trans turn.keeps.kept.tasks (lands.aside.kept .none).tasks
          exact absurd ht (Nat.not_lt.2 (Nat.le_trans grown out))
      have before : ∀ o', w.current ≠ some (t, o') := by
        intro o' runs'
        rw [runs] at runs'
        cases runs'
        exact other rfl
      have after : ∀ o', w'.current ≠ some (t, o') := by
        intro o' runs'
        have next := lands.next
        cases flow with
        | done =>
          rw [next.1] at runs'
          cases runs'
          exact other rfl
        | goto =>
          rw [next.1] at runs'
          cases runs'
          exact other rfl
        | call =>
          rw [next.1] at runs'
          cases runs'
          exact other rfl
        | pause =>
          rw [next.1] at runs'
          cases runs'
        | await c f =>
          rcases next with ⟨o'', -, next, -⟩ | ⟨next, -⟩
          · rw [next] at runs'
            cases runs'
            exact other rfl
          · rw [next] at runs'
            cases runs'
      simp [same, before, after, Ends]

/-- Every frame of a world after a move was there before, or comes from the step, or is one at which
a task has begun. -/
theorem frame_cases (h : w.Sound) (move : Move may R w w') {f : Frame} (hf : f ∈ w'.stack u) :
    f ∈ w.stack u ∨ may f ∨ ∃ t o g rest begun flow w₂, w.current = some (t, o) ∧
      w.stack t = g :: rest ∧ Turn R { w with current := none } g o begun (flow, w₂) ∧
      Landed t rest flow w₂ w' ∧ (f ∈ flow.frames ∨ f ∈ begun) := by
  cases move with
  | rests allowed _ _ _ piles =>
    rcases stack_begun piles u with ⟨-, same⟩ | ⟨-, g, hg, same⟩ | out
    · exact .inl (same ▸ hf)
    · rw [same] at hf
      cases List.mem_singleton.1 hf
      exact .inr (.inl (allowed f (List.mem_of_getElem? hg)))
    · rw [stack_of_le out] at hf
      cases hf
  | ends _ _ _ piles => exact .inl (stack_congr piles u ▸ hf)
  | wakes _ _ _ _ _ piles => exact .inl (stack_congr piles u ▸ hf)
  | @goes t o g rest begun flow w₀ w₂ runs top taken steps turn lands =>
    subst taken
    obtain ⟨here, others⟩ := turn.piles (h.running runs) lands
    by_cases same : u = t
    · subst same
      rw [here] at hf
      rcases List.mem_append.1 hf with hf | hf
      · exact .inr (.inr ⟨u, o, g, rest, begun, flow, w₂, runs, top, turn, lands, .inl hf⟩)
      · left
        rw [top]
        exact List.mem_cons_of_mem g hf
    · rcases others u same with ⟨-, same⟩ | ⟨-, g', hg, same⟩ | out
      · exact .inl (same ▸ hf)
      · rw [same] at hf
        cases List.mem_singleton.1 hf
        exact .inr (.inr ⟨t, o, g, rest, begun, flow, w₂, runs, top, turn, lands,
          .inr (List.mem_of_getElem? hg)⟩)
      · rw [stack_of_le out] at hf
        cases hf

theorem stack_made (h : w.Sound) (move : Move may R w w') (new : w.loop.tasks.length ≤ t)
    (ht : t < w'.loop.tasks.length) : w'.stack t ≠ [] := by
  have begun {begun : List Frame} (stands : (t < w.loop.tasks.length ∧ w'.stack t = w.stack t) ∨
      (w.loop.tasks.length ≤ t ∧
        ∃ f, begun[t - w.loop.tasks.length]? = some f ∧ w'.stack t = [f]) ∨
      w'.loop.tasks.length ≤ t) : w'.stack t ≠ [] := by
    rcases stands with ⟨old, -⟩ | ⟨-, f, -, same⟩ | out
    · exact absurd old (Nat.not_lt.2 new)
    · rw [same]
      exact List.cons_ne_nil f []
    · exact absurd ht (Nat.not_lt.2 out)
  cases move with
  | rests _ _ _ _ piles => exact begun (stack_begun piles t)
  | ends _ _ _ piles => exact absurd ht (Nat.not_lt.2 (length_tasks_of_piles piles ▸ new))
  | wakes _ _ _ _ _ piles => exact absurd ht (Nat.not_lt.2 (length_tasks_of_piles piles ▸ new))
  | @goes u o g rest begun' flow w₀ w₂ runs top taken steps turn lands =>
    subst taken
    have other : t ≠ u := Nat.ne_of_gt (Nat.lt_of_lt_of_le (h.running runs) new)
    exact begun ((turn.piles (h.running runs) lands).2 t other)

theorem move (h : w.Sound) (m : Moves may R w w') (first : ∀ f, may f → f.names = [] ∧ f.lates = []) :
    w'.Sound := by
  have moved := m.moved
  refine ⟨m.orderly, fun r c hc => ?_, fun r c t hc => ?_, fun drops t ht => ?_,
    fun t ht => ?_, fun u f hf c hc => ?_, fun u f hf v hv => ?_, fun t ht => ?_⟩
  · rcases moved.held r c hc with old | fresh
    · exact Nat.lt_of_lt_of_le (h.held r c old) moved.cells
    · exact fresh.inside
  · rcases moved.held r c hc with old | fresh
    · rw [moved.kind c (h.held r c old)]
      exact h.owned r c t old
    · exact fresh.kind t
  · rcases moved.refers drops t ht with old | ⟨-, inside⟩
    · exact Nat.lt_of_lt_of_le (h.refers drops t old) moved.tasks
    · exact inside
  · by_cases old : t < w.loop.tasks.length
    · rw [moved.taskCell t old, moved.kind _ (h.inside old)]
      exact h.cells t old
    · exact (moved.made t (Nat.le_of_not_lt old) ht).2
  · have kept (known : w.loop.kind? c = some .plain) : w'.loop.kind? c = some .plain :=
      (moved.kind c (Loop.lt_of_kind? known)).trans known
    rcases h.frame_cases m.move hf with old | allowed |
      ⟨t, o, g, rest, begun, flow, w₂, -, top, turn, lands, step | begun⟩
    · exact kept (h.names u f old c hc)
    · rw [(first f allowed).1] at hc
      cases hc
    · rcases turn.awaits.names f step c hc with old | ⟨-, plain⟩
      · exact kept (h.names t g (top ▸ List.mem_cons_self) c old)
      · have plain' : w₂.loop.kind? c = some .plain := plain
        exact ((lands.aside.kept .none).kind c (Loop.lt_of_kind? plain')).trans plain'
    · rw [(turn.change.firsts f begun).1] at hc
      cases hc
  · rcases h.frame_cases m.move hf with old | allowed |
      ⟨t, o, g, rest, begun, flow, w₂, -, top, turn, lands, step | begun⟩
    · exact Nat.lt_of_lt_of_le (h.lates u f old v hv) moved.tasks
    · rw [(first f allowed).2] at hv
      cases hv
    · have grown : w₂.loop.tasks.length = w.loop.tasks.length + begun.length :=
        length_tasks_of_ops turn.keeps.ops
      refine Nat.lt_of_lt_of_le (turn.change.lates f step v hv).2 ?_
      exact grown ▸ (lands.aside.kept .none).tasks
    · rw [(turn.change.firsts f begun).2] at hv
      cases hv
  · by_cases old : t < w.loop.tasks.length
    · rw [h.taskDone_iff moved old fun o ends => ended m.move ends, h.done t old,
        h.doneness m.move old]
    · have new := Nat.le_of_not_lt old
      have going := h.going_of_made moved new ht
      have busy := h.stack_made m.move new ht
      simp [going, busy]

end Sound

/-- A world in which nothing has been asked for yet. -/
structure Unused (w : World) : Prop where
  loop : w.loop = .start
  current : w.current = none
  held : ∀ r c, ¬ w.DataHeld r c
  refers : ∀ drops t, ¬ w.Refers drops t

theorem Unused.stack (h : w.Unused) (t : TaskId) : w.stack t = [] :=
  stack_of_le (by rw [h.loop]; exact Nat.zero_le t)

theorem Unused.sound (h : w.Unused) : w.Sound := by
  have none (t : TaskId) : ¬ t < w.loop.tasks.length := by
    rw [h.loop]
    exact Nat.not_lt_zero t
  have idle (r : Role) (c : CellId) : ¬ w.Held r c := by
    intro held
    cases held with
    | data hd => exact h.held r c hd
    | loop hl =>
      rw [h.loop] at hl
      cases hl with
      | alarm timer member => cases member
      | waker d cell waker found => cases found
      | job job member => cases member
  refine ⟨?_, fun r c hc => absurd hc (idle r c), fun r c t hc => absurd hc (idle r c),
    fun drops t ht => absurd ht (h.refers drops t), fun t ht => absurd ht (none t), fun t f hf => ?_,
    fun t f hf => ?_, fun t ht => absurd ht (none t)⟩
  · rw [h.loop, h.current]
    exact .start
  · rw [h.stack t] at hf
    cases hf
  · rw [h.stack t] at hf
    cases hf

theorem frame_first (c : Call) : c.frame.names = [] ∧ c.frame.lates = [] := by
  cases c <;> exact ⟨rfl, rfl⟩

/-- Every cell that is there may be cancelled, if nobody minds. -/
theorem Sound.covers (h : w.Sound) : w.Covers (· < w.loop.cells.length) where
  inside _ hc := hc
  refers t ht := h.inside (h.refers true t ht)
  starts t _ f _ _ top c hc := by
    refine Loop.lt_of_kind? (h.names t f (top ▸ List.mem_cons_self) c ?_)
    cases f with
    | wait p => cases p <;> first | exact hc | cases hc
    | _ => cases hc
  lates t _ f _ _ top u hu := h.inside (h.lates t f (top ▸ List.mem_cons_self) u hu)
  alarms _ _ _ _ _ _ _ _ _ ht := h.inside ht

end LanguageClient.World
