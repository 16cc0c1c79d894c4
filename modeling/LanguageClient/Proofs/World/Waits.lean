import LanguageClient.Proofs.World.Turn

/-!
The steps of a wait with a time limit, and the cells that a step makes to wait for.
-/

namespace LanguageClient.World

open Schedule

variable {A : Licence} {R : CellId → Prop} {begun : List Frame}
variable {w w' : World} {f : Frame} {o : Outcome Result}

theorem Made.ops {n : Nat} {c : CellId} {may : Outcome Result → Prop} {R' : CellId → Prop}
    {guards : Prop} (h : Made n R c w) (steps : Loop.Ops may R' guards begun w.loop w'.loop) :
    Made n R c w' where
  new := h.new
  inside := Nat.lt_of_lt_of_le h.inside steps.length_cells
  members k hk := h.members k (steps.kind? h.inside ▸ hk)

theorem Made.fresh {n : Nat} {c : CellId} (h : Made n R c w') (hn : w.loop.cells.length ≤ n) :
    Fresh w w' c := ⟨Nat.le_trans hn h.new, h.inside, fun t same => (h.members _ same).1 t rfl⟩

theorem quiet_newCell (w : World) : Quiet A R [] w w.newCell.2 :=
  ⟨(Keeps.refl w).newCell, rfl⟩

theorem kind?_newCell (w : World) :
    w.newCell.2.loop.kind? w.loop.cells.length = some .plain :=
  Loop.kind?_newCell_self .plain w.loop

theorem made_of_plain {n : Nat} {c : CellId} (new : n ≤ c) (h : w.loop.kind? c = some .plain) :
    Made n R c w where
  new := new
  inside := by
    obtain ⟨cell, found, -⟩ := Option.map_eq_some_iff.1 h
    exact (List.getElem?_eq_some_iff.1 found).1
  members k hk := by
    rw [h] at hk
    cases hk
    exact ⟨fun _ => by simp, fun _ hm => nomatch hm⟩

theorem made_newCell (w : World) : Made w.loop.cells.length R w.newCell.1 w.newCell.2 :=
  made_of_plain (Nat.le_refl _) (kind?_newCell w)

theorem length_cells_newCell (w : World) :
    w.newCell.2.loop.cells.length = w.loop.cells.length + 1 :=
  Loop.length_cells_newCell .plain w.loop

theorem quiet_sleep (gives : A.gives .loose) (span : Int) (w : World) :
    Quiet A R [] w (w.sleep span).2 ∧
      Made w.loop.cells.length R (w.sleep span).1 (w.sleep span).2 := by
  have step : Loop.Around Calm R A.guards w.loop.cells.length w.newCell.2.loop
      (w.newCell.2.loop.setTimer span (.release w.loop.cells.length)).2 :=
    .setTimer span (fun _ same => (Alarm.release.inj same).symm) (.inr ⟨_, rfl⟩) _
  have made : Made w.loop.cells.length R (w.sleep span).1 (w.sleep span).2 :=
    (made_newCell w).ops step.ops
  have kept : Keeps A R [] w (w.sleep span).2 :=
    (Keeps.refl w).newCell.around
      (f := fun l => (l.setTimer span (.release w.loop.cells.length)).2) step
      (made.fresh (Nat.le_refl _)) gives fun o settled => by
        rw [Loop.outcome?_setTimer] at settled
        exact absurd settled (by rw [show w.newCell.2.loop = (w.loop.newCell .plain).2 from rfl,
          Loop.outcome?_newCell, Loop.outcome?, List.getElem?_eq_none (Nat.le_refl _)]; simp)
  exact ⟨⟨kept, rfl⟩, made⟩

theorem quiet_gather (gives : A.gives .loose) {tasks : List TaskId}
    (h : ∀ t ∈ tasks, R (w.loop.taskCell t)) :
    Quiet A R [] w (w.gather tasks).2 ∧
      Made w.loop.cells.length R (w.gather tasks).1 (w.gather tasks).2 := by
  have members : ∀ m ∈ tasks.map (w.loop.taskCell ·), R m := by
    intro m hm
    obtain ⟨t, ht, rfl⟩ := List.mem_map.1 hm
    exact h t ht
  have step : Loop.Around Calm R A.guards w.loop.cells.length w.loop
      (w.loop.gather (tasks.map (w.loop.taskCell ·)) .nothing).2 :=
    .gather (calm_ok _) calm_cancelled members w.loop
  have inside : w.loop.cells.length <
      (w.loop.gather (tasks.map (w.loop.taskCell ·)) .nothing).2.cells.length := by
    rw [Loop.length_cells_gather]
    exact Nat.lt_succ_self _
  have made : Made w.loop.cells.length R (w.gather tasks).1 (w.gather tasks).2 := by
    refine ⟨Nat.le_refl _, inside, fun k hk => ?_⟩
    have kind : (w.gather tasks).2.loop.kind? w.loop.cells.length =
        some (.group (tasks.map (w.loop.taskCell ·)) 0 false) := Loop.kind?_gather _ _ _
    rw [show (w.gather tasks).1 = w.loop.cells.length from rfl, kind] at hk
    cases hk
    exact ⟨fun _ => by simp, members⟩
  have kept : Keeps A R [] w (w.gather tasks).2 :=
    (Keeps.refl w).around (c := w.loop.cells.length)
      (f := fun l => (l.gather (tasks.map (w.loop.taskCell ·)) Result.nothing).2) step
      (made.fresh (Nat.le_refl _)) gives fun _ settled => Loop.outcome?_gather settled
  exact ⟨⟨kept, rfl⟩, made⟩

/-- Tasks are given up where they are. -/
theorem quiet_cancels {tasks : List TaskId} (h : ∀ t ∈ tasks, R (w.loop.taskCell t))
    (inside : ∀ c, R c → c < w.loop.cells.length) :
    Quiet A R [] w (tasks.foldl (fun w t => w.onLoop (·.cancelTask t)) w) := by
  induction tasks generalizing w with
  | nil => exact .refl w
  | cons t rest ih =>
    obtain ⟨first, others⟩ := List.forall_mem_cons.1 h
    have given : Quiet A R [] w (w.onLoop (·.cancelTask t)) :=
      ⟨(Keeps.refl w).cancelTask first, rfl⟩
    refine given.trans (ih ?_ ?_)
    · intro u hu
      have known := others u hu
      rwa [given.keeps.ops.taskCell (Loop.lt_of_taskCell_lt (inside _ known))]
    · exact fun c hc => Nat.lt_of_lt_of_le (inside c hc) given.keeps.ops.length_cells

/-- A cell is given up, and another one is settled once that has been seen. -/
theorem quiet_giveUp (gives : A.gives .loose) {c : CellId} (h : R c) (w : World) :
    Quiet A R [] w (w.giveUp c).2 ∧
      Made w.loop.cells.length R (w.giveUp c).1 (w.giveUp c).2 := by
  have ops : Loop.Ops Calm R A.guards [] w.newCell.2.loop
      ((w.newCell.2.loop.watch c (.release w.loop.cells.length)).cancel c).2 :=
    (Loop.Ops.single (.watch _ c (.release w.loop.cells.length) rfl)).tail
      (.cancel _ c h calm_cancelled)
  have made : Made w.loop.cells.length R (w.giveUp c).1 (w.giveUp c).2 := (made_newCell w).ops ops
  have given : Keeps A R ([] ++ []) w (w.giveUp c).2 := by
    refine (Keeps.refl w).newCell.onLoop
      (f := fun l => ((l.watch c (.release w.loop.cells.length)).cancel c).2) ops ?_ ?_
    · intro d hd
      rcases hd.cancel.watch with old | new
      · exact .inl old
      · cases new
        exact .inr ⟨made.fresh (Nat.le_refl _), gives⟩
    · intro d o before after
      have watched : (w.newCell.2.loop.watch c (.release w.loop.cells.length)).outcome? d = none :=
        (Loop.outcome?_watch c d _ _).trans before
      rcases Loop.outcome?_cancel c d (w.newCell.2.loop.watch c (.release w.loop.cells.length))
        with same | ⟨cancelled, kind⟩
      · rw [same, watched] at after
        cases after
      · rw [after] at cancelled
        refine .cancelled (Option.some.inj cancelled) fun t same => kind t ?_
        exact (Loop.kind?_cancel c d _).symm.trans same
  exact ⟨⟨given, rfl⟩, made⟩

theorem quiet_unguard (guarding : A.guards) (timer : TimerId) (w : World) :
    Quiet A R [] w (w.unguard timer).2 := by
  unfold unguard
  split
  · exact ⟨(Keeps.refl w).aloof (f := fun l =>
      { l with expired := l.expired.filter (· ≠ timer) }) fun c => .expire guarding _ c w.loop, rfl⟩
  · exact ⟨(Keeps.refl w).aloof fun c => .stopTimer timer guarding c w.loop, rfl⟩

theorem startWait_turn (t : TaskId) {c : CellId} {timeout : Timeout} (r : Result)
    (h : R c) (w : World) :
    Turn R w (.wait (.start c timeout)) (.ok r) [] (w.startWait t c timeout) := by
  have named : c ∈ (Frame.wait (.start c timeout)).names := List.mem_singleton_self c
  cases timeout with
  | never =>
    exact .await (.refl w) (.inl named) (.of_idle ⟨rfl, fun _ => rfl, fun _ _ h => h⟩ rfl)
      (fun _ hd => nomatch hd) fun _ => trivial
  | after span =>
    rw [startWait]
    split
    · have guarded : Quiet (w.Answers (.wait (.start c (.after span)))) R [] w
          (w.guardTask t span).2 :=
        ⟨(Keeps.refl w).aloof (f := fun l => (l.setTimer span (.expire t)).2) fun _ =>
          .setTimer span (by simp) (.inl rfl) w.loop, rfl⟩
      exact .await guarded (.inl named) (.of_idle ⟨rfl, fun _ => rfl, fun _ _ h => h⟩ rfl)
        (fun _ hd => nomatch hd) fun _ => trivial
    · split
      · next o settled => exact .done (.refl w) fun easy => easy.cells c o settled
      · obtain ⟨given, made⟩ := quiet_giveUp (A := w.Answers (.wait (.start c (.after span))))
          rfl h w
        exact .await given (.inr (.inr made)) (.of_idle ⟨rfl, fun _ => rfl, fun _ _ h => h⟩ rfl) (fun _ hd => hd)
          fun _ => trivial

theorem endWait_turn (t : TaskId) (timer : TimerId) (cancels : Nat) (o : Outcome Result)
    (w : World) :
    Turn R w (.wait (.guarded timer cancels)) o [] (w.endWait t timer cancels o) := by
  have taken : Quiet (w.Answers (.wait (.guarded timer cancels))) R [] w (w.unguard timer).2 :=
    quiet_unguard rfl timer w
  rw [endWait]
  split
  · next w' same =>
    rw [same] at taken
    exact .done taken fun easy => easy.outcome
  · next w' same =>
    rw [same] at taken
    have counted : Quiet (w.Answers (.wait (.guarded timer cancels))) R [] w
        (w'.setTask t fun task => { task with cancels := task.cancels - 1 }) := by
      refine ⟨taken.keeps.setTask t (fun _ => ?_) (fun _ => ?_) ?_, taken.core⟩
      · rfl
      · rfl
      · rfl
    dsimp only
    split
    · refine .done counted fun _ => ?_
      split
      · exact calm_error (by simp)
      · exact calm_cancelled
    · exact .done counted fun easy => easy.outcome

theorem resumeWait_turn (t : TaskId) (p : Wait) (o : Outcome Result) {w : World}
    (reaches : w.Reaches (.wait p) R) :
    Turn R w (.wait p) o [] (w.resumeWait t p o) := by
  cases p with
  | start c timeout =>
    cases o with
    | error e => exact .fail_on w
    | ok r => exact startWait_turn t r (reaches.starts c List.mem_cons_self) w
  | guarded timer cancels => exact endWait_turn t timer cancels o w
  | released c =>
    cases o with
    | error e => exact .fail_on w
    | ok r =>
      rw [resumeWait]
      split
      · exact .done (.refl w) fun _ => calm_error (by simp)
      · exact .done (.refl w) fun _ => calm_error (by simp)
      · next o _ settled => exact .done (.refl w) fun easy => easy.cells c o settled

end LanguageClient.World
