import LanguageClient.Proofs.World.Workspace

/-!
What is kept when a task is taken up, when it goes on elsewhere, and when it is left waiting. These
change where tasks stand, so they are no mere operations.
-/

namespace LanguageClient

open Schedule

namespace Schedule.Loop

variable {φ ρ κ : Type}

theorem taskCell_of_cells {l l' : Loop φ ρ κ} (length : l'.cells.length = l.cells.length)
    (tasks : l'.tasks.map (·.cell) = l.tasks.map (·.cell)) (t : TaskId) :
    l'.taskCell t = l.taskCell t := by
  have same : (l'.tasks[t]?).map (·.cell) = (l.tasks[t]?).map (·.cell) := by
    rw [← List.getElem?_map, ← List.getElem?_map, tasks]
  rw [taskCell, taskCell]
  cases found : l.tasks[t]? with
  | none =>
    rw [found] at same
    rw [Option.map_eq_none_iff.1 same]
    exact length
  | some task =>
    rw [found] at same
    obtain ⟨task', found', cell⟩ := Option.map_eq_some_iff.1 same
    rw [found']
    exact cell

theorem cells_setTask_tasks {t : TaskId} {f : TaskState φ → TaskState φ}
    (h : ∀ task, (f task).cell = task.cell) (l : Loop φ ρ κ) :
    (l.setTask t f).tasks.map (·.cell) = l.tasks.map (·.cell) :=
  World.map_modify_same h t l.tasks

theorem piles_setTask {t : TaskId} {f : TaskState φ → TaskState φ}
    (h : ∀ task, (f task).stack = task.stack) (l : Loop φ ρ κ) :
    (l.setTask t f).piles = l.piles := World.map_modify_same h t l.tasks

theorem piles_setStack (t : TaskId) (stack : List φ) (l : Loop φ ρ κ) :
    (l.setTask t fun task => { task with stack := stack }).piles = l.piles.set t stack := by
  have same : (l.setTask t fun task => { task with stack := stack }).piles =
      l.piles.modify t fun _ => stack := World.map_modify (fun _ => by rfl) t l.tasks
  rw [same, List.modify_eq_set]

/-- Tasks begin with new cells of their own. -/
theorem Ops.made {may : Outcome ρ → Prop} {R : CellId → Prop} {guards : Prop} {begun : List φ}
    {l l' : Loop φ ρ κ} (h : Ops may R guards begun l l') (t : TaskId) (new : l.tasks.length ≤ t)
    (inside : t < l'.tasks.length) :
    l.cells.length ≤ l'.taskCell t ∧ l'.kind? (l'.taskCell t) = some (.task t) := by
  induction h with
  | refl => exact absurd inside (Nat.not_lt.2 new)
  | @tail _ _ l₁ l₂ before step ih =>
    have same : l₂.tasks.length = l₁.tasks.length := Loop.length_tasks_of_places step.places
    rw [same] at inside
    obtain ⟨low, known⟩ := ih new inside
    have cell := (Ops.single step).taskCell inside
    obtain ⟨found, hf, -⟩ := Option.map_eq_some_iff.1 known
    rw [cell, step.kind? (List.getElem?_eq_some_iff.1 hf).1]
    exact ⟨low, known⟩
  | @spawn _ _ l₁ before f ih =>
    have tasks : (l₁.spawn f).2.tasks = l₁.tasks ++ [⟨l₁.cells.length, [f], none, false, 0⟩] := rfl
    have grown : (l₁.spawn f).2.tasks.length = l₁.tasks.length + 1 := by simp [tasks]
    rw [grown] at inside
    rcases Nat.lt_succ_iff_lt_or_eq.1 inside with old | rfl
    · obtain ⟨low, known⟩ := ih new old
      have cell := ((Ops.refl l₁ : Ops may R guards [] l₁ l₁).spawn f).taskCell old
      obtain ⟨found, hf, -⟩ := Option.map_eq_some_iff.1 known
      rw [cell]
      exact ⟨low, (kind?_newCell (List.getElem?_eq_some_iff.1 hf).1).trans known⟩
    · have cell : (l₁.spawn f).2.taskCell l₁.tasks.length = l₁.cells.length := by
        rw [Loop.taskCell, tasks]
        simp
      rw [cell]
      exact ⟨before.length_cells, kind?_newCell_self _ l₁⟩

end Schedule.Loop

namespace World

theorem Held.aside {l : Loop Frame Result Notice} {current : Option (TaskId × Outcome Result)}
    {w : World} {r : Role} {c : CellId} (h : { w with loop := l, current := current }.Held r c)
    (holds : ∀ c, l.Holds c → w.loop.Holds c) : w.Held r c := by
  cases h with
  | data hd => exact .data hd.aside
  | loop hl => exact .loop (holds c hl)

/-- Operations about one cell hold no other. -/
theorem Held.around {w : World} {R : CellId → Prop} {guards : Prop} {l l' : Loop Frame Result Notice}
    {r : Role} {c d : CellId} (h : { w with loop := l' }.Held r d)
    (step : Loop.Around Calm R guards c l l') :
    { w with loop := l }.Held r d ∨ (r = .loose ∧ d = c) := by
  cases h with
  | data hd => exact .inl (.data (DataHeld.aside (w := { w with loop := l }) hd))
  | loop hl => exact (step.holds d hl).imp (fun old => .loop old) fun same => ⟨rfl, same⟩

/-- Cells and tasks come about and keep their kinds, and nothing takes hold of an old cell. -/
structure Grown (w w' : World) : Prop where
  cells : w.loop.cells.length ≤ w'.loop.cells.length
  tasks : w.loop.tasks.length ≤ w'.loop.tasks.length
  kind : ∀ c, c < w.loop.cells.length → w'.loop.kind? c = w.loop.kind? c
  taskCell : ∀ t, t < w.loop.tasks.length → w'.loop.taskCell t = w.loop.taskCell t
  made : ∀ t, w.loop.tasks.length ≤ t → t < w'.loop.tasks.length →
    w.loop.cells.length ≤ w'.loop.taskCell t ∧
      w'.loop.kind? (w'.loop.taskCell t) = some (.task t)
  held : ∀ r c, w'.Held r c → w.Held r c ∨ Fresh w w' c
  exits : ∀ b, w.Exited b → w'.Exited b
  refers : ∀ drops t, w'.Refers drops t →
    w.Refers drops t ∨ (w.loop.tasks.length ≤ t ∧ t < w'.loop.tasks.length)

/-- What every move keeps that ends no task. `A` tells of the roles that depend on the task at
work. -/
structure Kept (A : Licence) (w w' : World) : Prop extends Grown w w' where
  offered : ∀ r c, w'.Held r c → w.Held r c ∨ (Fresh w w' c ∧ A.gives r)
  settles : Loop.Settles Calm w.loop w'.loop
  settled : ∀ c o, w.loop.outcome? c = none → w'.loop.outcome? c = some o → Settled A w w' c o

variable {A : Licence} {R : CellId → Prop} {begun : List Frame}
variable {w w' w'' : World}

theorem Keeps.kept (h : Keeps A R begun w w') : Kept A w w' where
  cells := h.ops.length_cells
  tasks := by
    rw [length_tasks_of_ops h.ops]
    exact Nat.le_add_right _ _
  settles := h.ops.settles
  kind _ hc := h.ops.kind? hc
  taskCell _ ht := h.ops.taskCell ht
  made := h.ops.made
  held r c hc := (h.held r c hc).imp_right And.left
  offered := h.held
  settled := h.settled
  exits := h.exits
  refers drops t ht := (h.refers drops t ht).imp_right fun new => ⟨new.le, new.inside h.ops⟩

theorem Fresh.grown {c : CellId} (h : Fresh w w' c) (grown : Grown w' w'') : Fresh w w'' c where
  new := h.new
  inside := Nat.lt_of_lt_of_le h.inside grown.cells
  kind t := grown.kind c h.inside ▸ h.kind t

theorem Grown.trans (h : Grown w w') (h' : Grown w' w'') : Grown w w'' where
  cells := Nat.le_trans h.cells h'.cells
  tasks := Nat.le_trans h.tasks h'.tasks
  kind c hc := (h'.kind c (Nat.lt_of_lt_of_le hc h.cells)).trans (h.kind c hc)
  taskCell t ht := (h'.taskCell t (Nat.lt_of_lt_of_le ht h.tasks)).trans (h.taskCell t ht)
  made t new inside := by
    by_cases old : t < w'.loop.tasks.length
    · obtain ⟨low, known⟩ := h.made t new old
      rw [h'.taskCell t old, h'.kind _ (Loop.lt_of_kind? known)]
      exact ⟨low, known⟩
    · obtain ⟨low, known⟩ := h'.made t (Nat.le_of_not_lt old) inside
      exact ⟨Nat.le_trans h.cells low, known⟩
  held r c hc := by
    rcases h'.held r c hc with old | fresh
    · exact (h.held r c old).imp_right fun fresh => fresh.grown h'
    · exact .inr ⟨Nat.le_trans h.cells fresh.new, fresh.inside, fresh.kind⟩
  exits b hb := h'.exits b (h.exits b hb)
  refers drops t ht := by
    rcases h'.refers drops t ht with old | ⟨new, inside⟩
    · rcases h.refers drops t old with older | ⟨new, inside⟩
      · exact .inl older
      · exact .inr ⟨new, Nat.lt_of_lt_of_le inside h'.tasks⟩
    · exact .inr ⟨Nat.le_trans h.tasks new, inside⟩

namespace Kept

theorem trans (h : Kept A w w') (h' : Kept A w' w'') : Kept A w w'' where
  toGrown := h.toGrown.trans h'.toGrown
  offered r c hc := by
    rcases h'.offered r c hc with old | ⟨fresh, gives⟩
    · exact (h.offered r c old).imp_right fun ⟨fresh, gives⟩ => ⟨fresh.grown h'.toGrown, gives⟩
    · exact .inr ⟨⟨Nat.le_trans h.cells fresh.new, fresh.inside, fresh.kind⟩, gives⟩
  settles := h.settles.trans h'.settles
  settled c o before after := by
    rcases h.settles c with same | ⟨-, o', settled, -⟩
    · cases h'.settled c o (same.trans before) after with
      | holder r held earned =>
        rcases h.offered r c held with old | ⟨fresh, gives⟩
        · exact .holder r old earned
        · exact .fresh r (fresh.grown h'.toGrown) gives earned
      | cancelled same kind => exact .cancelled same kind
      | fresh r fresh gives earned =>
        exact .fresh r ⟨Nat.le_trans h.cells fresh.new, fresh.inside, fresh.kind⟩ gives earned
    · have same := h'.settles.outcome settled
      rw [after] at same
      cases same
      cases h.settled c o before settled with
      | holder r held earned => exact .holder r held (earned.mono h'.exits)
      | cancelled same kind =>
        exact .cancelled same fun t => h'.kind c (lt_of_outcome? settled) ▸ kind t
      | fresh r fresh gives earned =>
        exact .fresh r (fresh.grown h'.toGrown) gives (earned.mono h'.exits)

theorem mono {A' : Licence} (h : Kept A w w')
    (grants : ∀ k id o, A.settles k id o → A'.settles k id o)
    (offers : ∀ r, A.gives r → A'.gives r) : Kept A' w w' where
  toGrown := h.toGrown
  offered r c hc := (h.offered r c hc).imp_right fun ⟨fresh, gives⟩ => ⟨fresh, offers r gives⟩
  settles := h.settles
  settled c o before after := by
    have known {r : Role} (earned : w'.Earned A r o) : w'.Earned A' r o := by
      cases r with
      | request k id => exact grants k id o earned
      | exit b => exact earned
      | loose => exact earned
    cases h.settled c o before after with
    | holder r held earned => exact .holder r held (known earned)
    | cancelled same kind => exact .cancelled same kind
    | fresh r fresh gives earned => exact .fresh r fresh (offers r gives) (known earned)

/-- A change of the loop that settles nothing and holds nothing more. -/
theorem of_loop {l : Loop Frame Result Notice} (current : Option (TaskId × Outcome Result))
    (length : l.cells.length = w.loop.cells.length)
    (outcome : ∀ c, l.outcome? c = w.loop.outcome? c) (kind : ∀ c, l.kind? c = w.loop.kind? c)
    (tasks : l.tasks.map (·.cell) = w.loop.tasks.map (·.cell))
    (holds : ∀ c, l.Holds c → w.loop.Holds c) :
    Kept A w { w with loop := l, current := current } where
  cells := Nat.le_of_eq length.symm
  tasks := by
    have same := congrArg List.length tasks
    simp only [List.length_map] at same
    exact Nat.le_of_eq same.symm
  settles := .of_eq outcome
  kind c _ := kind c
  taskCell t _ := Loop.taskCell_of_cells length tasks t
  made t new inside := by
    have same := congrArg List.length tasks
    simp only [List.length_map] at same
    have inside' : t < l.tasks.length := inside
    exact absurd (same ▸ inside') (Nat.not_lt.2 new)
  held r c hc := .inl (hc.aside holds)
  offered r c hc := .inl (hc.aside holds)
  settled c o before after := by
    have same : l.outcome? c = some o := after
    rw [outcome, before] at same
    cases same
  exits _ hb := hb
  refers _ _ ht := .inl ht.aside

/-- The first job leaves the queue. -/
theorem pop {job : Job Notice} {rest : List (Job Notice)} (h : w.loop.ready = job :: rest) :
    Kept A w (w.onLoop fun l => { l with ready := rest }) := by
  refine of_loop (l := { w.loop with ready := rest }) w.current rfl (fun _ => rfl) (fun _ => rfl)
    rfl fun c hc => ?_
  cases hc with
  | alarm timer member same => exact .alarm timer member same
  | waker d cell waker found member same => exact .waker d cell waker found member same
  | job job' member same => exact .job job' (h ▸ List.mem_cons_of_mem _ member) same

/-- A change of a task that leaves it its cell. -/
theorem setTask {f : TaskState Frame → TaskState Frame} (h : ∀ task, (f task).cell = task.cell)
    (t : TaskId) (current : Option (TaskId × Outcome Result)) (w : World) :
    Kept A w { w with loop := w.loop.setTask t f, current := current } :=
  of_loop current rfl (fun _ => rfl) (fun _ => rfl) (Loop.cells_setTask_tasks h w.loop)
    fun _ hc => hc.setTask

/-- A cell is settled that the loop holds. -/
theorem around {c : CellId} {guards : Prop} {l l' : Loop Frame Result Notice}
    (h : w.loop.Holds c) (step : Loop.Around Calm R guards c l l')
    (before : Kept A w { w with loop := l }) (outcome : ∀ d, l.outcome? d = w.loop.outcome? d)
    (good : ∀ o, l.outcome? c = none → l'.outcome? c = some o →
      o = .ok .nothing ∨ (o = .error .cancelled ∧ ∀ t, l'.kind? c ≠ some (.task t))) :
    Kept A w { w with loop := l' } where
  cells := Nat.le_trans before.cells step.ops.length_cells
  tasks := by
    have grown : l'.tasks.length = l.tasks.length := by
      simpa using length_tasks_of_ops step.ops
    have known : w.loop.tasks.length ≤ l.tasks.length := before.tasks
    exact Nat.le_trans known (Nat.le_of_eq grown.symm)
  settles := before.settles.trans step.ops.settles
  kind d hd := (step.ops.kind? (Nat.lt_of_lt_of_le hd before.cells)).trans (before.kind d hd)
  taskCell t ht := (step.ops.taskCell (Nat.lt_of_lt_of_le ht before.tasks)).trans
    (before.taskCell t ht)
  made t new inside := by
    have grown : l'.tasks.length = l.tasks.length := by
      simpa using length_tasks_of_ops step.ops
    have inside' : t < l.tasks.length := grown ▸ inside
    obtain ⟨low, known⟩ := before.made t new inside'
    have cell : l'.taskCell t = l.taskCell t := step.ops.taskCell inside'
    have kind : l'.kind? (l.taskCell t) = l.kind? (l.taskCell t) := step.ops.kind? (Loop.lt_of_kind? known)
    show w.loop.cells.length ≤ l'.taskCell t ∧ l'.kind? (l'.taskCell t) = _
    rw [cell, kind]
    exact ⟨low, known⟩
  held r d hd := by
    rcases hd.around step with old | ⟨rfl, rfl⟩
    · exact (before.held r d old).imp_right fun fresh => fresh.ops step.ops
    · exact .inl (.loop h)
  offered r d hd := by
    rcases hd.around step with old | ⟨rfl, rfl⟩
    · exact (before.offered r d old).imp_right fun ⟨fresh, gives⟩ => ⟨fresh.ops step.ops, gives⟩
    · exact .inl (.loop h)
  settled d o unsettled after := by
    by_cases same : d = c
    · subst same
      rcases good o ((outcome d).trans unsettled) after with same | ⟨same, kind⟩
      · exact .holder .loose (.loop h) same
      · exact .cancelled same kind
    · have after' : l'.outcome? d = some o := after
      rw [step.outcome d same, outcome, unsettled] at after'
      cases after'
  exits _ hb := hb
  refers _ _ ht := .inl ht.aside

end Kept

end World
end LanguageClient
