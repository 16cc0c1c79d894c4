import LanguageClient.Proofs.Client.Turns

/-!
The history of a session that is made, and then used and nothing else: what is known of it at every
moment.
-/

namespace LanguageClient

open Schedule

namespace World

variable {may : Frame → Prop} {R : CellId → Prop} {t u : TaskId} {w w' first : World}
variable {ms : List Moment} {m : Moment} {c : Call}
variable {root : Option Root} {command : List String} {timeout : Timeout} {capacity : Int}
variable {watchers : List Session.Watcher} {plans : List Backend.Plan}

/-- A session by itself that nobody has used, with the plans of the backends to come. -/
def ofNew (root : Option Root) (command : List String) (timeout : Timeout) (capacity : Int)
    (watchers : List Session.Watcher) (plans : List Backend.Plan) : World :=
  ofSession { Session.make root command timeout capacity with watchers := watchers } plans

/-- All that is known of a session that is used and nothing else. -/
structure Course (ms : List Moment) (w : World) : Prop where
  alone : w.Alone
  knowing : Knowing ms w
  standing : w.Standing
  duties : w.Duties
  calls : Calls ms w
  queued : w.Queued

theorem Course.goes (h : Course ms m.world) (goes : m.Goes w')
    (use : ∀ a, m.act = some a → a.isUse 0 = true) :
    Course (ms ++ [m]) w' ∧ Moves m.Begins (· < m.world.loop.cells.length) m.world w' := by
  obtain ⟨alone, moves⟩ := h.alone.goes goes use
  have first (g : Frame) (begins : m.Begins g) := isUse_of_begins use begins
  have standing : w'.Standing := h.standing.move h.alone moves.move first alone fun t o e rest runs top => by
    have stands : Frame.session 0 (.abandoned e) ∈ m.world.stack t := top ▸ List.mem_cons_self
    have fits := (h.knowing t ((h.alone.client.linked t).not_errand stands)).fits h.alone.sound runs
    rwa [top] at fits
  exact ⟨⟨alone, h.knowing.goes h.alone goes use, standing,
    h.duties.move h.standing h.alone moves h.knowing,
    h.calls.move h.standing h.alone h.knowing goes moves, h.queued.move h.alone goes moves⟩, moves⟩

theorem unused_ofNew : (ofNew root command timeout capacity watchers plans).Unused where
  loop := rfl
  current := rfl
  held r c held := by
    cases held with
    | reader held => cases held
    | writer held => cases held
    | waiter held => cases held
    | @taker s _ held => cases s <;> cases held
    | pending held => cases held
  refers drops t refers := by
    cases refers with
    | reader refers => cases refers
    | answer refers => cases refers
    | @reaper s _ refers => cases s <;> cases refers
    | relay refers => cases refers
    | report refers => cases refers

section New

variable (root : Option Root) (command : List String) (timeout : Timeout) (capacity : Int)
variable (watchers : List Session.Watcher) (plans : List Backend.Plan)

theorem stack_ofNew (t : TaskId) (f : Frame) :
    f ∉ (ofNew root command timeout capacity watchers plans).stack t := by
  rw [unused_ofNew.stack]
  exact List.not_mem_nil

theorem alone_ofNew : (ofNew root command timeout capacity watchers plans).Alone where
  toSolo := unused_ofNew.solo
  lone := ⟨rfl, Nat.zero_le 1, fun _ => rfl, nofun, .inl ⟨rfl, rfl⟩⟩
  places t f hf := absurd hf (stack_ofNew root command timeout capacity watchers plans t f)
  launching := by
    have none (t : TaskId) : ¬ (ofNew root command timeout capacity watchers plans).Launches 0 t :=
      fun ⟨_, launches⟩ => stack_ofNew root command timeout capacity watchers plans t _ launches
    exact ⟨fun _ => rfl, fun t launches => absurd launches (none t),
      fun t _ launches => absurd launches (none t)⟩
  launched t _ hb := absurd hb (stack_ofNew root command timeout capacity watchers plans t _)
  owner _ := ⟨rfl, rfl⟩

theorem standing_ofNew : (ofNew root command timeout capacity watchers plans).Standing := by
  have empty := stack_ofNew root command timeout capacity watchers plans
  have unopened (t : TaskId) : ¬ (ofNew root command timeout capacity watchers plans).Opening t :=
    fun ⟨p, hp, _⟩ => empty t _ hp
  exact {
    opened := fun t opening => absurd opening (unopened t)
    single := fun t u opening => absurd opening (unopened t)
    launched := fun t ⟨_, launches⟩ => absurd launches (empty t _)
    fresh := fun _ => ⟨rfl, rfl, rfl⟩
    given := nofun
    abandoned := fun t e he => absurd he (empty t _)
    wired := fun t k p hp => absurd hp (empty t _)
    connected := fun t p hp => absurd hp (empty t _)
    reaped := nofun
    ready := nofun
    outbox := nofun
    closed := nofun
    pending := nofun
    spawned := nofun }

theorem knowing_ofNew : Knowing [] (ofNew root command timeout capacity watchers plans) := by
  intro t _
  have none : (ofNew root command timeout capacity watchers plans).stack t = [] := unused_ofNew.stack t
  refine ⟨.ended none, ?_⟩
  rw [none]
  exact ⟨nofun, nofun, nofun, nofun⟩

theorem calls_ofNew : Calls [] (ofNew root command timeout capacity watchers plans) := by
  have uncalled (t : TaskId) (c : Call) : ¬ Called [] t c := fun ⟨_, member, _⟩ => nomatch member
  exact {
    inside := fun t c called => absurd called (uncalled t c)
    uses := fun t f hf => absurd hf (stack_ofNew root command timeout capacity watchers plans t f)
    tasks := fun t p hp => absurd hp (stack_ofNew root command timeout capacity watchers plans t _)
    touched := fun touched => absurd rfl touched
    started := nofun
    stopped := fun t timeout called => absurd called (uncalled t _)
    bottom := fun t called => absurd called (uncalled t _) }

theorem course_ofNew : Course [] (ofNew root command timeout capacity watchers plans) := by
  have empty := stack_ofNew root command timeout capacity watchers plans
  have fresh : ¬ (ofNew root command timeout capacity watchers plans).Over := by
    rintro (stopped | stopping)
    · cases stopped
    · cases stopping
  exact {
    alone := alone_ofNew root command timeout capacity watchers plans
    knowing := knowing_ofNew root command timeout capacity watchers plans
    standing := standing_ofNew root command timeout capacity watchers plans
    duties := ⟨fun past => absurd past fresh, fun past => absurd past fresh, fun past => absurd past fresh⟩
    calls := calls_ofNew root command timeout capacity watchers plans
    queued := ⟨fun t f hf => absurd hf (empty t f), fun t _ f _ _ hf => absurd hf (empty t f)⟩ }

end New

/-- All that is known holds at every moment of such a history. -/
theorem Path.course (path : Path (ofNew root command timeout capacity watchers plans) ms w)
    (use : ∀ a ∈ acts ms, a.isUse 0 = true) : Course ms w := by
  refine path.keeps (I := fun ms w => (∀ a ∈ acts ms, a.isUse 0 = true) → Course ms w)
    (fun _ => course_ofNew root command timeout capacity watchers plans)
    (fun ms m w' _ course goes use => ?_) use
  rw [acts_next] at use
  exact ((course fun a ha => use a (List.mem_append_left _ ha)).goes goes
    fun a act => use a (List.mem_append_right _ (by simp [act]))).1

/-- A moment of a history is the last of a history that comes before. -/
theorem Path.moment (path : Path first ms w) (member : m ∈ ms) :
    ∃ before w', Path first before m.world ∧ m.Goes w' ∧ before ++ [m] <+: ms := by
  induction path with
  | first => cases member
  | @next ms m' w' earlier goes ih =>
    rcases List.mem_append.1 member with old | last
    · obtain ⟨before, w', path, goes, within⟩ := ih old
      exact ⟨before, w', path, goes, within.trans (List.prefix_append _ _)⟩
    · cases List.mem_singleton.1 last
      exact ⟨ms, w', earlier, goes, List.prefix_rfl⟩

/-- At every moment of such a history all that is known holds, and of the move that follows too. -/
theorem Path.course_within {before : List Moment} (use : ∀ a ∈ acts ms, a.isUse 0 = true)
    (path : Path (ofNew root command timeout capacity watchers plans) before m.world)
    (within : before ++ [m] <+: ms) (goes : m.Goes w') : (∀ a ∈ acts before, a.isUse 0 = true) ∧
      Course before m.world ∧ Moves m.Begins (· < m.world.loop.cells.length) m.world w' := by
  have within : acts before ++ m.act.toList <+: acts ms := acts_next before m ▸ within.filterMap _
  have use' : ∀ a ∈ acts before, a.isUse 0 = true := fun a ha =>
    use a (within.subset (List.mem_append_left _ ha))
  have course := path.course use'
  exact ⟨use', course, (course.goes goes fun a act =>
    use a (within.subset (List.mem_append_right _ (by simp [act])))).2⟩

/-- What holds at a moment of a history and is kept from there on holds at its end. -/
theorem Path.onward (path : Path first ms w) (member : m ∈ ms) {I : List Moment → World → Prop}
    (begins : ∀ before, I before m.world)
    (next : ∀ before m' w', Path first before m'.world → before ++ [m'] <+: ms → m'.Goes w' →
      I before m'.world → I (before ++ [m']) w') : I ms w := by
  induction path with
  | first => cases member
  | @next ms m' w' earlier goes ih =>
    refine next ms m' w' earlier List.prefix_rfl goes ?_
    rcases List.mem_append.1 member with old | last
    · exact ih old fun before m' w' path within =>
        next before m' w' path (within.trans (List.prefix_append _ _))
    · cases List.mem_singleton.1 last
      exact begins ms

end World
end LanguageClient
