import LanguageClient.Proofs.Schedule.Attends
import LanguageClient.Proofs.World.Land
import LanguageClient.World.Reachable

/-!
What one move of a world can do, whether it is a step of its own, an act from outside, or the
passing of time. Everything that is kept by every move holds at every point of every run.
-/

namespace LanguageClient.World

open Schedule

variable {A : Licence} {R : CellId → Prop} {may : Frame → Prop} {begun : List Frame}
variable {w w' : World} {t : TaskId} {o : Outcome Result}

theorem resume_turn (t : TaskId) (f : Frame) (o : Outcome Result) (reaches : w.Reaches f R) :
    ∃ begun, Turn R w f o begun (w.resume t f o) := by
  cases f with
  | wait p => exact ⟨[], resumeWait_turn t p o reaches⟩
  | pass => exact ⟨[], .done (.refl w) fun easy => easy.outcome⟩
  | connection k p =>
    obtain ⟨begun, turn, -⟩ := resumeConnection_turn p o reaches
    exact ⟨begun, turn⟩
  | session s p => exact resumeSession_turn s p o w
  | relay r p => exact ⟨[], resumeRelay_turn p o reaches⟩
  | roster p => exact resumeRoster_turn reaches
  | workspace p => exact ⟨[], resumeWorkspace_turn p o reaches⟩

/-- The places at which tasks go on, now or later. -/
def frames (w : World) : List Frame := w.loop.piles.flatten

/-- The running task comes to its end. -/
def Ends (w : World) (t : TaskId) (o : Outcome Result) : Prop :=
  w.current = some (t, o) ∧ w.stack t = []

/-- What the task at work may settle requests with, and which cells it may make. -/
def Grants (w : World) : Licence where
  settles k id o := ∃ t o' f rest, w.current = some (t, o') ∧ w.stack t = f :: rest ∧
    (w.Answers f).settles k id o
  gives r := ∃ t o f rest, w.current = some (t, o) ∧ w.stack t = f :: rest ∧ w.Offers f r
  guards := False

/-- What holds of a world that has come about from a sound one. -/
structure Sound (w : World) : Prop where
  orderly : w.loop.Orderly (w.current.map (·.1))
  held : ∀ r c, w.Held r c → c < w.loop.cells.length
  owned : ∀ r c t, w.Held r c → w.loop.kind? c ≠ some (.task t)
  refers : ∀ drops t, w.Refers drops t → t < w.loop.tasks.length
  cells : ∀ t, t < w.loop.tasks.length → w.loop.kind? (w.loop.taskCell t) = some (.task t)
  names : ∀ t, ∀ f ∈ w.stack t, ∀ c ∈ f.names, w.loop.kind? c = some .plain
  lates : ∀ t, ∀ f ∈ w.stack t, ∀ u ∈ f.lates, u < w.loop.tasks.length
  done : ∀ t, t < w.loop.tasks.length →
    (w.loop.taskDone t = true ↔ w.stack t = [] ∧ ∀ o, w.current ≠ some (t, o))

theorem Sound.inside (h : w.Sound) (ht : t < w.loop.tasks.length) :
    w.loop.taskCell t < w.loop.cells.length := Loop.lt_of_kind? (h.cells t ht)

theorem Sound.going (h : w.Sound) (runs : w.current = some (t, o)) : w.loop.taskDone t = false := by
  refine Bool.eq_false_iff.2 fun done => ?_
  have inside := (h.orderly.running t (by rw [runs]; rfl)).1
  exact ((h.done t inside).1 done).2 o runs

/-- What every move keeps. A task that comes to its end settles its own cell. -/
structure Moved (w w' : World) : Prop extends Grown w w' where
  offered : ∀ r c, w'.Held r c → w.Held r c ∨ (Fresh w w' c ∧ w.Grants.gives r)
  settles : Loop.Settles (fun o => Calm o ∨ ∃ t, w.Ends t o) w.loop w'.loop
  settled : ∀ c o, w.loop.outcome? c = none → w'.loop.outcome? c = some o →
    Settled w.Grants w w' c o ∨ ∃ t, w.Ends t o ∧ c = w.loop.taskCell t

theorem Kept.moved (h : Kept w.Grants w w') : Moved w w' where
  toGrown := h.toGrown
  offered := h.offered
  settles c := (h.settles c).imp_right fun ⟨before, o, after, calm⟩ => ⟨before, o, after, .inl calm⟩
  settled c o before after := .inl (h.settled c o before after)

/-- The cells that a step may cancel, or the next job. -/
structure Covers (w : World) (R : CellId → Prop) : Prop where
  inside : ∀ c, R c → c < w.loop.cells.length
  refers : ∀ t, w.Refers true t → R (w.loop.taskCell t)
  starts : ∀ t o f rest, w.current = some (t, o) → w.stack t = f :: rest → ∀ c ∈ f.starts, R c
  lates : ∀ t o f rest, w.current = some (t, o) → w.stack t = f :: rest →
    ∀ u ∈ f.lates, R (w.loop.taskCell u)
  alarms : w.current = none → ∀ id rest, w.loop.ready = .fire id :: rest →
    ∀ timer ∈ w.loop.timers, timer.id = id →
    ∀ t, timer.alarm = .expire t → t < w.loop.tasks.length → R (w.loop.taskCell t)

/-- How the queue begins a move: as it was, or without its first job, which goes on with no task
unless that has ended. -/
inductive Pops (w : World) : Loop Frame Result Notice → Prop
  | none : Pops w w.loop
  | job {job : Job Notice} {rest : List (Job Notice)} (ready : w.loop.ready = job :: rest)
    (other : ∀ t waited, job = .resume t waited → w.loop.taskDone t = true) :
    Pops w { w.loop with ready := rest }

/-- Unless a timer goes off, a move while no task runs leaves alone what is out of reach. -/
def Calms (R : CellId → Prop) (w w' : World) : Prop :=
  (∃ id rest, w.loop.ready = .fire id :: rest ∧
    w'.loop = ({ w.loop with ready := rest }).fire id .nothing) ∨
  ∀ marked, w.loop.Shield R marked → Loop.Spares R marked w.loop w'.loop

/-- What a move does. Tasks begin from outside only at places that `may` be. -/
inductive Move (may : Frame → Prop) (R : CellId → Prop) (w w' : World) : Prop
  | rests {begun : List Frame} {l : Loop Frame Result Notice} (allowed : ∀ f ∈ begun, may f)
    (idle : w.current = none) (idle' : w'.current = none)
    (core : w'.core = w.core ∨ (∃ b, w'.core = w.core.cut b) ∨ ∃ k,
      begun = [.connection k (.read .start)] ∧ w'.core = w.core.setReader k w.loop.tasks.length)
    (piles : w'.loop.piles = w.loop.piles ++ begun.map fun f => [f])
    (waits : ∀ t, w'.loop.waits t = w.loop.waits t) (pops : Pops w l)
    (queue : l.ready <+: w'.loop.ready) (calms : Calms R w w')
    (refers : ∀ drops t, w'.Refers drops t → w.Refers drops t ∨ Begun begun w drops t)
    (due : ∀ t, w.loop.due t = true → w'.loop.due t = true)
    (attends : ∀ t, l.Attends t ∨ (w.loop.tasks.length ≤ t ∧ t < w'.loop.tasks.length) →
      w'.loop.Attends t)
    (members : ∀ c k, w.loop.cells.length ≤ c → w'.loop.kind? c = some k → ∀ m ∈ k.members, R m)
  | ends {t : TaskId} {o : Outcome Result} (ends : w.Ends t o) (idle' : w'.current = none)
    (core : w'.core = w.core) (piles : w'.loop.piles = w.loop.piles)
    (waits : ∀ t, w'.loop.waits t = w.loop.waits t) (done : w'.loop.outcome? (w.loop.taskCell t) = some o)
    (queue : w.loop.ready <+: w'.loop.ready)
    (same : w' = { w with current := none }.onLoop fun l => l.settle (l.taskCell t) o)
  | wakes {t : TaskId} {waited : Option CellId} {o : Outcome Result} (idle : w.current = none)
    (ready : w.loop.ready = .resume t waited :: w'.loop.ready)
    (going : w.loop.taskDone t = false) (runs : w'.current = some (t, o))
    (core : w'.core = w.core) (piles : w'.loop.piles = w.loop.piles)
    (waits : ∀ u, u ≠ t → w'.loop.waits u = w.loop.waits u)
    (outcome : if w.loop.due t then o = .error .cancelled
      else (waited = none ∧ o = .ok .nothing) ∨ ∃ c, waited = some c ∧ w.loop.outcome? c = some o)
    (same : w' = { w with
      loop := ({ w.loop with ready := w'.loop.ready }).setTask t fun task =>
        { task with waits := none, cancelDue := false }
      current := some (t, o) })
  | goes {t : TaskId} {o : Outcome Result} {f : Frame} {rest begun : List Frame}
    {flow : Flow Frame Result} {w₀ w₂ : World} (runs : w.current = some (t, o))
    (top : w.stack t = f :: rest) (taken : w₀ = { w with current := none })
    (steps : w₀.resume t f o = (flow, w₂)) (turn : Turn R w₀ f o begun (flow, w₂))
    (lands : Landed t rest flow w₂ w')

/-- All that is known of a move. -/
structure Moves (may : Frame → Prop) (R : CellId → Prop) (w w' : World) : Prop where
  moved : Moved w w'
  orderly : w'.loop.Orderly (w'.current.map (·.1))
  move : Move may R w w'

/-- A move while no task runs. -/
theorem Moves.rests {l : Loop Frame Result Notice} {guards : Prop} (orderly : w.loop.Orderly none)
    (idle : w.current = none) (pops : Pops w l) (ops : Loop.Ops Calm R guards begun l w'.loop)
    (calms : ¬ guards ∨ Calms R w w') (kept : Kept .none w w')
    (core : w'.core = w.core ∨ (∃ b, w'.core = w.core.cut b) ∨ ∃ k,
      begun = [.connection k (.read .start)] ∧ w'.core = w.core.setReader k w.loop.tasks.length)
    (idle' : w'.current = none) (allowed : ∀ f ∈ begun, may f)
    (refers : ∀ drops t, w'.Refers drops t → w.Refers drops t ∨ Begun begun w drops t) :
    Moves may R w w' := by
  have popped : l.Orderly none ∧ l.tasks = w.loop.tasks ∧ l.cells = w.loop.cells ∧
      l.timers = w.loop.timers ∧ l.nextTimer = w.loop.nextTimer ∧ l.expired = w.loop.expired := by
    cases pops with
    | none => exact ⟨orderly, rfl, rfl, rfl, rfl, rfl⟩
    | job ready => exact ⟨orderly.pop ready, rfl, rfl, rfl, rfl, rfl⟩
  obtain ⟨orderly', tasks, cells, timers, nextTimer, expired⟩ := popped
  have places : l.places = w.loop.places := Loop.places_of_tasks tasks
  have piles : l.piles = w.loop.piles := congrArg (List.map _) tasks
  refine ⟨(kept.mono (fun _ _ _ h => h.elim) fun _ h => h.elim).moved, ?_,
    .rests allowed idle idle' core ?_ ?_ pops
      ops.ready (calms.elim (fun calm => .inr fun marked shield => ?_) id) refers
      (fun t before => ops.due ((Loop.due_of_tasks tasks t).trans before)) (fun t known => ?_)
      fun c k new => ops.members (cells ▸ new)⟩
  · rw [idle']
    exact orderly'.ops ops
  · rw [ops.piles, piles]
  · exact fun t => (ops.waits t).trans (Loop.waits_of_places places t)
  · have before : l.Shield R marked := shield.keep (Nat.le_of_eq (congrArg _ cells.symm))
      (fun c _ => Loop.kind?_of_cells cells) (Loop.waits_of_places places)
    have first : Loop.Spares R marked w.loop l :=
      .of_leaves (.of_eq tasks cells) timers nextTimer expired
    exact first.trans (Loop.Spares.ops before calm ops) ops.settles
  · rcases known with here | ⟨new, inside⟩
    · exact here.ops ops
    · exact .of_begun ops (tasks ▸ new) inside

theorem Moves.quiet (orderly : w.loop.Orderly none) (idle : w.current = none)
    (h : Quiet .none R begun w w') (allowed : ∀ f ∈ begun, may f) : Moves may R w w' :=
  .rests orderly idle .none h.keeps.ops (.inl id) h.keeps.kept (.inl h.core)
    (h.keeps.current.trans idle) allowed h.keeps.refers

/-- A task comes to its end. -/
theorem ends_moves (orderly : w.loop.Orderly (some t)) (ends : w.Ends t o)
    (going : w.loop.taskDone t = false) (inside : w.loop.taskCell t < w.loop.cells.length) :
    Moves may R w ({ w with current := none }.onLoop fun l => l.settle (l.taskCell t) o) := by
  have tasks : (w.loop.settle (w.loop.taskCell t) o).tasks = w.loop.tasks := Loop.tasks_settle _ o _
  have places := Loop.places_of_tasks tasks
  have unsettled : w.loop.outcome? (w.loop.taskCell t) = none := Option.not_isSome_iff_eq_none.1
    (Bool.eq_false_iff.1 going)
  have after := Loop.outcome?_settle_self (o := o) inside unsettled
  have held (r : Role) (c : CellId)
      (hc : { w with loop := w.loop.settle (w.loop.taskCell t) o, current := none }.Held r c) :
      w.Held r c := hc.aside fun _ hl => hl.settle
  refine ⟨⟨⟨?_, ?_, ?_, ?_, ?_, fun r c hc => .inl (held r c hc), fun _ hb => hb, ?_⟩,
    fun r c hc => .inl (held r c hc), ?_, ?_⟩, orderly.stop.settle _ o,
    .ends ends rfl rfl (congrArg (List.map _) tasks) (Loop.waits_of_places places) after
      (Loop.ready_settle _ o w.loop) rfl⟩
  · exact Nat.le_of_eq (Loop.length_cells_settle _ o w.loop).symm
  · exact Nat.le_of_eq (congrArg _ tasks.symm)
  · exact fun c _ => Loop.kind?_settle _ c o w.loop
  · exact fun u _ => Loop.taskCell_of_cells (Loop.length_cells_settle _ o w.loop)
      (congrArg (List.map _) tasks) u
  · exact fun u new old => absurd (tasks ▸ old) (Nat.not_lt.2 new)
  · exact fun _ u hu => .inl hu.aside.aside
  · exact .settle (.inr ⟨t, ends⟩) _ w.loop
  · intro c o' before settled
    right
    rcases Loop.outcome?_settle (w.loop.taskCell t) c o w.loop with same | ⟨same, -, known⟩
    · have settled' : (w.loop.settle (w.loop.taskCell t) o).outcome? c = some o' := settled
      rw [same, before] at settled'
      cases settled'
    · have settled' : (w.loop.settle (w.loop.taskCell t) o).outcome? c = some o' := settled
      rw [known] at settled'
      cases settled'
      exact ⟨t, ends, same⟩

theorem Covers.reaches {f : Frame} {rest : List Frame} (covers : w.Covers R) (runs : w.current = some (t, o))
    (top : w.stack t = f :: rest) : { w with current := none }.Reaches f R :=
  ⟨covers.inside, fun u hu => covers.refers u hu.aside, covers.starts t o f rest runs top,
    covers.lates t o f rest runs top⟩

/-- A task goes on by a step. -/
theorem goes_moves {f : Frame} {rest : List Frame} (sound : w.Sound) (covers : w.Covers R)
    (runs : w.current = some (t, o)) (top : w.stack t = f :: rest) :
    Moves may R w (land t rest ({ w with current := none }.resume t f o)) := by
  let w₀ : World := { w with current := none }
  have orderly : w.loop.Orderly (some t) := by
    have known := sound.orderly
    rwa [runs] at known
  obtain ⟨begun, turn⟩ := resume_turn t f o (covers.reaches runs top)
  rcases step : w₀.resume t f o with ⟨flow, w₂⟩
  rw [step] at turn
  have kept := turn.keeps
  have started : Kept w.Grants w w₀ :=
    .of_loop none rfl (fun _ => rfl) (fun _ => rfl) rfl fun _ hc => hc
  have stepped : Kept w.Grants w₀ w₂ := kept.kept.mono
    (fun k id o' settles => ⟨t, o, f, rest, runs, top, settles⟩)
    fun r gives => ⟨t, o, f, rest, runs, top, gives⟩
  have inside (c : CellId) (g : Frame) (same : flow = .await c g) : c < w₂.loop.cells.length := by
    rcases turn.awaits.cell c g same with named | ⟨drops, u, known, rfl⟩ | made
    · have plain := sound.names t f (top ▸ List.mem_cons_self) c named
      exact Nat.lt_of_lt_of_le (Loop.lt_of_kind? plain) kept.ops.length_cells
    · exact Nat.lt_of_lt_of_le (sound.inside (sound.refers drops u known.aside)) kept.ops.length_cells
    · exact made.inside
  have lands : Landed t rest flow w₂ (land t rest (flow, w₂)) :=
    land_spec rest (orderly.ops kept.ops) kept.current inside
  exact ⟨((started.trans stepped).trans (lands.aside.kept _)).moved, lands.orderly,
    .goes runs top rfl step turn lands⟩

/-- A task goes on that the first job is for. -/
theorem wake_moves {waited : Option CellId} {rest : List (Job Notice)} (orderly : w.loop.Orderly none)
    (idle : w.current = none) (ready : w.loop.ready = .resume t waited :: rest) :
    Moves may R w ((w.onLoop fun l => { l with ready := rest }).wake t waited) := by
  obtain ⟨inside, -, known⟩ := orderly.resuming t waited (ready ▸ List.mem_cons_self)
  have popped : Kept .none w (w.onLoop fun l => { l with ready := rest }) := .pop ready
  unfold wake
  split
  · next task found =>
    split
    · next done =>
      refine .rests orderly idle (.job ready fun u waited' same => ?_) (.refl _)
        (.inl not_false) popped (.inl rfl) idle (fun f (hf : f ∈ []) => nomatch hf) fun _ _ hu =>
          .inl hu.aside
      cases same
      exact done
    · next going =>
      let f (task : TaskState Frame) : TaskState Frame :=
        { task with waits := none, cancelDue := false }
      have set : Kept .none w
          (((w.onLoop fun l => { l with ready := rest }).setTask t f).goOn t
            ((w.onLoop fun l => { l with ready := rest }).wakeOutcome task waited)) :=
        popped.trans (.setTask (fun _ => by rfl) t _ _)
      refine ⟨(set.mono (fun _ _ _ h => h.elim) fun _ h => h.elim).moved, orderly.wake ready fun _ => by rfl,
        .wakes idle ready (Bool.eq_false_iff.2 going) rfl rfl
          (Loop.piles_setTask (fun _ => by rfl) _) ?_ ?_ rfl⟩
      · intro u hu
        refine (Loop.waits_setTask t u f _).trans ?_
        rw [if_neg (Ne.symm hu)]
        rfl
      · have late : w.loop.due t = task.cancelDue := by
          have found' : w.loop.tasks[t]? = some task := found
          rw [Loop.due, found']
          rfl
        unfold wakeOutcome
        rw [late]
        split
        · rfl
        · cases waited with
          | none => exact .inl ⟨rfl, rfl⟩
          | some c =>
            obtain ⟨o, settled⟩ := Option.isSome_iff_exists.1 (known c rfl)
            refine .inr ⟨c, rfl, ?_⟩
            have same : (w.onLoop fun l => { l with ready := rest }).loop.outcome? c = some o := settled
            dsimp only
            rw [same]
            exact settled
  · next missing =>
    have found : w.loop.tasks[t]? = none := missing
    rw [List.getElem?_eq_getElem inside] at found
    cases found

/-- A job is carried out that goes on with no task. -/
theorem runJob_moves {job : Job Notice} {rest : List (Job Notice)} (orderly : w.loop.Orderly none)
    (idle : w.current = none) (covers : w.Covers R) (ready : w.loop.ready = job :: rest)
    (other : job.resumed? = none) :
    Moves may R w ((w.onLoop fun l => { l with ready := rest }).runJob job) := by
  let l : Loop Frame Result Notice := { w.loop with ready := rest }
  let w₀ : World := w.onLoop fun l => { l with ready := rest }
  have popped (A : Licence) : Kept A w w₀ := .pop ready
  have pops : Pops w l := by
    refine .job ready fun u waited same => ?_
    rw [same] at other
    cases other
  have rests (guards : Prop) {w' : World} (h : Quiet (.idle guards) R [] w₀ w')
      (calms : ¬ guards ∨ Calms R w w') : Moves may R w w' :=
    .rests orderly idle pops h.keeps.ops calms
      (((popped _).trans h.keeps.kept).mono (fun _ _ _ h => h) fun _ h => h) (.inl h.core)
      (h.keeps.current.trans idle) (fun f (hf : f ∈ []) => nomatch hf) fun drops u hu =>
        (h.keeps.refers drops u hu).imp_left fun old => old.aside
  have around (guards : Prop) {c : CellId} {l' : Loop Frame Result Notice} (holds : w.loop.Holds c)
      (step : Loop.Around Calm R guards c l l')
      (calms : ¬ guards ∨ Calms R w { w with loop := l' })
      (good : ∀ o, l.outcome? c = none → l'.outcome? c = some o →
        o = .ok .nothing ∨ (o = .error .cancelled ∧ ∀ t, l'.kind? c ≠ some (.task t))) :
      Moves may R w { w with loop := l' } :=
    .rests orderly idle pops step.ops calms (.around holds step (popped _) (fun _ => rfl) good)
      (.inl rfl) idle (fun f (hf : f ∈ []) => nomatch hf) fun _ _ hu => .inl hu.aside
  have released {c : CellId} {o : Outcome Result} {l' : Loop Frame Result Notice}
      (before : l'.outcome? c = none) (after : (l'.settle c (.ok .nothing)).outcome? c = some o) :
      o = .ok .nothing := by
    rcases Loop.outcome?_settle c c (.ok .nothing) l' with same | ⟨-, -, known⟩
    · rw [same, before] at after
      cases after
    · rw [known] at after
      exact (Option.some.inj after).symm
  have member : job ∈ w.loop.ready := ready ▸ List.mem_cons_self
  cases job with
  | resume => cases other
  | member group =>
    refine around False (.job _ member rfl)
      (.countDown (calm_ok _) calm_cancelled group l) (.inl id) ?_
    intro o before after
    refine (Loop.outcome?_countDown before after).imp_right fun ⟨same, kind⟩ => ⟨same, fun t => ?_⟩
    rw [Loop.kind?_countDown]
    exact kind t
  | release c =>
    exact around False (.job _ member rfl) (.settle (calm_ok _) (by simp) c l) (.inl id)
      fun o before after => .inl (released before after)
  | call n =>
    cases n with
    | answerDone k u =>
      refine rests False
        ⟨(Keeps.refl w₀).setConnection k (fun _ _ hp => .inl hp) (fun _ _ hu => .inl hu)
        (fun _ _ hu => .inl (List.mem_filter.1 hu).1), core_setConnection (fun _ => ?_) k w₀⟩ (.inl id)
      rfl
    | reportDone u =>
      have told : Quiet .none R [] w₀ (w₀.setWorkspace fun ws =>
          { ws with reports := ws.reports.filter (· ≠ u) }) := by
        refine quiet_setWorkspace (fun _ _ hu => ?_) (fun _ => ?_) w₀
        · exact (List.mem_filter.1 hu).1
        · rfl
      exact rests False told (.inl id)
  | fire id =>
    have fires : Calms R w { w with loop := l.fire id .nothing } := .inl ⟨id, rest, ready, rfl⟩
    show Moves may R w { w with loop := l.fire id .nothing }
    have unfolded : l.fire id .nothing = l.fire id .nothing := rfl
    conv at unfolded => rhs; rw [Loop.fire]
    cases found : l.timers.find? fun timer => timer.id = id with
    | none =>
      rw [found] at unfolded
      rw [unfolded] at fires ⊢
      exact rests True (.refl w₀) (.inr fires)
    | some timer =>
      rw [found] at unfolded
      have known : timer ∈ w.loop.timers := List.mem_of_find?_eq_some found
      have named : timer.id = id := by simpa using List.find?_some found
      dsimp only at unfolded
      cases does : timer.alarm with
      | release c =>
        rw [does] at unfolded
        rw [unfolded] at fires ⊢
        refine around True (.alarm timer known does)
          ((Loop.Around.stopTimer id trivial c l).trans (.settle (calm_ok _) (by simp) c _))
          (.inr fires) fun o before after => .inl ?_
        exact @released _ _ (l.stopTimer id) before after
      | expire u =>
        rw [does] at unfolded
        rw [unfolded] at fires ⊢
        have stopped : Quiet (.idle True) R [] w₀ (w₀.onLoop (·.stopTimer id)) :=
          ⟨(Keeps.refl w₀).aloof fun c => .stopTimer id trivial c l, rfl⟩
        have given : Quiet (.idle True) R [] w₀
            ((w₀.onLoop (·.stopTimer id)).onLoop (·.cancelTask u)) := by
          by_cases inside : u < w.loop.tasks.length
          · exact ⟨stopped.keeps.cancelTask
              (covers.alarms idle id rest ready timer known named u does inside), rfl⟩
          · have same : (w₀.onLoop (·.stopTimer id)).loop.cancelTask u = l.stopTimer id :=
              Loop.cancelTask_of_le (l := l.stopTimer id) (Nat.le_of_not_lt inside)
            rw [onLoop, same]
            exact stopped
        have noted := given.keeps.aloof
          (f := fun l' => { l' with expired := (l.stopTimer id).expired ++ [id] })
          fun c => .expire trivial _ c _
        exact rests True ⟨noted, rfl⟩ (.inr fires)

theorem step_moves (sound : w.Sound) (covers : w.Covers R) : Moves may R w w.step := by
  have orderly := sound.orderly
  unfold step
  split
  · next t o runs =>
    cases top : w.stack t with
    | nil =>
      rw [runs] at orderly
      rw [stepTask_nil top]
      exact ends_moves orderly ⟨runs, top⟩ (sound.going runs)
        (sound.inside (orderly.running t rfl).1)
    | cons f rest =>
      rw [stepTask_cons top]
      exact goes_moves sound covers runs top
  · next idle =>
    rw [idle] at orderly
    split
    · exact .quiet orderly idle (.refl w) (fun f (hf : f ∈ []) => nomatch hf)
    · next job rest ready =>
      cases job with
      | resume t waited => exact wake_moves orderly idle ready
      | member group => exact runJob_moves orderly idle covers ready rfl
      | release c => exact runJob_moves orderly idle covers ready rfl
      | call n => exact runJob_moves orderly idle covers ready rfl
      | fire id => exact runJob_moves orderly idle covers ready rfl

theorem carryOut_moves (orderly : w.loop.Orderly none) (idle : w.current = none) (b : BackendId)
    (d : Backend.Deed) : Moves may R w (w.carryOut b d) := by
  have quiet {w' : World} (h : Quiet .none R [] w w') : Moves may R w w' :=
    .quiet orderly idle h (fun f (hf : f ∈ []) => nomatch hf)
  cases d with
  | write bytes => exact quiet (quiet_feed b bytes w)
  | exit code endsOutput => exact quiet (quiet_exit b code endsOutput w)
  | endOutput => exact quiet (quiet_endOutput b w)
  | breakInput =>
    have kept : Keeps .none R [] w (w.breakInput b) :=
      (Keeps.refl w).setBackend b (fun _ _ hc => .inl hc) (fun _ _ hc => .inl hc)
        (fun _ _ hc => .inl hc) fun _ hx => hx
    exact .rests orderly idle .none kept.ops (.inl id) kept.kept (.inr (.inl ⟨b, core_breakInput b w⟩))
      idle (fun f (hf : f ∈ []) => nomatch hf) kept.refers
  | stallInput =>
    exact quiet ⟨(Keeps.refl w).setBackend b (fun _ _ hc => .inl hc) (fun _ _ hc => .inl hc)
      (fun _ _ hc => .inl hc) (fun _ hx => hx), core_setBackend (fun _ => by rfl) b w⟩
  | unstallInput => exact quiet (quiet_unstallInput b w)

/-- A connection's owner stays when reading starts. -/
theorem startReading_spec (k : ConnectionId) (w : World) :
    Keeps .none R [.connection k (.read .start)] w
        ((w.setConnection k fun x => { x with owner := (w.connection k).owner }).startReading k) ∧
      ((w.setConnection k fun x => { x with owner := (w.connection k).owner }).startReading k).core =
        w.core.setReader k w.loop.tasks.length := by
  have same : w.setConnection k (fun x => { x with owner := (w.connection k).owner }) = w := by
    have known : w.connections.modify k (fun x => { x with owner := (w.connection k).owner }) =
        w.connections.modify k id := by
      refine modify_congr fun x found => ?_
      have here : w.connection k = x := by
        rw [World.connection, List.getD_eq_getElem?_getD, found]
        rfl
      rw [here]
      rfl
    rw [setConnection, known, List.modify_id]
  rw [same]
  refine ⟨((Keeps.refl w).spawn (.connection k (.read .start))).setConnection k
    (fun _ _ hp => .inl hp) (fun x t ht => ?_) (fun _ _ ht => .inl ht),
    core_setConnection_eq (fun _ => by rfl) k _⟩
  cases ht
  exact .inr (.only (fun _ => rfl) rfl)

theorem take_moves {a : Act} (orderly : w.loop.Orderly none) (idle : w.current = none)
    (listens : ∀ k owner, a = .listen k owner →
      owner = (w.connection k).owner ∧ may (.connection k (.read .start)))
    (calls : ∀ c, a = .call c → may c.frame)
    (cancels : ∀ t, a = .cancel t → t < w.loop.tasks.length → R (w.loop.taskCell t)) :
    Moves may R w (w.take a) := by
  have quiet {w' : World} (h : Quiet .none R [] w w') : Moves may R w w' :=
    .quiet orderly idle h (fun f (hf : f ∈ []) => nomatch hf)
  cases a with
  | call c =>
    exact .quiet orderly idle ⟨(Keeps.refl w).spawn c.frame, rfl⟩
      (List.forall_mem_singleton.2 (calls c rfl))
  | cancel t =>
    by_cases inside : t < w.loop.tasks.length
    · exact quiet ⟨(Keeps.refl w).cancelTask (cancels t rfl inside), rfl⟩
    · have same : w.take (.cancel t) = w := by
        rw [take, onLoop, Loop.cancelTask_of_le (Nat.le_of_not_lt inside)]
      rw [same]
      exact quiet (.refl w)
  | listen k owner =>
    obtain ⟨rfl, allowed⟩ := listens k owner rfl
    obtain ⟨kept, core⟩ := startReading_spec (R := R) k w
    exact .rests orderly idle .none kept.ops (.inl id) kept.kept (.inr (.inr ⟨k, rfl, core⟩)) idle
      (List.forall_mem_singleton.2 allowed) kept.refers
  | kill s => exact quiet (quiet_killSession s w)
  | forget r uri => exact quiet (quiet_setRelay r (fun _ => by rfl) w)
  | backend b d =>
    rw [take]
    split
    · exact carryOut_moves orderly idle b d
    · exact quiet (.refl w)
  | plan plans => exact quiet ⟨(Keeps.refl w).aside rfl rfl rfl rfl rfl rfl rfl, rfl⟩
  | hook h => exact quiet ⟨keeps_setRoster (fun r => { r with hook := h }) w, rfl⟩
  | set key value uri everywhere =>
    have told : Quiet .none R [] w (w.setWorkspace fun ws =>
        { ws with settings := (ws.settings.update key value uri everywhere).1 }) :=
      quiet_noteWorkspace (fun _ => by rfl) (fun _ => by rfl) w
    exact quiet told

theorem tick_moves (orderly : w.loop.Orderly none) (idle : w.current = none) :
    Moves may R w w.tick := by
  have quiet {w' : World} (h : Quiet .none R [] w w') : Moves may R w w' :=
    .quiet orderly idle h (fun f (hf : f ∈ []) => nomatch hf)
  unfold tick
  split
  · next timer _ =>
    have due : Keeps .none R [] w (w.onLoop fun l =>
        { l with now := max l.now timer.due }.push (.fire timer.id)) := by
      refine (Keeps.refl w).aloof fun c => .trans ?_ (.push rfl rfl c _)
      exact .later _ c _
    exact quiet ⟨due, rfl⟩
  · exact quiet (.refl w)

theorem waitUntil_moves (orderly : w.loop.Orderly none) (idle : w.current = none) (target : Time) :
    Moves may R w (w.waitUntil target) := by
  have later : Keeps .none R [] w (w.waitUntil target) :=
    (Keeps.refl w).aloof fun c => .later _ c _
  exact .quiet orderly idle ⟨later, rfl⟩ (fun f (hf : f ∈ []) => nomatch hf)

end LanguageClient.World
