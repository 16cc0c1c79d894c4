import LanguageClient.Proofs.Client.Notes
import LanguageClient.Proofs.Roster.Entries
import LanguageClient.Proofs.Workspace.Ranges

/-!
Concurrent calls for a key share one launch: until its session stops, crashes or fails to start there is
one session of the key, it is started once, every call comes to it, and the hook is told of it once.
-/

namespace LanguageClient

open Schedule

/-- No session of a key has been stopped or has lost its process. -/
def World.Lives (w : World) (key : String) : Prop :=
  ∀ s, s < w.sessions.length → (w.session s).key = key → (w.session s).state ≠ .stopped ∧
    ∀ b, (w.session s).backend = some b → (w.backend b).exitCode = none

namespace Moment

variable (m : Moment) (key : String) (s : SessionId)

/-- A call for the session of a key is carried out. -/
def Seeks : Prop :=
  ∃ t root r rest, Session.keyOf root = key ∧ m.Runs t (.roster (.ensure root)) (.ok r) rest

/-- A session is started. -/
def Starts : Prop := ∃ t r rest, m.Runs t (.session s .start) (.ok r) rest

/-- Whoever has launched a session hears that it has started, and the ready hook is called for it. -/
def Hooks : Prop :=
  ∃ t key r rest, m.Runs t (.roster (.sessionStarted key s)) (.ok r) rest ∧
    let w : World := { m.world with current := none }
    (w.sessionStarted key s (.ok r)).2 = (w.setRoster fun x => { x with lastStarted := some key }).runHook s

/-- A call for the session of a key that has been carried out comes to its end. -/
def Returns (o : Outcome Result) : Prop :=
  ∃ t f o' rest, m.Runs t f o' rest ∧
    ((∃ root r, Session.keyOf root = key ∧ f = .roster (.ensure root) ∧ o' = .ok r) ∨
      ∃ s, f = .roster (.sessionStarted key s)) ∧
    ({ m.world with current := none }.resume t f o').1 = .done o

/-- A call for the session of a key launches one: it does not come to its end when it is carried out. -/
def Launches : Prop := m.Seeks key ∧ ∀ o, ¬ m.Returns key o

/-- The session of a key is taken off the roster to be stopped. -/
def Dismisses : Prop :=
  (m.world.registered? key).isSome = true ∧ ∃ t p r rest, m.Runs t (.roster p) (.ok r) rest ∧
    ((∃ root, Session.keyOf root = key ∧ p = .stop root) ∨ ∃ timeout, p = .stopAll timeout)

/-- A launch fails: there is nothing to launch for a key that has no session, or the start has failed. -/
inductive FailsLaunch : Prop
  | unmade {t : TaskId} {root : Option Root} {r : Result} {rest : List Frame} {e : Failure}
    (runs : m.Runs t (.roster (.ensure root)) (.ok r) rest) (same : Session.keyOf root = key)
    (absent : m.world.registered? key = none) (failed : (m.world.createSession root).1 = .error e)
  | failed {t : TaskId} {s : SessionId} {e : Failure} {rest : List Frame}
    (runs : m.Runs t (.roster (.sessionStarted key s)) (.error e) rest)

/-- Nothing happens at this moment to the session of a key but its launch. -/
structure Smooth : Prop where
  lives : m.world.Lives key
  kept : ¬ m.Dismisses key
  launches : ¬ m.FailsLaunch key

end Moment

namespace World

/-- The session of a key: it stands on the roster, and there is no other of that key. -/
structure Sole (w : World) (key : String) (s : SessionId) : Prop where
  inside : s < w.sessions.length
  own : (w.session s).key = key
  only : ∀ s', s' < w.sessions.length → (w.session s').key = key → s' = s
  registered : w.registered? key = some s
  unreaped : (w.session s).reaper = none

/-- How far the launch of a session has come in a history. -/
inductive Progress (key : String) (s : SessionId) (ms : List Moment) (w : World) : Prop
  | made {t : TaskId} {r : Result} {below : List Frame} (runs : w.current = some (t, .ok r))
    (stack : w.stack t = .session s .start :: .roster (.sessionStarted key s) :: below)
    (suits : (w.session s).Suits .start) (clear : ∀ g ∈ below, g.launches s = false)
    (others : ∀ u, u ≠ t → ∀ g ∈ w.stack u, g.launches s = false)
    (unstarted : ∀ m ∈ ms, ¬ m.Starts s) (unhooked : ∀ m ∈ ms, ¬ m.Hooks s)
  | goes {t : TaskId} {below : List Frame} (launch : w.Launch key s t below)
    (clear : ∀ g ∈ below, g.launches s = false)
    (others : ∀ u, u ≠ t → ∀ g ∈ w.stack u, g.launches s = false)
    (started : Once (·.Starts s) ms) (unhooked : ∀ m ∈ ms, ¬ m.Hooks s)
  | ended (clear : ∀ t, ∀ g ∈ w.stack t, g.launches s = false) (ready : (w.session s).state = .ready)
    (started : Once (·.Starts s) ms) (hooked : Once (·.Hooks s) ms)

/-- Nobody has called for the session of a key. -/
structure Unsought (key : String) (ms : List Moment) (w : World) : Prop where
  unmade : ∀ s, s < w.sessions.length → (w.session s).key ≠ key
  absent : w.registered? key = none
  never : ∀ m ∈ ms, ¬ m.Seeks key
  silent : ∀ m ∈ ms, ∀ o, ¬ m.Returns key o
  seen : ∀ m ∈ ms, ∀ s, m.Starts s ∨ m.Hooks s → s < w.sessions.length

/-- Whoever has called for the session of a key shares the one that the first call has launched. -/
structure Shared (key : String) (s : SessionId) (ms : List Moment) (w : World) : Prop where
  sole : w.Sole key s
  progress : Progress key s ms w
  launched : Once (·.Launches key) ms
  returned : ∀ m ∈ ms, ∀ o, m.Returns key o → o = .ok (.session (some s))
  hooks : ∀ m ∈ ms, m.Hooks s → (m.world.session s).state = .ready ∧ m.world.registered? key = some s

variable {may : Frame → Prop} {R : CellId → Prop} {t u : TaskId} {w w' w₂ : World}
variable {f g : Frame} {rest begun below : List Frame} {o : Outcome Result}
variable {flow : Flow Frame Result} {s : SessionId} {key : String} {root : Option Root} {r : Result}
variable {m : Moment} {ms : List Moment}

/-- A session of a key that is starting or ready runs. -/
theorem Lives.running (lives : w.Lives key) (inside : s < w.sessions.length)
    (own : (w.session s).key = key)
    (state : (w.session s).state = .starting ∨ (w.session s).state = .ready) :
    w.isRunning s = true := by
  obtain ⟨-, process⟩ := lives s inside own
  have going : ((w.session s).state = .starting || (w.session s).state = .ready) = true := by
    simpa using state
  unfold isRunning
  dsimp only
  rw [going, Bool.true_and]
  split
  · next b found => exact Option.isNone_iff_eq_none.2 (process b found)
  · rfl

/-- A session keeps its reaper away as long as it has not come to its end. -/
theorem Move.unreaped (m : Move may R w w') (inside : s < w.sessions.length)
    (unreaped : (w.session s).reaper = none) (alive : (w'.session s).state ≠ .stopped) :
    (w'.session s).reaper = none := by
  rw [← reaper_core] at unreaped ⊢
  rw [← state_core] at alive
  rcases m.session_cases s with same | ⟨t, f, o, rest, begun, flow, w₂, strides, shifts⟩ | ⟨here, -⟩
  · rw [same]
    exact unreaped
  · generalize w'.core.session s = y at shifts alive ⊢
    cases shifts with
    | loses => exact absurd rfl alive
    | _ => exact unreaped
  · exact absurd inside (Nat.not_lt.2 (Nat.le_of_eq here.symm))

theorem Session.Suits.running {x : Session} {p : Session.Stage} (h : x.Suits p) (later : p ≠ .start)
    (alive : x.state ≠ .stopped) : x.state = .starting ∨ x.state = .ready := by
  cases p with
  | start => exact absurd rfl later
  | launched | initializeAnswered | initializedSent => exact .inl h.1
  | abandoned =>
    have started : x.state ≠ .unstarted := h
    cases state : x.state with
    | unstarted => exact absurd state started
    | starting => exact .inl rfl
    | ready => exact .inr rfl
    | stopped => exact absurd state alive
  | flushed => exact .inr h
  | _ => cases h

/-- From the first call to the end of the launch, and after that, the session runs for whoever asks. -/
theorem Progress.running (progress : Progress key s ms w) (sole : w.Sole key s) (lives : w.Lives key)
    (runs : w.current = some (t, o)) (top : w.stack t = .roster (.ensure root) :: rest) :
    w.isRunning s = true := by
  refine lives.running sole.inside sole.own ?_
  cases progress with
  | made runs' stack =>
    cases runs.symm.trans runs'
    cases top.symm.trans stack
  | goes launch =>
    cases launch with
    | goes _ _ _ later suits =>
      exact Session.Suits.running suits later (lives s sole.inside sole.own).1
    | returns runs' stack =>
      cases runs.symm.trans runs'
      cases top.symm.trans stack
  | ended _ ready => exact .inr ready

section Step

variable (sound : m.world.Sound) (step : Move may R m.world w') (smooth : m.Smooth key)
variable (lives : w'.Lives key)

/-- Whoever asks for a key whose session runs gets that, and nothing else happens. -/
theorem Sole.shares (sole : m.world.Sole key s) (running : m.world.isRunning s = true)
    (same : Session.keyOf root = key)
    (strides : Strides R m.world w' t (.roster (.ensure root)) (.ok r) rest begun flow w₂) :
    flow = .done (.ok (.session (some s))) ∧ w'.core = m.world.core := by
  subst same
  obtain ⟨answer, rfl⟩ := strides.shares sole.registered running
  exact ⟨answer, strides.lands.aside.core⟩

include sound step smooth lives in
theorem Sole.move (sole : m.world.Sole key s)
    (running : ∀ t o root rest, m.world.current = some (t, o) →
      m.world.stack t = .roster (.ensure root) :: rest → m.world.isRunning s = true) :
    w'.Sole key s := by
  have inside := Nat.lt_of_lt_of_le sole.inside step.grown.1
  have own := (step.key_kept sole.inside).trans sole.own
  have alive := (lives s inside own).1
  -- whoever calls for the key finds its session running
  have asks {t : TaskId} {root : Option Root} {r : Result} {rest : List Frame}
      (runs : m.Runs t (.roster (.ensure root)) (.ok r) rest) (same : Session.keyOf root = key) :
      w'.core = m.world.core := by
    obtain ⟨begun, flow, w₂, strides⟩ := sound.strides_of_runs step runs
    exact (sole.shares (running t _ root rest runs.1 runs.2) same strides).2
  refine ⟨inside, own, fun s' there key' => ?_, ?_, step.unreaped sole.inside sole.unreaped alive⟩
  · rcases step.made_cases there with old | ⟨here, t, root', r, rest, runs, top, title⟩
    · exact sole.only s' old (step.key_kept old ▸ key')
    · have core := asks ⟨runs, top⟩ (title.symm.trans key')
      have count := congrArg (fun x : Core => x.sessions.length) core
      simp only [length_core_sessions] at count
      exact absurd (here ▸ count ▸ there) (Nat.lt_irrefl _)
  · by_cases asked : m.Seeks key
    · obtain ⟨t, root', r, rest, same, runs⟩ := asked
      have core := asks runs same
      exact (congrArg (fun x : Core => lookup key x.roster) core).trans sole.registered
    · refine step.registered sole.registered sole.inside alive fun t f o rest runs top displaces => ?_
      cases displaces with
      | ensure same => exact asked ⟨t, _, _, rest, same, runs, top⟩
      | told => exact smooth.launches (.failed ⟨runs, top⟩)
      | stop same =>
        exact smooth.kept ⟨by simp [sole.registered], t, _, _, rest, ⟨runs, top⟩, .inl ⟨_, same, rfl⟩⟩
      | stopAll =>
        exact smooth.kept ⟨by simp [sole.registered], t, _, _, rest, ⟨runs, top⟩, .inr ⟨_, rfl⟩⟩

/-- The call that has launched a session comes back with it, once it is ready. -/
theorem Strides.hears (strides : Strides R w w' t (.roster (.sessionStarted key s)) (.ok r) rest begun flow w₂)
    (ready : (w.session s).state = .ready) :
    flow = .done (.ok (.session (some s))) ∧ w'.core = w.core := by
  have steps : sessionStarted key s (.ok r) { w with current := none } = (flow, w₂) := strides.steps
  have ready : (session s { w with current := none }).state = .ready := ready
  have answer : flow = .done (.ok (.session (some s))) := by
    simp only [sessionStarted, ready, ne_eq, not_true_eq_false, if_false] at steps
    exact (congrArg Prod.fst steps).symm
  refine ⟨answer, strides.lands.aside.core.trans ?_⟩
  have change := strides.turn.change
  generalize w₂.core = x at change
  cases change with
  | quiet => rfl

/-- The launch is what a task is at that stands where the call hears of it. -/
theorem Launch.hears (launch : w.Launch key s t below) (clear : ∀ g ∈ below, g.launches s = false)
    (runs : w.current = some (t, .ok r)) {key' : String}
    (top : w.stack t = .roster (.sessionStarted key' s) :: rest) :
    key' = key ∧ rest = below ∧ (w.session s).state = .ready := by
  cases launch with
  | @goes p above stack quiet =>
    have both := top.symm.trans stack
    cases above with
    | nil => cases both
    | cons g above =>
      cases both
      have own := quiet _ List.mem_cons_self
      cases own.symm.trans (Frame.launches_told key')
  | returns runs' stack ready =>
    cases top.symm.trans stack
    cases runs.symm.trans runs'
    exact ⟨rfl, rfl, ready _ rfl⟩

/-- What has been started is not started again. -/
theorem Launch.started (launch : w.Launch key s t below) : w.stack t ≠ .session s .start :: rest := by
  intro top
  cases launch with
  | @goes p above stack clear _ later =>
    have both := top.symm.trans stack
    cases above with
    | nil =>
      cases both
      exact later rfl
    | cons g above =>
      cases both
      have own := clear _ List.mem_cons_self
      cases own.symm.trans (Frame.launches_stage rfl)
  | returns _ stack => cases top.symm.trans stack

/-- Only the task of a launch has to do with it. -/
theorem launches_here {f : Frame} (others : ∀ u, u ≠ t → ∀ g ∈ w.stack u, g.launches s = false)
    (top : w.stack u = f :: rest) (launches : f.launches s = true) : u = t :=
  Decidable.byContradiction fun other =>
    Bool.false_ne_true ((others u other f (top ▸ List.mem_cons_self)).symm.trans launches)

include sound step in
/-- The call that has launched a session hears that it is ready, and the launch has come to its end. -/
theorem Launch.heard (launch : m.world.Launch key s t below)
    (runs : m.Runs t (.roster (.sessionStarted key s)) (.ok r) below)
    (clear : ∀ g ∈ below, g.launches s = false)
    (cleared : ∀ u, u ≠ t → ∀ g ∈ w'.stack u, g.launches s = false)
    (started : Once (·.Starts s) ms) (unstarted : ¬ m.Starts s) (unhooked : ∀ m ∈ ms, ¬ m.Hooks s) :
    Progress key s (ms ++ [m]) w' := by
  have ready := (launch.hears clear runs.1 runs.2).2.2
  obtain ⟨begun, flow, w₂, strides⟩ := sound.strides_of_runs step runs
  obtain ⟨rfl, core⟩ := strides.hears ready
  refine .ended (fun u => ?_) ?_ (started.later unstarted) (.now unhooked ⟨t, key, r, below, runs, ?_⟩)
  · by_cases same : u = t
    · subst same
      have stack := (strides.turn.piles (sound.running runs.1) strides.lands).1
      exact stack ▸ clear
    · exact cleared u same
  · rw [← state_core, core, state_core]
    exact ready
  · have ready : (session s { m.world with current := none }).state = .ready := ready
    simp [sessionStarted, ready]

include sound step smooth lives in
theorem Progress.next (progress : Progress key s ms m.world) (sole : m.world.Sole key s)
    (sole' : w'.Sole key s) (first : ∀ g, may g → g.launches s = false) :
    Progress key s (ms ++ [m]) w' := by
  have alive := (lives s sole'.inside sole'.own).1
  have cleared {u : TaskId} (clear : ∀ g ∈ m.world.stack u, g.launches s = false) :
      ∀ g ∈ w'.stack u, g.launches s = false := sound.clear step first sole.inside clear
  have starting : Frame.launches s (.session s .start) = true := Frame.launches_stage rfl
  cases progress with
  | made runs stack suits clear others unstarted unhooked =>
    obtain ⟨begun, flow, w₂, strides⟩ := sound.strides_of_runs step ⟨runs, stack⟩
    refine .goes (strides.launch sound sole.inside rfl suits) clear (fun u other => cleared (others u other))
      (.now unstarted ⟨_, _, _, runs, stack⟩) (never_next unhooked ?_)
    rintro ⟨t', key', r', rest', ⟨runs', top⟩, -⟩
    cases runs.symm.trans runs'
    cases stack.symm.trans top
  | @goes t below launch clear others started unhooked =>
    have unstarted : ¬ m.Starts s := by
      rintro ⟨t', r', rest', runs', top⟩
      obtain rfl := launches_here others top starting
      exact launch.started top
    -- the launch goes on until its own call is told; no other call of the key can be
    by_cases heard : ∃ o, m.Runs t (.roster (.sessionStarted key s)) o below
    · obtain ⟨o, runs⟩ := heard
      cases o with
      | error e => exact absurd (.failed runs) smooth.launches
      | ok r =>
        exact launch.heard sound step runs clear (fun u other => cleared (others u other)) started unstarted
          unhooked
    · refine .goes (launch.move sound step sole.inside sole.unreaped alive others fun o runs top => ?_) clear
        (fun u other => cleared (others u other)) (started.later unstarted) (never_next unhooked ?_)
      · exact heard ⟨o, runs, top⟩
      · rintro ⟨t', key', r', rest', ⟨runs', top⟩, -⟩
        obtain rfl := launches_here others top (Frame.launches_told key')
        obtain ⟨rfl, rfl, -⟩ := launch.hears clear runs' top
        exact heard ⟨_, runs', top⟩
  | ended clear ready started hooked =>
    have quiet {t' : TaskId} {f : Frame} {rest : List Frame} (top : m.world.stack t' = f :: rest) :
        f.launches s = false := clear t' f (top ▸ List.mem_cons_self)
    have alike := step.alike sole.inside sole.unreaped alive fun _ _ _ _ _ top => quiet top
    refine .ended (fun u => cleared (clear u)) (alike.state.trans ready) (started.later ?_) (hooked.later ?_)
    · rintro ⟨t', r', rest', -, top⟩
      exact Bool.false_ne_true ((quiet top).symm.trans starting)
    · rintro ⟨t', key', r', rest', ⟨-, top⟩, -⟩
      exact Bool.false_ne_true ((quiet top).symm.trans (Frame.launches_told key'))

/-- Whoever hears of the launch hears of it in time. -/
theorem Progress.hears (progress : Progress key s ms w) (runs : w.current = some (t, .ok r)) {key' : String}
    (top : w.stack t = .roster (.sessionStarted key' s) :: rest) : (w.session s).state = .ready := by
  cases progress with
  | made runs' stack =>
    cases runs.symm.trans runs'
    cases top.symm.trans stack
  | @goes t' below launch clear others =>
    by_cases same : t = t'
    · subst same
      exact (launch.hears clear runs top).2.2
    · have quiet := others t same _ (top ▸ List.mem_cons_self)
      cases quiet.symm.trans (Frame.launches_told key')
  | ended _ ready => exact ready

include sound step smooth in
theorem Progress.returned (progress : Progress key s ms m.world) (sole : m.world.Sole key s)
    (known : m.world.Known) (returns : m.Returns key o) : o = .ok (.session (some s)) := by
  obtain ⟨t, f, o', rest, runs, which, done⟩ := returns
  obtain ⟨begun, flow, w₂, strides⟩ := sound.strides_of_runs step runs
  have done : flow = .done o := by rw [← done, strides.steps]
  have answered (answer : flow = .done (.ok (.session (some s)))) : o = .ok (.session (some s)) := by
    cases done.symm.trans answer
    rfl
  rcases which with ⟨root, r, same, rfl, rfl⟩ | ⟨s', rfl⟩
  · have running := progress.running sole smooth.lives runs.1 runs.2
    exact answered (sole.shares running same strides).1
  · have there : Frame.roster (.sessionStarted key s') ∈ m.world.stack t := runs.2 ▸ List.mem_cons_self
    obtain ⟨inside, own⟩ := known.told there
    obtain rfl := sole.only s' inside own
    cases o' with
    | error e => exact absurd (.failed runs) smooth.launches
    | ok r => exact answered (strides.hears (progress.hears runs.1 runs.2)).1

include step in
/-- A session that has been made for a key that had none is the only one of that key. -/
theorem Enters.sole (enters : m.world.Enters w' root)
    (unmade : ∀ s, s < m.world.sessions.length → (m.world.session s).key ≠ Session.keyOf root) :
    w'.Sole (Session.keyOf root) m.world.sessions.length := by
  refine ⟨enters.inside, ?_, fun s' there key' => ?_, enters.registered, ?_⟩
  · rw [Session.key, ← root_core, enters.session]
    rfl
  · rcases step.made_cases there with old | ⟨here, -⟩
    · exact absurd ((step.key_kept old).symm.trans key') (unmade s' old)
    · exact here
  · rw [← reaper_core, enters.session]
    rfl

include sound step in
/-- The call that has made a session is about to start it, and nobody else has to do with that. -/
theorem Enters.made (enters : m.world.Enters w' root) (known : m.world.Known)
    (strides : Strides R m.world w' t (.roster (.ensure root)) (.ok r) rest begun
      (.call (.session m.world.sessions.length .start)
        (.roster (.sessionStarted (Session.keyOf root) m.world.sessions.length))) w₂)
    (first : ∀ g, may g → ∀ s, g.launches s = true → s < m.world.sessions.length)
    (seen : ∀ m' ∈ ms, ∀ s, m'.Starts s ∨ m'.Hooks s → s < m.world.sessions.length) :
    Progress (Session.keyOf root) m.world.sessions.length (ms ++ [m]) w' := by
  have stack := (strides.turn.piles (sound.running strides.runs) strides.lands).1
  have clear {u : TaskId} {g : Frame} (hg : g ∈ m.world.stack u) :
      g.launches m.world.sessions.length = false :=
    Bool.eq_false_iff.2 fun launches => absurd (known.inside u g hg _ launches) (Nat.lt_irrefl _)
  refine .made strides.lands.next.1 stack ⟨?_, ?_⟩ (fun g hg => ?_) (fun u other g hg => ?_)
    (never_next (fun m' h starts => absurd (seen m' h _ (.inl starts)) (Nat.lt_irrefl _)) ?_)
    (never_next (fun m' h hooks => absurd (seen m' h _ (.inr hooks)) (Nat.lt_irrefl _)) ?_)
  · rw [← state_core, enters.session]
    rfl
  · rw [← stopping_core, enters.session]
    rfl
  · exact clear (strides.top ▸ List.mem_cons_of_mem _ hg)
  · cases sound.fate step u with
    | stays same | wakes _ same => exact clear (same ▸ hg)
    | ends _ same =>
      rw [same] at hg
      cases hg
    | begins _ same _ _ source =>
      rw [same] at hg
      cases List.mem_singleton.1 hg
      rcases source with ⟨-, allowed⟩ | ⟨t, f, o, rest, begun, flow, w₂, strides, found⟩
      · exact Bool.eq_false_iff.2 fun launches => absurd (first _ allowed _ launches) (Nat.lt_irrefl _)
      · exact strides.turn.change.launches_begun _ (List.mem_of_getElem? found)
    | goes strides' =>
      cases strides.runs.symm.trans strides'.runs
      exact absurd rfl other
  · rintro ⟨t', r', rest', runs, top⟩
    cases strides.runs.symm.trans runs
    cases strides.top.symm.trans top
  · rintro ⟨t', key', r', rest', ⟨runs, top⟩, -⟩
    cases strides.runs.symm.trans runs
    cases strides.top.symm.trans top

/-- What is started or heard of at a moment has been made before. -/
theorem Known.seen (known : m.world.Known) (h : m.Starts s ∨ m.Hooks s) : s < m.world.sessions.length := by
  rcases h with ⟨t, r, rest, -, top⟩ | ⟨t, key', r, rest, ⟨-, top⟩, -⟩
  · exact known.inside t _ (top ▸ List.mem_cons_self) s (Frame.launches_stage rfl)
  · exact known.inside t _ (top ▸ List.mem_cons_self) s (Frame.launches_told key')

include sound step smooth in
/-- The first call for a key launches its session. -/
theorem Unsought.asked (h : Unsought key ms m.world) (known : m.world.Known) (asked : m.Seeks key)
    (first : ∀ g, may g → ∀ s, g.launches s = true → s < m.world.sessions.length) :
    Shared key m.world.sessions.length (ms ++ [m]) w' := by
  have seeks := asked
  obtain ⟨t, root, r, rest, rfl, runs⟩ := seeks
  obtain ⟨begun, flow, w₂, strides⟩ := sound.strides_of_runs step runs
  obtain ⟨rfl, enters⟩ := strides.creates h.absent fun e failed =>
    smooth.launches (.unmade runs rfl h.absent failed)
  have silent (o : Outcome Result) : ¬ m.Returns (Session.keyOf root) o := by
    rintro ⟨t', f, o', rest', runs', -, done⟩
    cases runs.1.symm.trans runs'.1
    cases runs.2.symm.trans runs'.2
    rw [strides.steps] at done
    cases done
  have fresh {m' : Moment} (seen : ∀ s, m'.Starts s ∨ m'.Hooks s → s < m.world.sessions.length) :
      ¬ m'.Hooks m.world.sessions.length := fun hooks => absurd (seen _ (.inr hooks)) (Nat.lt_irrefl _)
  exact {
    sole := enters.sole step h.unmade
    progress := enters.made sound step known strides first h.seen
    launched := .now (fun m' member launches => h.never m' member launches.1) ⟨asked, silent⟩
    returned := List.forall_mem_append.2 ⟨fun m' member o returns => absurd returns (h.silent m' member o),
      List.forall_mem_singleton.2 fun o returns => absurd returns (silent o)⟩
    hooks := List.forall_mem_append.2 ⟨fun m' member hooks => absurd hooks (fresh (h.seen m' member)),
      List.forall_mem_singleton.2 fun hooks => absurd hooks (fresh fun _ => known.seen)⟩ }

include step in
theorem Unsought.next (h : Unsought key ms m.world) (known : m.world.Known) (unasked : ¬ m.Seeks key) :
    Unsought key (ms ++ [m]) w' := by
  have asks {t : TaskId} {root : Option Root} {r : Result} {rest : List Frame}
      (runs : m.Runs t (.roster (.ensure root)) (.ok r) rest) (same : Session.keyOf root = key) : False :=
    unasked ⟨t, root, r, rest, same, runs⟩
  refine ⟨fun s there own => ?_, ?_, never_next h.never unasked,
    List.forall_mem_append.2 ⟨h.silent, List.forall_mem_singleton.2 fun o returns => ?_⟩,
    fun m' member s of => ?_⟩
  · rcases step.made_cases there with old | ⟨-, t, root, r, rest, runs, top, title⟩
    · exact h.unmade s old ((step.key_kept old).symm.trans own)
    · exact asks ⟨runs, top⟩ (title.symm.trans own)
  · exact step.unregistered h.absent fun t root r rest runs same top => asks ⟨runs, top⟩ same
  · obtain ⟨t, f, o, rest, runs, which, -⟩ := returns
    rcases which with ⟨root, r, same, rfl, rfl⟩ | ⟨s, rfl⟩
    · exact asks runs same
    · have there : Frame.roster (.sessionStarted key s) ∈ m.world.stack t := runs.2 ▸ List.mem_cons_self
      obtain ⟨inside, own⟩ := known.told there
      exact h.unmade s inside own
  · refine Nat.lt_of_lt_of_le ?_ step.grown.1
    rcases List.mem_append.1 member with old | last
    · exact h.seen m' old s of
    · cases List.mem_singleton.1 last
      exact known.seen of

include sound step smooth lives in
theorem Shared.next (h : Shared key s ms m.world) (known : m.world.Known)
    (first : ∀ g, may g → g.launches s = false) : Shared key s (ms ++ [m]) w' := by
  have running {t : TaskId} {o : Outcome Result} {root : Option Root} {rest : List Frame}
      (runs : m.world.current = some (t, o)) (top : m.world.stack t = .roster (.ensure root) :: rest) :
      m.world.isRunning s = true := h.progress.running h.sole smooth.lives runs top
  have sole := h.sole.move sound step smooth lives fun _ _ _ _ => running
  refine ⟨sole, h.progress.next sound step smooth lives h.sole sole first, h.launched.later ?_,
    List.forall_mem_append.2 ⟨h.returned, List.forall_mem_singleton.2 fun o returns => ?_⟩,
    List.forall_mem_append.2 ⟨h.hooks, List.forall_mem_singleton.2 fun hooks => ?_⟩⟩
  · rintro ⟨⟨t, root, r, rest, same, runs⟩, silent⟩
    obtain ⟨begun, flow, w₂, strides⟩ := sound.strides_of_runs step runs
    have answer := (h.sole.shares (running runs.1 runs.2) same strides).1
    exact silent _ ⟨t, _, _, rest, runs, .inl ⟨root, r, same, rfl, rfl⟩,
      (congrArg Prod.fst strides.steps).trans answer⟩
  · exact h.progress.returned sound step smooth h.sole known returns
  · obtain ⟨t, key', r, rest, ⟨runs, top⟩, -⟩ := hooks
    exact ⟨h.progress.hears runs top, h.sole.registered⟩

include sound step smooth lives in
/-- At any moment nobody has called for a key, or all share the session that the first has launched. -/
theorem sharing_next (h : Unsought key ms m.world ∨ ∃ s, Shared key s ms m.world) (known : m.world.Known)
    (first : ∀ g, may g → ∀ s, g.launches s = true →
      s < m.world.sessions.length ∧ (m.world.session s).key ≠ key) :
    Unsought key (ms ++ [m]) w' ∨ ∃ s, Shared key s (ms ++ [m]) w' := by
  rcases h with unsought | ⟨s, shared⟩
  · by_cases asked : m.Seeks key
    · exact .inr ⟨_, unsought.asked sound step smooth known asked
        fun g allowed s launches => (first g allowed s launches).1⟩
    · exact .inl (unsought.next step known asked)
  · refine .inr ⟨s, shared.next sound step smooth lives known fun g allowed => ?_⟩
    exact Bool.eq_false_iff.2 fun launches => (first g allowed s launches).2 shared.sole.own

end Step

end World
end LanguageClient
