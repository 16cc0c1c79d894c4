import LanguageClient.Proofs.Client.Notes
import LanguageClient.Proofs.Workspace.Ranges
import LanguageClient.Proofs.World.Steady

/-!
A session that goes down by itself goes down alone. What has become of its place on the roster, or of
its key, in the meantime makes no difference.
-/

namespace LanguageClient

open Schedule

namespace Roster

/-- A session loses places on the roster, and no other does. -/
structure Strips (s : SessionId) (r r' : Roster) : Prop where
  entries : ∀ key, r.find? key ≠ some s → r'.find? key = r.find? key
  last : r'.lastStarted ≠ r.lastStarted → ∃ key, r.lastStarted = some key ∧ r.find? key = some s

namespace Strips

variable {s : SessionId} {key : String} {r r' r'' : Roster}

theorem of_eq (h : r' = r) : Strips s r r' := by
  subst h
  exact ⟨fun _ _ => rfl, fun other => absurd rfl other⟩

theorem trans (h : Strips s r r') (h' : Strips s r' r'') : Strips s r r'' where
  entries key other := by
    have same := h.entries key other
    rw [h'.entries key (same ▸ other), same]
  last changed := by
    by_cases first : r'.lastStarted = r.lastStarted
    · obtain ⟨key, last, found⟩ := h'.last (first ▸ changed)
      refine ⟨key, first ▸ last, ?_⟩
      by_cases other : r.find? key = some s
      · exact other
      · exact h.entries key other ▸ found
    · exact h.last first

theorem remove (found : r.find? key = some s) : Strips s r (r.remove key) where
  entries key' other := by
    refine find?_remove_ne ?_ r
    rintro rfl
    exact other found
  last changed := absurd rfl changed

theorem drop (key : String) (s : SessionId) (r : Roster) : Strips s r (r.drop key s) := by
  unfold Roster.drop
  split
  · next found =>
    unfold forgetLast
    split
    · next last =>
      have removed := Strips.remove found
      exact ⟨removed.entries, fun _ => ⟨key, last, found⟩⟩
    · exact .remove found
  · exact .of_eq rfl

end Strips
end Roster

namespace World

theorem steady_roster : Steady roster where
  loop _ _ := rfl
  current _ _ := rfl
  backends _ _ := rfl
  plans _ _ := rfl
  connections _ _ := rfl
  sights _ _ := rfl

section Roster

variable (b : BackendId) (k : ConnectionId) (s : SessionId) (c : CellId) (w : World)

theorem roster_wakeTaker : (w.wakeTaker s).roster = w.roster := by
  unfold wakeTaker
  split <;> rfl

theorem roster_closeBus : (w.closeBus s).roster = w.roster := by
  unfold closeBus
  split
  · rfl
  · exact roster_wakeTaker s _

theorem roster_failStart : (w.failStart s).roster = w.roster := roster_closeBus s _

/-- Seeing to the end of a process leaves the roster alone. -/
theorem roster_ends {p : Session.Stage} (h : p.ends = true) (o : Outcome Result) :
    (w.resumeSession s p o).2.roster = w.roster := by
  cases o with
  | ok r =>
    cases p with
    | shutdown grace => exact steady_roster.shutdown s w grace
    | graceOver | terminateOver | killed => rfl
    | terminate => exact steady_roster.terminateSession s w
    | release => exact Steady.callConnection s w _ _
    | released => exact roster_closeBus s w
    | _ => cases h
  | error e =>
    cases p with
    | graceOver => cases e <;> rfl
    | terminateOver =>
      cases e with
      | timeout => exact (steady_roster.awaitProcess s _ _ _).trans (steady_roster.killSession s w)
      | _ => rfl
    | shutdown | terminate | killed | release | released => rfl
    | _ => cases h

theorem roster_abandon (e : Failure) : (w.abandon s e).2.roster = w.roster := by
  unfold abandon
  split
  · rfl
  split <;> rfl

theorem roster_startSession : (w.startSession s).2.roster = w.roster := by
  unfold startSession
  split
  · rfl
  dsimp only
  split
  · rfl
  split
  · exact roster_failStart s _
  split <;> rfl

theorem roster_launched : (w.launched s b).2.roster = w.roster := by
  unfold launched
  split
  · exact roster_failStart s w
  dsimp only
  split
  · rfl
  split <;> rfl

/-- A start whose launch fails leaves the roster to its caller. -/
theorem roster_starts {p : Session.Stage} {o : Outcome Result} {w' : World} {root reason : String}
    (h : p.starts = true)
    (steps : w.resumeSession s p o = (.done (.error (.launch root reason)), w')) :
    w'.roster = w.roster := by
  have after : (w.resumeSession s p o).2 = w' := by rw [steps]
  rw [← after]
  cases o with
  | ok r =>
    cases p with
    | start => exact roster_startSession s w
    | launched b => exact roster_launched b s w
    | initializeAnswered => exact Steady.callConnection s w _ _
    | initializedSent =>
      have steps : w.completeStart s = (.done (.error (.launch root reason)), w') := steps
      unfold completeStart at steps
      split at steps
      · cases steps
      dsimp only at steps
      split at steps
      · cases steps
      split at steps <;> cases steps
    | abandoned e => exact roster_failStart s w
    | flushed => rfl
    | _ => cases h
  | error e =>
    cases p with
    | initializeAnswered | initializedSent => exact roster_abandon s w e
    | flushed => cases e <;> rfl
    | start | launched | abandoned => rfl
    | _ => cases h

theorem strips_tellExit (watcher : Session.Watcher) :
    Roster.Strips s w.roster (w.tellExit s watcher).roster := by
  unfold tellExit
  split
  · exact .drop _ s _
  · exact .of_eq rfl
  · exact .of_eq rfl

theorem strips_tellExits (watchers : List Session.Watcher) :
    Roster.Strips s w.roster (watchers.foldl (fun w watcher => w.tellExit s watcher) w).roster := by
  induction watchers generalizing w with
  | nil => exact .of_eq rfl
  | cons watcher rest ih => exact (strips_tellExit s w watcher).trans (ih (w.tellExit s watcher))

theorem strips_connectionLost : Roster.Strips s w.roster (w.connectionLost s).roster := by
  unfold connectionLost
  split
  · exact .of_eq rfl
  · have closed := roster_closeBus s (w.setSession s fun x => { x.moveToStopped with outbox := [] })
    exact (Roster.Strips.of_eq closed).trans (strips_tellExits s _ _)

theorem strips_endConnection (owner : (w.connection k).owner = .session s) :
    Roster.Strips s w.roster (w.endConnection k).roster := by
  unfold endConnection
  dsimp only
  split
  · exact .of_eq rfl
  · simp only [owner]
    refine .trans (.of_eq ?_) (strips_connectionLost s _)
    exact steady_roster.settleAll k _ _

theorem strips_readOn {point : Wire.Point} {o' : Outcome Result} {w' : World}
    (owner : (w.connection k).owner = .session s) (steps : w.readOn k point = (.done o', w')) :
    Roster.Strips s w.roster w'.roster := by
  unfold readOn at steps
  dsimp only at steps
  split at steps
  · split at steps
    · cases steps
    · cases steps
      exact .trans (.of_eq (by rfl)) (strips_endConnection k s _ owner)
  · cases steps
  · cases steps
  · cases steps
    exact .trans (.of_eq (by rfl)) (strips_endConnection k s _ owner)
  · cases steps

/-- A task of a connection that is done there, or fails. -/
theorem strips_done {p : Connection.Stage} {o o' : Outcome Result} {w' : World}
    (owner : (w.connection k).owner = .session s)
    (steps : w.resumeConnection k p o = (.done o', w')) : Roster.Strips s w.roster w'.roster := by
  unfold resumeConnection at steps
  split at steps
  · unfold drain at steps
    dsimp only at steps
    split at steps <;> cases steps
  · unfold drained at steps
    split at steps <;> (cases steps; exact .of_eq rfl)
  · unfold sendNotification at steps
    split at steps <;> cases steps
    exact .of_eq rfl
  · unfold sendRequest at steps
    split at steps <;> cases steps
    exact .of_eq rfl
  · cases steps
  · cases steps
    exact .of_eq rfl
  · cases steps
    exact .of_eq rfl
  · exact strips_readOn k s w owner steps
  · cases steps
    exact strips_endConnection k s w owner
  · unfold answer at steps
    dsimp only at steps
    split at steps
    · cases steps
      exact .of_eq rfl
    split at steps <;> cases steps
  · cases steps
  · cases steps
    exact .of_eq rfl
  · cases steps
    exact .of_eq rfl
  · unfold sendAnswer at steps
    split at steps <;> cases steps
    exact .of_eq rfl
  · cases steps
    exact .of_eq rfl
  · cases steps
    exact .of_eq rfl
  · unfold closeConnection at steps
    split at steps
    · split at steps <;> cases steps
    · cases steps
  · unfold stopAnswers at steps
    dsimp only at steps
    split at steps <;> cases steps
  · unfold stopAnswers at steps
    dsimp only at steps
    split at steps <;> cases steps
  · cases steps
    exact strips_endConnection k s w owner
  · cases steps
    exact .of_eq rfl

end Roster

variable {R : CellId → Prop} {s : SessionId} {w w' : World} {t : TaskId} {f : Frame}
variable {o : Outcome Result} {rest begun : List Frame} {flow : Flow Frame Result} {x : Core}
variable {may : Frame → Prop} {w₂ : World}

/-- A step by which a session goes down unasked, or by which that is seen to. -/
inductive GoesDown (w : World) (s : SessionId) :
    Frame → Outcome Result → Flow Frame Result → Prop
  /-- There is no process, or none any more after the handshake has failed. -/
  | launch {p : Session.Stage} {o : Outcome Result} {root reason : String} (start : p.starts = true) :
    GoesDown w s (.session s p) o (.done (.error (.launch root reason)))
  | handshake {p : Session.Stage} {e : Failure} {flow : Flow Frame Result}
    (start : p = .initializeAnswered ∨ p = .initializedSent) :
    GoesDown w s (.session s p) (.error e) flow
  /-- Whoever has started it hears that this has failed. -/
  | told {key root reason : String} {flow : Flow Frame Result} :
    GoesDown w s (.roster (.sessionStarted key s)) (.error (.launch root reason)) flow
  /-- A task of its connection is done, as the one that reads is when there is no more to read. -/
  | rests {k : ConnectionId} {p : Connection.Stage} {o o' : Outcome Result}
    (owner : (w.connection k).owner = .session s) : GoesDown w s (.connection k p) o (.done o')
  | closing {k : ConnectionId} {p : Connection.Stage} {o : Outcome Result}
    {flow : Flow Frame Result} (owner : (w.connection k).owner = .session s)
    (stage : p = .close ∨ p = .readerStopped) : GoesDown w s (.connection k p) o flow
  /-- Its process is seen off, and what it had is released. -/
  | ending {p : Session.Stage} {o : Outcome Result} {flow : Flow Frame Result}
    (ends : p.ends = true) : GoesDown w s (.session s p) o flow

/-- Nothing is written to any backend. -/
theorem GoesDown.silent (h : w.GoesDown s f o flow) (change : Change w f o begun flow x)
    (b : BackendId) : (x.inbox b).received = (w.core.inbox b).received := by
  have quiet (none : ∀ b message, ¬ w.Writes f b message) :
      (x.inbox b).received = (w.core.inbox b).received := by
    obtain ⟨sent, same, written⟩ := change.delivers b
    cases sent with
    | nil => rw [same, List.append_nil]
    | cons message more => exact absurd (written message List.mem_cons_self) (none b message)
  cases h with
  | @launch p =>
    -- What a session has kept is written from this place only, and not by a start that fails.
    by_cases greeted : p = .initializedSent
    · subst greeted
      cases change <;> rfl
    · refine quiet fun b message writes => ?_
      cases writes
      exact greeted rfl
  | handshake start =>
    rcases start with rfl | rfl
    · refine quiet fun b message writes => ?_
      cases writes
    · cases change <;> rfl
  | told =>
    refine quiet fun b message writes => ?_
    cases writes
  | rests => cases change <;> rfl
  | closing _ stage =>
    rcases stage with rfl | rfl
    all_goals
      refine quiet fun b message writes => ?_
      cases writes
  | ending ends =>
    refine quiet fun b message writes => ?_
    cases writes
    cases ends

/-- Only the session that goes down is changed. -/
theorem GoesDown.others (h : w.GoesDown s f o flow) (change : Change w f o begun flow x)
    {s' : SessionId} (other : s' ≠ s) : x.session s' = w.core.session s' := by
  have shifts : Shifts w s' f o flow (x.session s') := by
    refine change.shifts (fun root same => ?_) s'
    subst same
    cases h
  generalize x.session s' = y at shifts
  cases h with
  | launch | handshake | ending =>
    cases shifts with
    | same => rfl
    | _ => exact absurd rfl other
  | told =>
    cases shifts
    rfl
  | rests owner | closing owner =>
    cases shifts with
    | same => rfl
    | loses owner' => exact absurd (Connection.Owner.session.inj (owner'.symm.trans owner)) other

theorem strips_told (key root reason : String) (s : SessionId) (w : World) :
    Roster.Strips s w.roster (w.sessionStarted key s (.error (.launch root reason))).2.roster := by
  unfold sessionStarted
  dsimp only
  split
  · next found => exact .remove found
  · exact .of_eq rfl

theorem GoesDown.strips (h : w.GoesDown s f o flow) (steps : w.resume t f o = (flow, w')) :
    Roster.Strips s w.roster w'.roster := by
  have after : (w.resume t f o).2 = w' := by rw [steps]
  cases h with
  | launch start => exact .of_eq (roster_starts s w start steps)
  | handshake start =>
    rw [← after]
    rcases start with rfl | rfl
    all_goals exact .of_eq (roster_abandon s w _)
  | @told key root reason => exact after ▸ strips_told key root reason s w
  | rests owner => exact strips_done _ s w owner steps
  | @closing k p _ _ _ stage =>
    rw [← after]
    rcases stage with rfl | rfl
    · cases o with
      | ok r => exact .of_eq (steady_roster.closeConnection k w)
      | error e => exact .of_eq rfl
    · cases o with
      | ok r => exact .of_eq (steady_roster.stopAnswers k w)
      | error e =>
        cases e with
        | cancelled => exact .of_eq (steady_roster.stopAnswers k w)
        | _ => exact .of_eq rfl
  | ending ends => exact .of_eq (after ▸ roster_ends s w ends o)

/-- What is left alone when a session goes down. -/
structure SparesOthers (s : SessionId) (w w' : World) : Prop where
  /-- Every key keeps its session that is not the one to go down. -/
  entries : ∀ key, w.registered? key ≠ some s → w'.registered? key = w.registered? key
  last : w'.roster.lastStarted ≠ w.roster.lastStarted →
    ∃ key, w.roster.lastStarted = some key ∧ w.registered? key = some s
  sessions : ∀ s', s' ≠ s → (w'.session s').state = (w.session s').state ∧
    (w'.session s').outbox = (w.session s').outbox
  written : ∀ b, (w'.backend b).received = (w.backend b).received

end World

namespace Moment

variable {m : Moment} {w' : World} {ms : List Moment} {first : World}

/-- At this moment a session goes down unasked, or that is seen to. -/
def GoesDown (m : Moment) (s : SessionId) : Prop :=
  ∃ t f o rest, m.Runs t f o rest ∧ { m.world with current := none }.GoesDown s f o
    ({ m.world with current := none }.resume t f o).1

/-- At this moment a session is asked to stop. -/
def Stops (m : Moment) (s : SessionId) : Prop :=
  ∃ t timeout o rest, m.Runs t (.session s (.stop timeout)) o rest

end Moment

namespace World

variable {m : Moment} {ms : List Moment} {first : World}

theorem Strides.spares (strides : Strides R w w' t f o rest begun flow w₂)
    (down : { w with current := none }.GoesDown s f o flow) : w.SparesOthers s w' := by
  have landed : w'.core = w₂.core := strides.lands.aside.core
  have roster : w'.roster = w₂.roster := by
    rw [strides.lands.aside.same]
    rfl
  have strips : Roster.Strips s w.roster w'.roster := roster ▸ down.strips strides.steps
  refine ⟨strips.entries, strips.last, fun s' other => ?_, fun b => ?_⟩
  · have same : w'.core.session s' = w.core.session s' :=
      landed ▸ down.others strides.turn.change other
    rw [← state_core, ← state_core, ← outbox_core, ← outbox_core, same]
    exact ⟨rfl, rfl⟩
  · have same : (w'.core.inbox b).received = (w.core.inbox b).received :=
      landed ▸ down.silent strides.turn.change b
    rwa [inbox_core, inbox_core] at same

/-- A session comes to its end because it goes down or has been asked to. -/
theorem Move.stopped_cases (move : Move may R m.world w')
    (before : (m.world.session s).state ≠ .stopped) (after : (w'.session s).state = .stopped) :
    m.GoesDown s ∨ m.Stops s := by
  rw [← state_core] at before after
  rcases move.session_cases s with same | ⟨t, f, o, rest, begun, flow, w₂, strides, shifts⟩ |
    ⟨-, root, made⟩
  · rw [same] at after
    exact absurd after before
  · have steps := congrArg Prod.fst strides.steps
    have down (h : { m.world with current := none }.GoesDown s f o flow) : m.GoesDown s :=
      ⟨t, f, o, rest, ⟨strides.runs, strides.top⟩, steps ▸ h⟩
    generalize w'.core.session s = y at shifts after
    cases shifts with
    | fails start => exact .inl (down (.launch start))
    | stops => exact .inr ⟨t, _, _, rest, strides.runs, strides.top⟩
    | loses owner => exact .inl (down (.rests owner))
    | starts | readies => cases after
    | _ => exact absurd after before
  · rw [made] at after
    cases after

variable {config : Config} {settings : Settings} {roots : List Root} {launcher : Roster.Launcher}
variable {ws : Workspace} {shell : Shell} {plans : List Backend.Plan}

/-- A session that ends without having been asked to goes down, and whenever it does nobody else is
concerned: not the session that has its key by then, nor what is known of the last one started, unless
that is the one to go down. -/
theorem failures_stay_local (made : Workspace.make config settings roots launcher = .ok ws)
    (path : Path (start ws shell plans) ms m.world) (goes : m.Goes w')
    (listens : ∀ a ∈ acts (ms ++ [m]), ∀ k owner, a ≠ .listen k owner) (s : SessionId) :
    (m.GoesDown s → m.world.SparesOthers s w') ∧
      ((m.world.session s).state ≠ .stopped → (w'.session s).state = .stopped →
        m.GoesDown s ∨ m.Stops s) := by
  obtain ⟨-, -, -, reports⟩ := Workspace.of_make made
  rw [acts, List.filterMap_append] at listens
  have sound := path.sound (unused_start reports).sound fun a ha => listens a (List.mem_append_left _ ha)
  have moves := goes.kept sound fun a ha => listens a
    (List.mem_append_right _ (List.mem_filterMap.2 ⟨m, List.mem_singleton_self m, ha⟩))
  refine ⟨?_, moves.move.stopped_cases⟩
  rintro ⟨t, f, o, rest, runs, down⟩
  obtain ⟨begun, flow, w₂, strides⟩ := sound.strides_of_runs moves.move runs
  rw [strides.steps] at down
  exact strides.spares down

/-- A session whose process is gone is replaced, and its connection closes after that. -/
theorem replaced_session_stays :
    let root : Root := ⟨"file:///a", "a"⟩
    ∃ ws, Workspace.make .standard .empty [root] .stub = .ok ws ∧
      let first := start ws default []
      let served := (first.take (.call (.ensure (some root)))).settle 60
      let gone := (served.take (.backend 0 (.exit 1 false))).settle 20
      let replaced := (gone.take (.call (.ensure (some root)))).settle 60
      let before := (replaced.take (.backend 0 .endOutput)).settle 1
      (before.session 0).state ≠ .stopped ∧ (before.step.session 0).state = .stopped ∧
        before.registered? root.uri = some 1 ∧ before.SparesOthers 0 before.step := by
  intro root
  have made : Workspace.make .standard .empty [root] .stub = .ok _ := rfl
  refine ⟨_, made, ?_⟩
  intro first served gone replaced before
  have serves : Run first [.call (.ensure (some root))] served := (Run.first.take rfl _).settle 60
  have goes : Run first _ gone := (serves.take (by decide +kernel) _).settle 20
  have replaces : Run first _ replaced := (goes.take (by decide +kernel) _).settle 60
  have run : Run first [.call (.ensure (some root)), .backend 0 (.exit 1 false),
      .call (.ensure (some root)), .backend 0 .endOutput] before :=
    (replaces.take (by decide +kernel) _).settle 1
  have alone (w : World) (run : Run first [.call (.ensure (some root)), .backend 0 (.exit 1 false),
      .call (.ensure (some root)), .backend 0 .endOutput] w) :
      (Moment.GoesDown ⟨w, none⟩ 0 → w.SparesOthers 0 w.step) ∧
        ((w.session 0).state ≠ .stopped → (w.step.session 0).state = .stopped →
          Moment.GoesDown ⟨w, none⟩ 0 ∨ Moment.Stops ⟨w, none⟩ 0) := by
    obtain ⟨ms, path, done⟩ := run_iff_path.1 run
    refine failures_stay_local made path (.step w) (fun a ha k owner => ?_) 0
    rw [acts, List.filterMap_append, ← acts, done] at ha
    rintro rfl
    simp at ha
  -- It is the task that reads for the connection which runs.
  have unasked (w : World) (turn : w.current.map Prod.fst = some 1)
      (reads : ∀ f ∈ w.stack 1, f.isErrand = true) : ¬ Moment.Stops ⟨w, none⟩ 0 := by
    rintro ⟨t, timeout, o, rest, runs, top⟩
    have runs : w.current = some (t, o) := runs
    rw [runs] at turn
    cases turn
    cases reads _ (top ▸ List.mem_cons_self)
  obtain ⟨spares, ends⟩ := alone before run
  have live : (before.session 0).state ≠ .stopped := by decide +kernel
  have stopped : (before.step.session 0).state = .stopped := by decide +kernel
  have registered : before.registered? root.uri = some 1 := by decide +kernel
  have still := unasked before (by decide +kernel) (by decide +kernel)
  exact ⟨live, stopped, registered, spares ((ends live stopped).resolve_right still)⟩

end World
end LanguageClient
