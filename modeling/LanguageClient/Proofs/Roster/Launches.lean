import LanguageClient.Proofs.Client.Conduct
import LanguageClient.Proofs.Workspace.Wiring

/-!
The launch of a session: the call that has made it starts it and then hears what has come of that. One
task sees to it, and unless the session comes to its end nobody else changes what it depends on.
-/

namespace LanguageClient

open Schedule

namespace Frame

/-- Belongs to the launch of a session: its start, or the call that hears what comes of that. -/
def launches (s : SessionId) : Frame → Bool
  | .session s' p => s' = s && p.starts
  | .roster (.sessionStarted _ s') => s' = s
  | _ => false

variable {f : Frame} {s : SessionId}

theorem launches_stage {p : Session.Stage} (starts : p.starts = true) :
    Frame.launches s (.session s p) = true :=
  Bool.and_eq_true_iff.2 ⟨decide_eq_true rfl, starts⟩

theorem launches_told (key : String) : Frame.launches s (.roster (.sessionStarted key s)) = true :=
  decide_eq_true rfl

theorem launches_of_plain (h : f.isPlain = true) : f.launches s = false := by
  cases f with
  | session s' p => cases p <;> first | exact Bool.and_false _ | cases h
  | roster p => cases p <;> first | rfl | cases h
  | _ => rfl

theorem of_launches_call {c : Call} (h : c.frame.launches s = true) : c = .startSession s := by
  have never {p : Prop} (other : c.frame.launches s = false) : p :=
    absurd (other.symm.trans h) Bool.false_ne_true
  cases c with
  | startSession s' =>
    obtain rfl : s' = s := by simpa using (Bool.and_eq_true_iff.1 h).1
    rfl
  | notifySession | stopSession | recordEvents => exact never (Bool.and_false _)
  | _ => exact never rfl

end Frame

/-- Where a session stands when its start goes on at a place. -/
def Session.Suits (x : Session) : Session.Stage → Prop
  | .start => x.state = .unstarted ∧ x.stopping = false
  | .launched _ => x.state = .starting ∧ x.stopping = false
  | .initializeAnswered | .initializedSent =>
    x.state = .starting ∧ x.stopping = false ∧ x.connection ≠ none
  | .abandoned _ => x.state ≠ .unstarted
  | .flushed => x.state = .ready
  | _ => False

/-- Alike in all that a launch depends on. -/
structure Session.Alike (x y : Session) : Prop where
  state : y.state = x.state
  stopping : y.stopping = x.stopping
  connection : y.connection = x.connection
  reaper : y.reaper = x.reaper

theorem Session.Suits.alike {x y : Session} {p : Session.Stage} (h : x.Suits p) (alike : x.Alike y) :
    y.Suits p := by
  cases p <;> simp only [Suits, alike.state, alike.stopping, alike.connection] at h ⊢ <;> exact h

namespace World

variable {may : Frame → Prop} {R : CellId → Prop} {t u : TaskId} {w w' w₂ : World}
variable {f g : Frame} {rest begun : List Frame} {o : Outcome Result} {flow : Flow Frame Result}
variable {s : SessionId} {p : Session.Stage} {x : Core} {key : String}

theorem Ending.launches {s' : SessionId} (h : Ending w s g) : g.launches s' = false := by
  cases h with
  | @stage p ends => cases p <;> first | exact Bool.and_false _ | cases ends
  | wait | close => rfl

/-- A step that goes on with the launch of a session belongs to its start, or has just made it. -/
theorem Change.launches_cases (h : Change w f o begun flow x) (launches : g.launches s = true)
    (hg : g ∈ flow.frames) :
    (∃ p q, f = .session s p ∧ p.starts = true ∧ g = .session s q) ∨
      s = w.sessions.length ∧ ∃ root, f = .roster (.ensure root) ∧
        (g = .session s .start ∨ g = .roster (.sessionStarted (Session.keyOf root) s)) ∧
        x.sessions = w.core.sessions ++ [(Session.make root [] .never 0).core] := by
  have never {p : Prop} (h : g.launches s = false) : p := by
    rw [h] at launches
    cases launches
  have one {g' : Frame} {p : Prop} (hg : g ∈ [g']) (h : g'.launches s = false) : p :=
    never (List.mem_singleton.1 hg ▸ h)
  have two {g' g'' : Frame} {p : Prop} (hg : g ∈ [g', g'']) (h : g'.launches s = false)
      (h' : g''.launches s = false) : p := by
    rcases List.mem_cons.1 hg with rfl | hg
    · exact never h
    · exact one hg h'
  have own {s' : SessionId} {q q' : Session.Stage} (hg : g ∈ [Frame.session s' q])
      (starts : q'.starts = true) :
      ∃ p r, Frame.session s' q' = .session s p ∧ p.starts = true ∧ g = .session s r := by
    cases List.mem_singleton.1 hg
    obtain rfl : s' = s := by simpa using (Bool.and_eq_true_iff.1 launches).1
    exact ⟨q', q, rfl, starts, rfl⟩
  have after {g' : Frame} {s' : SessionId} {q q' : Session.Stage}
      (hg : g ∈ [g', Frame.session s' q]) (other : g'.launches s = false)
      (starts : q'.starts = true) :
      ∃ p r, Frame.session s' q' = .session s p ∧ p.starts = true ∧ g = .session s r := by
    rcases List.mem_cons.1 hg with rfl | hg
    · exact never other
    · exact own hg starts
  cases h with
  | quiet frames => exact never (Frame.launches_of_plain (frames g hg).plain)
  | closing _ frames => exact never (frames g hg).launches
  | launches _ flow_ => rcases flow_ with rfl | ⟨c, rfl⟩ <;> exact .inl (own hg rfl)
  | connects _ flow_ =>
    rcases flow_ with ⟨params, timeout, -, rfl⟩ | ⟨e, rfl, -⟩
    · exact .inl (after hg rfl rfl)
    · cases hg
  | greets flow_ =>
    rcases flow_ with ⟨k, -, rfl⟩ | ⟨-, rfl⟩
    · exact .inl (after hg rfl rfl)
    · exact .inl (own hg rfl)
  | abandons start => exact .inl (after hg (Bool.and_false _) (by rcases start with rfl | rfl <;> rfl))
  | readies => exact .inl (after hg rfl rfl)
  | @creates root _ _ _ fresh =>
    subst fresh
    rcases List.mem_cons.1 hg with rfl | hg
    · obtain rfl : w.sessions.length = s := by simpa using (Bool.and_eq_true_iff.1 launches).1
      exact .inr ⟨rfl, root, rfl, .inl rfl, rfl⟩
    · cases List.mem_singleton.1 hg
      obtain rfl : w.sessions.length = s := by simpa [Frame.launches] using launches
      exact .inr ⟨rfl, root, rfl, .inr rfl, rfl⟩
  | arrives | stops | leaves => exact one hg (Bool.and_false _)
  | notes | joins | stopsAll => exact one hg rfl
  | requests | answers => exact two hg rfl rfl
  | tells | asks => exact two hg rfl (Bool.and_false _)
  | dismisses flow_ =>
    rcases flow_ with ⟨k, -, rfl⟩ | ⟨-, rfl⟩
    · exact two hg rfl (Bool.and_false _)
    · exact one hg (Bool.and_false _)
  | _ => cases hg

theorem Change.launches_begun (h : Change w f o begun flow x) (g : Frame) (hg : g ∈ begun) :
    g.launches s = false := by
  rcases h.begun_cases hg with errand | ⟨s', grace, rfl⟩ | ⟨s', limit, rfl⟩
  · exact Frame.launches_of_plain (Frame.isPlain_of_errand errand)
  · exact Bool.and_false _
  · exact Bool.and_false _

/-- A task that has nothing to do with the launch of a session goes on so. -/
theorem Sound.clear (sound : w.Sound) (m : Move may R w w')
    (first : ∀ g, may g → g.launches s = false) (inside : s < w.sessions.length)
    (clear : ∀ g ∈ w.stack u, g.launches s = false) : ∀ g ∈ w'.stack u, g.launches s = false := by
  cases sound.fate m u with
  | stays stack | wakes _ stack => exact stack ▸ clear
  | ends _ stack =>
    rw [stack]
    exact fun _ hg => nomatch hg
  | begins _ stack _ _ source =>
    rw [stack]
    refine List.forall_mem_singleton.2 ?_
    rcases source with ⟨-, allowed⟩ | ⟨t, f, o, rest, begun, flow, w₂, strides, found⟩
    · exact first _ allowed
    · exact strides.turn.change.launches_begun _ (List.mem_of_getElem? found)
  | @goes f o rest begun flow w₂ strides stack =>
    rw [strides.top] at clear
    rw [stack]
    intro g hg
    rcases List.mem_append.1 hg with new | old
    · refine Bool.eq_false_iff.2 fun launches => ?_
      rcases strides.turn.change.launches_cases launches new with ⟨p, q, rfl, starts, -⟩ | ⟨here, -⟩
      · have own := clear _ List.mem_cons_self
        cases own.symm.trans (Frame.launches_stage starts)
      · exact absurd inside (Nat.not_lt.2 (Nat.le_of_eq here.symm))
    · exact clear g (List.mem_cons_of_mem f old)

/-- What a stage of a start does. -/
theorem starts_conducts (starts : p.starts = true) (o : Outcome Result) (w : World) :
    Conduct w (w.resumeSession s p o).2 s p o (w.resumeSession s p o).1 := by
  have given (e : Failure) (h : p = .initializeAnswered ∨ p = .initializedSent) :
      Conduct w (w.abandon s e).2 s p (.error e) (w.abandon s e).1 := by
    unfold abandon
    split
    · next other => exact .gives h (.inl ⟨by simpa using other, rfl⟩) rfl
    · next expected =>
      have expected : isExpected e = true := by simpa using expected
      split
      · next stopping => exact .gives h (.inr ⟨expected, stopping, rfl⟩) rfl
      · next going =>
        exact .abandons h expected (Bool.eq_false_iff.2 going) (core_setSession_eq (fun _ => by rfl) s w)
  cases o with
  | ok r =>
    cases p with
    | start => exact startSession_conducts
    | launched => exact launched_conducts
    | initializeAnswered =>
      simp only [resumeSession, callConnection]
      split
      · next k connected => exact .greets connected rfl
      · next alone => exact .unconnected alone (.inl ⟨rfl, rfl⟩) rfl
    | initializedSent => exact completeStart_conducts
    | abandoned e =>
      exact .refused (.inr (.inr ⟨e, rfl⟩)) (failStart_spec (A := .none) (R := fun _ => False) s _).2
    | flushed => exact .started (.inl ⟨r, rfl⟩) rfl
    | _ => cases starts
  | error e =>
    cases p with
    | start | launched | abandoned => exact .fails rfl rfl
    | initializeAnswered => exact given e (.inl rfl)
    | initializedSent => exact given e (.inr rfl)
    | flushed =>
      cases e with
      | closed name cause => exact .started (.inr ⟨name, cause, rfl⟩) rfl
      | _ => exact .fails rfl rfl
    | _ => cases starts

theorem alike_core (s : SessionId) (w : World) : (w.session s).Alike (w.core.session s) :=
  ⟨state_core s w, stopping_core s w, connected_core s w, reaper_core s w⟩

/-- A step that does not belong to the launch of a session leaves alone what that depends on, unless the
session comes to its end. -/
theorem Shifts.alike {y : Session} (shifts : Shifts w s f o flow y) (other : f.launches s = false)
    (unreaped : (w.session s).reaper = none) (alive : y.state ≠ .stopped) :
    (w.session s).Alike y := by
  have own {p : Session.Stage} (starts : p.starts = true)
      (other : (Frame.session s p).launches s = false) : (w.session s).Alike y := by
    cases other.symm.trans (Frame.launches_stage starts)
  have same := alike_core s w
  cases shifts with
  | same => exact same
  | shuts | buffers => exact ⟨same.state, same.stopping, same.connection, same.reaper⟩
  | starts | arrives | connects | readies | drops => exact own rfl other
  | fails start => exact own start other
  | abandons start => rcases start with rfl | rfl <;> exact own rfl other
  | joins _ reaped =>
    rw [unreaped] at reaped
    cases reaped
  | stops | loses => exact absurd rfl alive

theorem Move.alike (m : Move may R w w') (inside : s < w.sessions.length)
    (unreaped : (w.session s).reaper = none) (alive : (w'.session s).state ≠ .stopped)
    (other : ∀ t o f rest, w.current = some (t, o) → w.stack t = f :: rest → f.launches s = false) :
    (w.session s).Alike (w'.session s) := by
  have known (alike : (w.session s).Alike (w'.core.session s)) :
      (w.session s).Alike (w'.session s) := by
    have after := alike_core s w'
    exact ⟨after.state.symm.trans alike.state, after.stopping.symm.trans alike.stopping,
      after.connection.symm.trans alike.connection, after.reaper.symm.trans alike.reaper⟩
  rcases m.session_cases s with same | ⟨t, f, o, rest, begun, flow, w₂, strides, shifts⟩ | ⟨here, -⟩
  · exact known (same ▸ alike_core s w)
  · rw [← state_core] at alive
    exact known (shifts.alike (other t o f rest strides.runs strides.top) unreaped alive)
  · exact absurd inside (Nat.not_lt.2 (Nat.le_of_eq here.symm))

/-- How far a task has come with the launch of a session; `below` is what it goes on with after that. -/
inductive Launch (w : World) (key : String) (s : SessionId) (t : TaskId) (below : List Frame) : Prop
  | goes {p : Session.Stage} {above : List Frame}
    (stack : w.stack t = above ++ .session s p :: .roster (.sessionStarted key s) :: below)
    (clear : ∀ g ∈ above, g.launches s = false) (starts : p.starts = true) (later : p ≠ .start)
    (suits : (w.session s).Suits p)
  | returns {o : Outcome Result} (runs : w.current = some (t, o))
    (stack : w.stack t = .roster (.sessionStarted key s) :: below)
    (ready : ∀ r, o = .ok r → (w.session s).state = .ready)

variable {below : List Frame}

/-- A step of a start leads to the next stage, or comes back; if it comes back in good order the session
is ready. -/
theorem Strides.launch (sound : w.Sound) (inside : s < w.sessions.length) (starts : p.starts = true)
    (suits : (w.session s).Suits p)
    (strides : Strides R w w' t (.session s p) o (.roster (.sessionStarted key s) :: below) begun flow w₂) :
    w'.Launch key s t below := by
  have stack : w'.stack t = flow.frames ++ .roster (.sessionStarted key s) :: below :=
    (strides.turn.piles (sound.running strides.runs) strides.lands).1
  have landed : w'.core = w₂.core := strides.lands.aside.core
  have next := strides.lands.next
  have conduct : Conduct w w₂ s p o flow := by
    have known : Conduct { w with current := none } _ s p o _ := starts_conducts starts o _
    have steps : { w with current := none }.resumeSession s p o = (flow, w₂) := strides.steps
    rw [steps] at known
    exact known.aside
  have fails {e : Failure} (same : flow = .done (.error e)) : w'.Launch key s t below := by
    subst same
    exact .returns next.1 stack (by simp)
  have before := alike_core s w
  have now {y : Session} (same : w₂.core.session s = y) : y.Alike (w'.session s) := by
    have after := alike_core s w'
    rw [landed, same] at after
    exact ⟨after.state.symm, after.stopping.symm, after.connection.symm, after.reaper.symm⟩
  have sets {f : Session → Session} (same : w₂.core.sessions = w.core.sessions.modify s f) :
      (f (w.core.session s)).Alike (w'.session s) := by
    refine now ?_
    rw [Core.session, same]
    exact Core.session_setSession_self (Nat.lt_of_lt_of_eq inside (length_core_sessions w).symm) f
  -- what cannot be done at a stage of a start, or not while its session suits it, is ruled out case by case
  cases conduct with
  | fails | late | stumbles | refused | lost | drops => exact fails rfl
  | launches _ flow_ core =>
    have after := sets (congrArg Core.sessions core)
    have frames : flow.frames = [.session s (.launched w.backends.length)] := by
      rcases flow_ with rfl | ⟨c, -, rfl⟩ <;> rfl
    rw [frames] at stack
    have stack : w'.stack t = [] ++ .session s (.launched w.backends.length) ::
        .roster (.sessionStarted key s) :: below := stack
    refine .goes stack (List.forall_mem_nil _) rfl (by simp) ⟨after.state, ?_⟩
    exact after.stopping.trans (before.stopping.trans suits.2)
  | arrives stopping => exact absurd (suits.2.symm.trans stopping) Bool.false_ne_true
  | connects going _ core =>
    have after := sets (congrArg Core.sessions core)
    refine .goes stack (List.forall_mem_singleton.2 rfl) rfl (by simp) ?_
    refine ⟨?_, ?_, ?_⟩
    · exact after.state.trans (before.state.trans suits.1)
    · exact after.stopping.trans (before.stopping.trans suits.2)
    · rw [after.connection]
      exact Option.some_ne_none _
  | greets connected core =>
    have after := now (congrArg (Core.session s) core)
    refine .goes stack (List.forall_mem_singleton.2 rfl) rfl (by simp) ?_
    refine ⟨?_, ?_, ?_⟩
    · exact after.state.trans (before.state.trans suits.1)
    · exact after.stopping.trans (before.stopping.trans suits.2.1)
    · rw [after.connection, before.connection]
      exact suits.2.2
  | gives h flow_ =>
    rcases flow_ with ⟨-, rfl⟩ | ⟨-, stopping, -⟩
    · exact fails rfl
    · rcases h with rfl | rfl <;> exact absurd (suits.2.1.symm.trans stopping) Bool.false_ne_true
  | abandons h _ _ core =>
    have after := sets (congrArg Core.sessions core)
    have ends : Frame.launches s (.session s (.shutdown (.after 0))) = false := Bool.and_false _
    refine .goes stack (List.forall_mem_singleton.2 ends) rfl (by simp) ?_
    refine fun fresh => ?_
    have fresh := before.state.symm.trans (after.state.symm.trans fresh)
    rcases h with rfl | rfl <;> cases suits.1.symm.trans fresh
  | overtaken moved => exact absurd suits.1 moved
  | solitary alone => exact absurd alone suits.2.2
  | @readies _ _ x _ _ _ sends core =>
    have after := sets (f := fun y => { y with outbox := [], state := .ready }) <| by
      rw [core, Core.setSession, (Core.sends_rest sends).1]
      exact List.modify_modify_eq _ _ _ _
    refine .goes stack (List.forall_mem_singleton.2 rfl) rfl (by simp) ?_
    exact after.state
  | started _ core =>
    have after := now (congrArg (Core.session s) core)
    exact .returns next.1 stack fun _ _ => after.state.trans (before.state.trans suits)
  | unconnected alone h =>
    rcases h with ⟨rfl, -⟩ | ⟨rfl, -⟩ | ⟨timeout, rfl, -⟩
    · exact absurd alone suits.2.2
    · cases starts
    · cases starts
  | takes h => rcases h with rfl | ⟨c, rfl⟩ <;> cases starts
  | turns h => rcases h with rfl | ⟨rfl, -⟩ <;> cases starts
  | insists h => rcases h with ⟨grace, r, rfl, -⟩ | ⟨rfl, -⟩ <;> cases starts
  | vacates h => rcases h with ⟨grace, rfl⟩ | rfl | rfl <;> cases starts
  | exits h => rcases h with rfl | rfl | rfl <;> cases starts
  | watches _ _ h => rcases h with ⟨rfl, -⟩ | ⟨rfl, -⟩ | ⟨rfl, -⟩ <;> cases starts
  | _ => cases starts

/-- Until its call hears what has come of it, the launch of a session goes on. -/
theorem Launch.move (h : w.Launch key s t below) (sound : w.Sound) (m : Move may R w w')
    (inside : s < w.sessions.length) (unreaped : (w.session s).reaper = none)
    (alive : (w'.session s).state ≠ .stopped)
    (others : ∀ u, u ≠ t → ∀ g ∈ w.stack u, g.launches s = false)
    (unheard : ∀ o, w.current = some (t, o) → w.stack t ≠ .roster (.sessionStarted key s) :: below) :
    w'.Launch key s t below := by
  cases h with
  | returns runs stack => exact absurd stack (unheard _ runs)
  | @goes p above stack clear starts later suits =>
    have there : t < w.loop.tasks.length :=
      lt_of_stack (f := .session s p) (by rw [stack]; exact List.mem_append_right _ List.mem_cons_self)
    -- what stands above the start does not belong to it, so that its step leaves the session alone
    have aside (here : ∀ o f rest, w.current = some (t, o) → w.stack t = f :: rest →
        f.launches s = false) : (w'.session s).Suits p := by
      refine suits.alike (m.alike inside unreaped alive fun u o f rest runs top => ?_)
      by_cases same : u = t
      · subst same
        exact here o f rest runs top
      · exact others u same f (top ▸ List.mem_cons_self)
    cases sound.fate m t with
    | stays same _ before =>
      exact .goes (same.trans stack) clear starts later (aside fun o _ _ runs => absurd runs (before o))
    | ends ends =>
      rw [ends.2] at stack
      exact absurd stack.symm (by simp)
    | wakes idle same =>
      exact .goes (same.trans stack) clear starts later (aside fun _ _ _ runs => nomatch idle.symm.trans runs)
    | begins new => exact absurd there (Nat.not_lt.2 new)
    | @goes f o rest begun flow w₂ strides same =>
      have top := strides.top.symm.trans stack
      cases above with
      | nil =>
        cases top
        exact strides.launch sound inside starts suits
      | cons g above =>
        cases top
        have quiet := clear f List.mem_cons_self
        refine .goes (same.trans (List.append_assoc _ above _).symm)
          (fun g hg => ?_) starts later (aside fun o' f' rest' _ top' => ?_)
        · rcases List.mem_append.1 hg with new | old
          · refine Bool.eq_false_iff.2 fun launches => ?_
            rcases strides.turn.change.launches_cases launches new with ⟨q, -, rfl, starts', -⟩ | ⟨here, -⟩
            · cases quiet.symm.trans (Frame.launches_stage starts')
            · exact absurd inside (Nat.not_lt.2 (Nat.le_of_eq here.symm))
          · exact clear g (List.mem_cons_of_mem f old)
        · cases strides.top.symm.trans top'
          exact quiet

end World
end LanguageClient
