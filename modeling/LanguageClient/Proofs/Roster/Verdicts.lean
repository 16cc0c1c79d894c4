import LanguageClient.Proofs.Roster.Concurrent

/-!
What the calls for a session come to, whatever else happens: a session that runs or has become ready, or
none after one error that is shown, or none because the session is over already. What is no failure to
launch is not shown but raised: settings that cannot be converted, parameters that are no words, and what
the start of a session raises itself.
-/

namespace LanguageClient

open Schedule

namespace Settings

variable {settings : Settings} {own : RootSettings} {root : Option Root} {e : Failure}

/-- Why no session can be made of the settings for a root, however the backend is launched. -/
inductive Unusable (settings : Settings) (root : Option Root) (e : Failure) : Prop
  | settings (h : settings.forRoot root = .error e)
  | parameters {own : RootSettings} (made : settings.forRoot root = .ok own)
    (h : Launch.parameterWords own.parameters = .error e)

theorem port_of_forRoot (made : settings.forRoot root = .ok own) : ∃ n, own.debuggerPort = .int n := by
  unfold forRoot at made
  simp only [bind, Except.bind] at made
  repeat' split at made
  all_goals first
    | cases made
      done
    | cases made
      exact ⟨_, rfl⟩

/-- A backend has no command only for want of an executable, or because of its parameters. -/
theorem command_fails {launcher : Roster.Launcher} (made : settings.forRoot root = .ok own)
    (h : (launcher.command own).2 = .error e) :
    (∃ name reason, e = .launch name reason) ∨ settings.Unusable root e := by
  obtain ⟨n, port⟩ := port_of_forRoot made
  cases launcher with
  | stub => cases h
  | directory dir disk =>
    simp only [Roster.Launcher.command, Launch.backendCommand] at h
    split at h
    · next e' failed =>
      cases h
      unfold Launch.executable at failed
      split at failed
      · cases failed
      · cases failed
        exact .inl ⟨_, _, rfl⟩
    · next path _ =>
      split at h
      · next e' failed =>
        cases h
        unfold Launch.prepare at failed
        split at failed
        · split at failed <;> cases failed
        · cases failed
          exact .inl ⟨_, _, rfl⟩
      · next disk' _ =>
        simp only [Launch.command, port, Value.toInt, bind, Except.bind] at h
        split at h
        · next e' failed =>
          cases h
          exact .inr (.parameters made failed)
        · cases h

end Settings

/-- What a call for the session of a key comes to at the moment at which it returns, and what is shown. -/
inductive Moment.Verdict (m : Moment) (key : String) : Outcome Result → Prop
  | found {s : SessionId} (registered : m.world.registered? key = some s)
    (running : m.world.isRunning s = true) (silent : m.world.step.shell = m.world.shell) :
    Verdict m key (.ok (.session (some s)))
  | started {s : SessionId} (ready : (m.world.session s).state = .ready)
    (silent : m.world.step.shell = m.world.shell) : Verdict m key (.ok (.session (some s)))
  | failed {name reason : String} (shown : m.world.step.shell =
      m.world.shell.showError ("Roblox LSP: " ++ Failure.message (.launch name reason))) :
    Verdict m key (.ok (.session none))
  | gone {s : SessionId} {t : TaskId} {r : Result} {rest : List Frame}
    (told : m.Runs t (.roster (.sessionStarted key s)) (.ok r) rest)
    (unready : (m.world.session s).state ≠ .ready) (silent : m.world.step.shell = m.world.shell) :
    Verdict m key (.ok (.session none))
  | unusable {root : Option Root} {e : Failure} (same : Session.keyOf root = key)
    (unusable : m.world.workspace.settings.Unusable root e)
    (silent : m.world.step.shell = m.world.shell) : Verdict m key (.error e)
  | raised {s : SessionId} {t : TaskId} {e : Failure} {rest : List Frame}
    (told : m.Runs t (.roster (.sessionStarted key s)) (.error e) rest)
    (other : ∀ name reason, e ≠ .launch name reason) (silent : m.world.step.shell = m.world.shell) :
    Verdict m key (.error e)

namespace World

variable {w w' : World} {t : TaskId} {root : Option Root} {e : Failure} {o o' : Outcome Result}
variable {key : String} {s : SessionId} {f : Frame} {rest : List Frame} {m : Moment} {ms : List Moment}

theorem createSession_fails (h : (w.createSession root).1 = .error e) :
    (∃ name reason, e = .launch name reason) ∨ w.workspace.settings.Unusable root e := by
  unfold createSession at h
  split at h
  · next failed =>
    cases h
    exact .inr (.settings failed)
  · next own made =>
    dsimp only at h
    split at h
    · next failed =>
      cases h
      exact Settings.command_fails made failed
    · cases h

theorem shell_createSession (root : Option Root) (w : World) : (w.createSession root).2.shell = w.shell := by
  unfold createSession
  split
  · rfl
  · dsimp only
    split <;> rfl

/-- What a call for a session comes to that ends when it is carried out. -/
theorem ensure_tells (done : (w.ensure root).1 = .done o) :
    (∃ s, o = .ok (.session (some s)) ∧ w.registered? (Session.keyOf root) = some s ∧
        w.isRunning s = true ∧ (w.ensure root).2.shell = w.shell) ∨
      (∃ name reason, o = .ok (.session none) ∧ (w.ensure root).2.shell =
        w.shell.showError ("Roblox LSP: " ++ Failure.message (.launch name reason))) ∨
      ∃ e, o = .error e ∧ w.workspace.settings.Unusable root e ∧ (w.ensure root).2.shell = w.shell := by
  have reports {w₀ w₁ : World} {e : Failure} (failed : w₀.createSession root = (.error e, w₁))
      (shell : w₀.shell = w.shell) (settings : w₀.workspace.settings = w.workspace.settings)
      (done : (w₁.reportLaunch e).1 = .done o) :
      (∃ name reason, o = .ok (.session none) ∧ (w₁.reportLaunch e).2.shell =
        w.shell.showError ("Roblox LSP: " ++ Failure.message (.launch name reason))) ∨
      ∃ e', o = .error e' ∧ w.workspace.settings.Unusable root e' ∧ (w₁.reportLaunch e).2.shell = w.shell := by
    have same : w₁.shell = w.shell := by
      rw [← shell, ← shell_createSession root w₀, failed]
    rcases createSession_fails (congrArg Prod.fst failed) with ⟨name, reason, rfl⟩ | unusable
    · cases done
      exact .inl ⟨name, reason, rfl, congrArg (Shell.showError _) same⟩
    · rw [settings] at unusable
      unfold reportLaunch at done ⊢
      split at done
      · next name reason =>
        cases done
        exact .inl ⟨name, reason, rfl, congrArg (Shell.showError _) same⟩
      · cases done
        exact .inr ⟨e, rfl, unusable, same⟩
  unfold ensure at done ⊢
  dsimp only at done ⊢
  split at done
  · next s found =>
    simp only [found] at done ⊢
    split at done
    · next runs =>
      cases done
      rw [if_pos runs]
      exact .inl ⟨s, rfl, rfl, runs, rfl⟩
    · next rests =>
      rw [if_neg rests]
      split at done
      · next e w₁ failed => exact .inr (reports failed rfl rfl done)
      · cases done
  · next absent =>
    simp only [absent] at done ⊢
    split at done
    · next e w₁ failed => exact .inr (reports failed rfl rfl done)
    · cases done

theorem shell_runHook (s : SessionId) (w : World) : (w.runHook s).shell = w.shell := by
  unfold runHook
  split <;> rfl

/-- What a call comes to that hears of the launch of its session. -/
theorem sessionStarted_tells (done : (w.sessionStarted key s o').1 = .done o) :
    (∃ r, o' = .ok r ∧ ((o = .ok (.session (some s)) ∧ (w.session s).state = .ready) ∨
      (o = .ok (.session none) ∧ (w.session s).state ≠ .ready)) ∧
        (w.sessionStarted key s o').2.shell = w.shell) ∨
      (∃ name reason, o = .ok (.session none) ∧ (w.sessionStarted key s o').2.shell =
        w.shell.showError ("Roblox LSP: " ++ Failure.message (.launch name reason))) ∨
      ∃ e, o' = .error e ∧ o = .error e ∧ (∀ name reason, e ≠ .launch name reason) ∧
        (w.sessionStarted key s o').2.shell = w.shell := by
  unfold sessionStarted at done ⊢
  split at done
  · next r =>
    left
    refine ⟨r, rfl, ?_⟩
    split at done
    · next unready =>
      cases done
      rw [if_pos unready]
      exact ⟨.inr ⟨rfl, unready⟩, rfl⟩
    · next ready =>
      cases done
      rw [if_neg ready]
      exact ⟨.inl ⟨rfl, Decidable.not_not.1 ready⟩, shell_runHook s _⟩
  · next name reason =>
    cases done
    refine .inr (.inl ⟨name, reason, rfl, ?_⟩)
    dsimp only
    split <;> rfl
  · next e other =>
    cases done
    exact .inr (.inr ⟨e, rfl, rfl, fun name reason same => other name reason same, rfl⟩)

end World

namespace Moment

open World

variable {m : Moment} {t : TaskId} {f : Frame} {o o' : Outcome Result} {rest : List Frame} {key : String}

/-- What a task that returns has shown is what its step shows. -/
theorem Runs.shell (runs : m.Runs t f o' rest)
    (done : ({ m.world with current := none }.resume t f o').1 = .done o) :
    m.world.step.shell = ({ m.world with current := none }.resume t f o').2.shell := by
  have same : m.world.step = m.world.stepTask t o' := by rw [World.step, runs.1]
  rw [same, stepTask_cons runs.2]
  generalize { m.world with current := none }.resume t f o' = x at done ⊢
  obtain ⟨flow, w⟩ := x
  cases done
  rfl

theorem Returns.verdict (h : m.Returns key o) : m.Verdict key o := by
  obtain ⟨t, f, o', rest, runs, source, done⟩ := h
  have shell := runs.shell done
  rcases source with ⟨root, r, same, rfl, rfl⟩ | ⟨s, rfl⟩
  · rcases ensure_tells (w := { m.world with current := none }) done with
      ⟨s, rfl, registered, running, silent⟩ | ⟨name, reason, rfl, shown⟩ | ⟨e, rfl, unusable, silent⟩
    · exact .found (same ▸ registered) running (shell.trans silent)
    · exact .failed (shell.trans shown)
    · exact .unusable same unusable (shell.trans silent)
  · rcases sessionStarted_tells (w := { m.world with current := none }) done with
      ⟨r, rfl, which, silent⟩ | ⟨name, reason, rfl, shown⟩ | ⟨e, rfl, rfl, other, silent⟩
    · rcases which with ⟨rfl, ready⟩ | ⟨rfl, unready⟩
      · exact .started ready (shell.trans silent)
      · exact .gone runs unready (shell.trans silent)
    · exact .failed (shell.trans shown)
    · exact .raised runs other (shell.trans silent)

end Moment

namespace World

variable {config : Config} {settings : Settings} {roots : List Root} {launcher : Roster.Launcher}
variable {ws : Workspace} {shell : Shell} {plans : List Backend.Plan} {w : World} {ms : List Moment}
variable {t : TaskId} {root : Option Root} {o : Outcome Result}

theorem Path.traced (made : Workspace.make config settings roots launcher = .ok ws)
    (path : Path (start ws shell plans) ms w) (listens : ∀ a ∈ acts ms, ∀ k owner, a ≠ .listen k owner) :
    Traced (fun _ => True) ms w := by
  obtain ⟨-, -, -, reports⟩ := Workspace.of_make made
  have unused : (start ws shell plans).Unused := unused_start reports
  refine path.keeps (I := fun ms w => (∀ a ∈ acts ms, ∀ k owner, a ≠ .listen k owner) →
      Traced (fun _ => True) ms w)
    (fun _ => ⟨unused.sound, fun t _ => unused.apart t, fun t root ⟨_, member, _⟩ => nomatch member⟩)
    (fun ms m w' _ ih goes listens => ?_) listens
  rw [acts_next] at listens
  exact (ih fun a ha => listens a (List.mem_append_left _ ha)).next goes fun a act =>
    listens a (List.mem_append_right _ (by simp [act]))

/-- A call for a session that has come to its end has come to a verdict, unless it has been withdrawn
before its turn. An error is shown exactly when the verdict is that the launch has failed. -/
theorem calls_come_to_verdict (made : Workspace.make config settings roots launcher = .ok ws)
    (path : Path (start ws shell plans) ms w) (listens : ∀ a ∈ acts ms, ∀ k owner, a ≠ .listen k owner)
    (called : Called ms t (.ensure root)) (settled : w.loop.outcome? (w.loop.taskCell t) = some o) :
    (∃ m ∈ ms, m.At t ∧ m.Verdict (Session.keyOf root) o) ∨ Withdrawn ms t root := by
  have traced := path.traced made listens
  have empty : w.stack t = [] := traced.sound.over_of_done (Option.isSome_iff_exists.2 ⟨o, settled⟩)
  cases (traced.calls t root called trivial).2 with
  | waits stack | turn stack =>
    rw [empty] at stack
    cases stack
  | launches last =>
    rw [empty] at last
    cases last
  | returned told returned =>
    obtain ⟨m, member, returns, here⟩ := told
    exact .inl ⟨m, member, here, traced.sound.returned_unique returned settled ▸ returns.verdict⟩
  | withdrawn h => exact .inr h

end World
end LanguageClient
