import LanguageClient.Proofs.World.Session
import LanguageClient.Relay.Run

/-!
The steps of a relay are all quiet.
-/

namespace LanguageClient.World

open Schedule

variable {A : Licence} {R : CellId → Prop} {begun : List Frame}
variable {w w' : World} {f : Frame} {o : Outcome Result}

theorem quiet_shell (shell : Shell) (w : World) :
    Quiet A R [] w { w with shell := shell } :=
  ⟨(Keeps.refl w).aside rfl rfl rfl rfl rfl rfl rfl, rfl⟩

/-- A change of a relay that is not about its task. -/
theorem quiet_setRelay (r : RelayId) {f : Relay → Relay} (h : ∀ x, (f x).task = x.task)
    (w : World) : Quiet A R [] w (w.setRelay r f) := by
  refine ⟨(Keeps.refl w).setRelay r fun x t ht => .inl ?_, rfl⟩
  rwa [h x] at ht

/-- A change of the workspace that is about no task and no place on the roster. -/
theorem quiet_setWorkspace {f : Workspace → Workspace}
    (reports : ∀ ws, ∀ t ∈ (f ws).reports, t ∈ ws.reports)
    (roster : ∀ ws, (f ws).roster.sessions = ws.roster.sessions) (w : World) :
    Quiet A R [] w (w.setWorkspace f) :=
  ⟨(Keeps.refl w).setWorkspace fun t ht => .inl (reports _ t ht), core_setWorkspace roster w⟩

theorem quiet_showStatus (r : RelayId) (w : World) :
    Quiet A R [] w (w.showStatus r).2 := quiet_shell _ w

theorem quiet_setIndicator (r : RelayId) (f : StatusIndicator → StatusIndicator) (w : World) :
    Quiet A R [] w (w.setIndicator r f) := quiet_setRelay r (fun _ => by rfl) w

theorem quiet_runLocal (command : Relay.LocalCommand) (data : Value) (w : World) :
    Quiet A R [] w (w.runLocal command data).2 := by
  cases command with
  | configure =>
    have changed : Quiet A R [] w (w.setWorkspace fun ws =>
        { ws with settings := (w.workspace.settings.applyCommand data).1 }) := by
      refine quiet_setWorkspace (fun _ t ht => ?_) (fun _ => ?_) w
      · exact ht
      · rfl
    exact changed
  | fail => exact .refl w
  | record name => exact quiet_see _ w
  | recordLater name => exact quiet_see _ w
  | arbitrary name => exact (quiet_shell _ w).trans (quiet_see _ _)

theorem quiet_runCommand (r : RelayId) (name data : Value) (w : World) :
    Quiet A R [] w (w.runCommand r name data).2 := by
  unfold runCommand
  split
  · exact .refl w
  · split
    · exact quiet_runLocal _ data w
    · exact quiet_shell _ w

theorem quiet_decorate (r : RelayId) (uri items : Value) (kind : String)
    (item : Entries → Except Failure Decoration) (w : World) :
    Quiet A R [] w (w.decorate r uri items kind item).2 := by
  unfold decorate
  dsimp only
  split
  · exact .refl w
  · exact .refl w
  · exact quiet_shell _ w

theorem quiet_applyEvent (r : RelayId) (what : Happening) (w : World) :
    Quiet A R [] w (w.applyEvent r what).2 := by
  have shows (f : StatusIndicator → StatusIndicator) :
      Quiet A R [] w ((w.setIndicator r f).showStatus r).2 :=
    (quiet_setIndicator r f w).trans (quiet_showStatus r _)
  unfold applyEvent
  split
  · exact quiet_runCommand r _ _ w
  · exact shows _
  · exact shows _
  · exact shows _
  · exact quiet_decorate r _ _ _ _ w
  · exact quiet_decorate r _ _ _ _ w
  · exact .refl w

theorem quiet_dispatchEvent (r : RelayId) (e : Event) (w : World) :
    Quiet A R [] w (w.dispatchEvent r e) := by
  have applied := quiet_applyEvent (A := A) (R := R) r e.what w
  unfold dispatchEvent
  split
  · next w' same =>
    rw [same] at applied
    exact applied
  · next failure w' same =>
    rw [same] at applied
    exact applied.trans (quiet_showError _ w')

theorem quiet_spanOf (r : RelayId) (what : Happening) (w : World) :
    Quiet A R [] w (w.spanOf r what).2 := by
  unfold spanOf
  dsimp only
  split
  · split
    · exact .refl w
    split
    · exact .refl w
    · exact quiet_shell _ w
    · exact .refl w
    · exact quiet_shell _ w
  · exact .refl w

/-- From a relay on everything is plain that is not about a session's start or stop. -/
theorem follows_of_relay {r : RelayId} {p : Relay.Stage} {g : Frame} (aside : g.isAside = true)
    (harmless : g.isHarmless = true) : (Frame.relay r p).Follows g :=
  .of_idle ⟨Frame.isPlain_of_aside aside, fun _ => harmless,
    fun _ k h => h ▸ Frame.isLocal_of_aside aside k⟩ (Frame.isTaking_of_aside aside)

/-- The other tasks go on, or the event is applied. -/
theorem dispatchAfter_turn {r : RelayId} {p : Relay.Stage} {e : Event} {v : Result} (span : Nat)
    (taking : ∀ s r', (Frame.relay r p).takesFor s r' = decide (r = r'))
    (h : Quiet (w.Answers (.relay r p)) R [] w w') :
    Turn R w (.relay r p) (.ok v) [] (w'.dispatchAfter r e span) := by
  cases span with
  | zero => exact .finish (h.trans (quiet_dispatchEvent r e w'))
  | succ span =>
    refine .pause h ⟨⟨rfl, fun _ => rfl, fun _ _ h => h⟩, fun s r' takes => ?_⟩ rfl fun _ => trivial
    exact (taking s r').trans takes

theorem closeRelay_turn {r : RelayId} (v : Result) (reaches : w.Reaches (.relay r .close) R) :
    Turn R w (.relay r .close) (.ok v) [] (w.closeRelay r) := by
  unfold closeRelay
  split
  · exact .finish (.refl w)
  · next t task =>
    have known : R (w.loop.taskCell t) := reaches.refers t (.relay task)
    split
    · exact .finish (.refl w)
    · exact .await ⟨(Keeps.refl w).cancelTask known, rfl⟩
        (.inr (.inl ⟨true, t, .relay task, rfl⟩)) (follows_of_relay rfl rfl)
        (fun _ hd => nomatch hd) fun _ => trivial

/-- Failures of the client itself are shown; the others go on. -/
theorem shown_cases (o : Outcome Result) (w : World) :
    (∃ w', w.shown o = .ok w' ∧ Quiet A R [] w w') ∨
      ∃ e, w.shown o = .error e ∧ o = .error e := by
  unfold shown
  split
  · exact .inl ⟨w, rfl, .refl w⟩
  · next e =>
    split
    · exact .inl ⟨_, rfl, quiet_showError _ w⟩
    · exact .inr ⟨e, rfl, rfl⟩

theorem resumeRelay_turn {r : RelayId} (p : Relay.Stage) (o : Outcome Result) {w : World}
    (reaches : w.Reaches (.relay r p) R) :
    Turn R w (.relay r p) o [] (w.resumeRelay r p o) := by
  have reported (ranges : List Range) : Turn R w (.relay r (.reported ranges)) o []
      (w.resumeRelay r (.reported ranges) o) := by
    rw [resumeRelay]
    rcases shown_cases (A := w.Answers (.relay r (.reported ranges))) (R := R) o w
      with ⟨w', same, quiet⟩ | ⟨e, same, rfl⟩
    · rw [same]
      exact .done quiet fun _ => calm_ok _
    · rw [same]
      exact .fail_on w
  have clicked : Turn R w (.relay r .clicked) o [] (w.resumeRelay r .clicked o) := by
    rw [resumeRelay]
    rcases shown_cases (A := w.Answers (.relay r .clicked)) (R := R) o w
      with ⟨w', same, quiet⟩ | ⟨e, same, rfl⟩
    · rw [same]
      exact .finish quiet
    · rw [same]
      exact .fail_on w
  cases p with
  | reported ranges => exact reported ranges
  | clicked => exact clicked
  | closed =>
    cases o with
    | ok v => exact .finish (.refl w)
    | error e =>
      cases e with
      | cancelled => exact .finish (.refl w)
      | _ => exact .fail_on w
  | dispatch e =>
    cases o with
    | error e => exact .fail_on w
    | ok v => exact dispatchAfter_turn _ (fun _ _ => by rfl) (quiet_spanOf r e.what w)
  | dispatchLater e span =>
    cases o with
    | error e => exact .fail_on w
    | ok v => exact dispatchAfter_turn span (fun _ _ => by rfl) (.refl w)
  | close =>
    cases o with
    | error e => exact .fail_on w
    | ok v => exact closeRelay_turn v reaches
  | report v =>
    cases o with
    | error e => exact .fail_on w
    | ok _ =>
      refine .call (quiet_setRelay r (fun _ => ?_) w) (follows_of_relay rfl rfl)
        (follows_of_relay rfl rfl) (fun c hc => ?_) fun _ => ⟨trivial, trivial⟩
      · rfl
      · rcases hc with hc | hc <;> cases hc
  | click =>
    cases o with
    | error e => exact .fail_on w
    | ok v =>
      refine .call (.refl w) (follows_of_relay rfl rfl) (follows_of_relay rfl rfl)
        (fun c hc => ?_) fun _ => ⟨trivial, trivial⟩
      rcases hc with hc | hc <;> cases hc

end LanguageClient.World
