import LanguageClient.Proofs.World.Roster
import LanguageClient.Workspace.Run

/-!
The steps of a workspace are all quiet: they leave sessions to the roster and to the relays.
-/

namespace LanguageClient.World

open Schedule

variable {A : Licence} {R : CellId → Prop} {begun : List Frame}
variable {w w' : World} {p : Workspace.Stage} {o : Outcome Result}

/-- From a workspace on everything is plain; from its reports on nothing starts a session. -/
theorem follows_of_workspace {g : Frame} (aside : g.isAside = true)
    (harmless : (Frame.workspace p).isHarmless = true → g.isHarmless = true) :
    (Frame.workspace p).Follows g :=
  .of_idle ⟨Frame.isPlain_of_aside aside, harmless,
    fun _ k h => h ▸ Frame.isLocal_of_aside aside k⟩ (Frame.isTaking_of_aside aside)

theorem quiet_noteWorkspace {f : Workspace → Workspace} (reports : ∀ ws, (f ws).reports = ws.reports)
    (roster : ∀ ws, (f ws).roster = ws.roster) (w : World) :
    Quiet A R [] w (w.setWorkspace f) := by
  refine quiet_setWorkspace (fun ws t ht => ?_) (fun ws => ?_) w
  · rwa [reports ws] at ht
  · rw [roster ws]

theorem quiet_setBridge (f : Bridge → Bridge) (w : World) : Quiet A R [] w (w.setBridge f) :=
  quiet_noteWorkspace (fun _ => by rfl) (fun _ => by rfl) w

/-- A step to another place of the editor's calls. -/
theorem goto_turn {g : Frame} (h : Quiet (w.Answers (.workspace p)) R [] w w')
    (aside : g.isAside = true) (names : g.names = []) (calm : g.IsCalm)
    (harmless : (Frame.workspace p).isHarmless = true → g.isHarmless = true) :
    Turn R w (.workspace p) o [] (w'.continueAt g) :=
  .goto h (follows_of_workspace aside harmless) names fun _ => calm

/-- A call, with the place to go on at. -/
theorem call_turn {inner : Frame} {next : Workspace.Stage}
    (h : Quiet (w.Answers (.workspace p)) R [] w w') (aside : inner.isAside = true)
    (names : inner.names = [])
    (harmless : (Frame.workspace p).isHarmless = true →
      inner.isHarmless = true ∧ (Frame.workspace next).isHarmless = true)
    (calm : w.Easy (.workspace p) o → inner.IsCalm ∧ (Frame.workspace next).IsCalm) :
    Turn R w (.workspace p) o [] (.call inner (.workspace next), w') := by
  refine .call h (follows_of_workspace aside fun h => (harmless h).1)
    (follows_of_workspace rfl fun h => (harmless h).2) (fun c hc => ?_) calm
  rcases hc with hc | hc
  · rw [names] at hc
    cases hc
  · cases hc

theorem yields_ofText (document : String) : Yields (fun _ => True) (Uri.ofText document) := by
  unfold Uri.ofText
  split
  · trivial
  · refine yields_map ?_
    unfold FilePath.expandHome
    split
    · split
      · trivial
      · exact calm_error (by simp)
    · trivial

theorem yields_owner? (uri : String) (ws : Workspace) : Yields (fun _ => True) (ws.owner? uri) := by
  unfold Workspace.owner?
  split
  · trivial
  · exact yields_map (yields_map (yields_ofText uri))

theorem yields_relayFor (uri : String) (w : World) : Yields (fun _ => True) (w.relayFor uri) :=
  yields_map (yields_owner? uri w.workspace)

theorem calm_of_yields {α : Type} {good : α → Prop} {x : Except Failure α} {e : Failure}
    (h : Yields good x) (same : x = .error e) : Calm (.error e) := by
  rwa [same] at h

theorem activate_turn (documents : List Document) (bindError : Option String) (r : Result)
    (w : World) : Turn R w (.workspace (.activate documents bindError)) (.ok r) []
      (w.activate documents bindError) := by
  unfold activate
  dsimp only
  split
  · exact goto_turn (.refl w) rfl rfl trivial (fun h => nomatch h)
  · split
    · exact .pause (.refl w) (follows_of_workspace rfl (fun h => nomatch h)) rfl fun _ => trivial
    · exact goto_turn (quiet_setBridge _ w) rfl rfl trivial (fun h => nomatch h)

theorem openDocument_turn (d : Document) (r : Result) (w : World) :
    Turn R w (.workspace (.open d)) (.ok r) [] (w.openDocument d) := by
  unfold openDocument
  split
  · exact .done (.refl w) fun _ => calm_ok _
  · split
    · next same => exact .fail (.refl w) fun _ => calm_of_yields (yields_owner? _ _) same
    · exact goto_turn (.refl w) rfl rfl trivial (fun h => nomatch h)

theorem startEach_turn (roots : List Root) (seen : List String) (started : List SessionId)
    (h : (Frame.workspace p).isHarmless = false) (w : World) :
    Turn R w (.workspace p) o [] (w.startEach roots seen started) := by
  have never : (Frame.workspace p).isHarmless ≠ true := by simp [h]
  unfold startEach
  split
  · exact .done (.refl w) fun _ => calm_ok _
  · dsimp only
    split
    · exact goto_turn (.refl w) rfl rfl trivial fun h => absurd h never
    · exact call_turn (.refl w) rfl rfl (fun h => absurd h never) fun _ => ⟨trivial, trivial⟩

theorem closeEach_turn {relays : List RelayId} (r : Result)
    (reaches : w.Reaches (.workspace (.closeEach relays)) R) :
    Turn R w (.workspace (.closeEach relays)) (.ok r) [] (w.closeEach relays) := by
  cases relays with
  | cons relay rest =>
    exact call_turn (.refl w) rfl rfl (fun h => nomatch h) fun _ => ⟨trivial, trivial⟩
  | nil =>
    exact giveUp_turn rfl reaches.inside (fun t ht => reaches.refers t (.report ht))
      (follows_of_workspace rfl (fun h => nomatch h)) rfl trivial

theorem deactivate_turn (r : Result) (w : World) :
    Turn R w (.workspace .deactivate) (.ok r) [] w.deactivate := by
  unfold deactivate
  split
  · exact .pause (quiet_setBridge _ w) (follows_of_workspace rfl (fun h => nomatch h)) rfl
      fun _ => trivial
  · exact goto_turn (.refl w) rfl rfl trivial (fun h => nomatch h)

theorem changeFolders_turn (added removed : List Root) (r : Result) (w : World) :
    Turn R w (.workspace (.changeFolders added removed)) (.ok r) []
      (w.changeFolders added removed) := by
  cases removed with
  | nil => exact .finish (quiet_noteWorkspace (fun _ => by rfl) (fun _ => by rfl) w)
  | cons root rest =>
    have removed : Quiet (w.Answers (.workspace (.changeFolders added (root :: rest)))) R [] w
        (w.setWorkspace fun ws => { ws with resolver := ws.resolver.remove root }) :=
      quiet_noteWorkspace (fun _ => by rfl) (fun _ => by rfl) w
    unfold changeFolders
    dsimp only
    split
    · refine call_turn (removed.trans ?_) rfl rfl (fun h => nomatch h) fun _ => ⟨trivial, trivial⟩
      exact quiet_noteWorkspace (fun _ => by rfl) (fun _ => by rfl) _
    · exact goto_turn removed rfl rfl trivial (fun h => nomatch h)

theorem showView_turn (v : View) (r : Result) (w : World) :
    Turn R w (.workspace (.show v)) (.ok r) [] (w.showView v) := by
  have shown : Quiet (w.Answers (.workspace (.show v))) R [] w
      (w.setWorkspace fun ws => { ws with views := Views.put v ws.views }) :=
    quiet_noteWorkspace (fun _ => by rfl) (fun _ => by rfl) w
  unfold showView
  dsimp only
  split
  · exact .done (.refl w) fun _ => calm_ok _
  · split
    · next same => exact .fail shown fun _ => calm_of_yields (yields_relayFor _ _) same
    · exact .done shown fun _ => calm_ok _
    · exact goto_turn shown rfl rfl trivial fun _ => rfl

theorem quiet_forgetView (uri : String) (w : World) : Quiet A R [] w (w.forgetView uri) := by
  have forgot : Quiet A R [] w
      (w.setWorkspace fun ws => { ws with views := Views.forget uri ws.views }) :=
    quiet_noteWorkspace (fun _ => by rfl) (fun _ => by rfl) w
  exact forgot.trans (.foldl (fun e _ w => quiet_setRelay e.2 (fun _ => by rfl) w) _)

theorem clickStatus_turn (uri : Option String) (r : Result) (w : World) :
    Turn R w (.workspace (.click uri)) (.ok r) [] (w.clickStatus uri) := by
  unfold clickStatus
  dsimp only
  split
  · next e same =>
    refine .fail (.refl w) fun _ => ?_
    cases uri with
    | none => cases same
    | some uri => exact calm_of_yields (yields_relayFor uri w) same
  · exact .finish (.refl w)
  · exact goto_turn (.refl w) rfl rfl trivial fun _ => rfl

theorem reportEach_turn (r : RelayId) (views : List View) (v : Result) (w : World) :
    Turn R w (.workspace (.reportEach r views)) (.ok v) [] (w.reportEach r views) := by
  cases views with
  | nil => exact .finish (.refl w)
  | cons view rest =>
    unfold reportEach
    dsimp only
    split
    · next same => exact .fail (.refl w) fun _ => calm_of_yields (yields_relayFor _ _) same
    · split
      · exact call_turn (.refl w) rfl rfl (fun _ => ⟨rfl, rfl⟩) fun _ => ⟨trivial, trivial⟩
      · exact goto_turn (.refl w) rfl rfl trivial fun _ => rfl

theorem serveOn_turn (h : (Frame.workspace p).isHarmless = false) (w : World) :
    Turn R w (.workspace p) o [] w.serveOn :=
  .await (quiet_newCell w) (.inr (.inr (made_newCell w)))
    (follows_of_workspace rfl fun same => by simp [h] at same) (fun _ hd => nomatch hd)
    fun _ => trivial

theorem yields_read (request : Bridge.Request) : Yields (fun _ => True) (Bridge.read request) := by
  unfold Bridge.read
  split
  · trivial
  · split
    · exact calm_error (by simp)
    · split <;> trivial

theorem forward_turn (q : Bridge.Payload) (h : (Frame.workspace p).isHarmless = false) (w : World) :
    Turn R w (.workspace p) o [] (w.forward q) := by
  unfold forward
  split
  · exact .done (quiet_showError _ w) fun _ => calm_ok _
  · exact call_turn (.refl w) rfl rfl (fun same => by simp [h] at same) fun _ => ⟨trivial, trivial⟩

theorem receive_turn (request : Bridge.Request) (r : Result) (w : World) :
    Turn R w (.workspace (.receive request)) (.ok r) [] (w.receive request) := by
  unfold receive
  split
  · exact .done (.refl w) fun _ => calm_ok _
  · exact .done (.refl w) fun _ => calm_ok _
  · split
    · exact .done (.refl w) fun _ => calm_ok _
    · split
      · next same => exact .fail (.refl w) fun _ => calm_of_yields (yields_read request) same
      · exact .done (.refl w) fun _ => calm_ok _
      · exact forward_turn _ rfl w

theorem forwarded_turn (q : Bridge.Payload) (w : World) :
    Turn R w (.workspace (.forwarded q)) o [] (w.forwarded q o) := by
  unfold forwarded
  split
  · exact .done (quiet_setBridge _ w) fun _ => calm_ok _
  · split
    · exact .done (quiet_showError _ w) fun _ => calm_ok _
    · exact .fail_on w

theorem resumeWorkspace_turn (p : Workspace.Stage) (o : Outcome Result) {w : World}
    (reaches : w.Reaches (.workspace p) R) :
    Turn R w (.workspace p) o [] (w.resumeWorkspace p o) := by
  cases p with
  | activate documents bindError =>
    cases o with
    | error e => exact .fail_on w
    | ok r => exact activate_turn documents bindError r w
  | bindFailed documents text =>
    cases o with
    | error e => exact .fail_on w
    | ok r => exact goto_turn (quiet_showError _ w) rfl rfl trivial (fun h => nomatch h)
  | openEach documents =>
    cases o with
    | error e => exact .fail_on w
    | ok r =>
      cases documents with
      | nil => exact .finish (.refl w)
      | cons d rest =>
        exact call_turn (.refl w) rfl rfl (fun h => nomatch h) fun _ => ⟨trivial, trivial⟩
  | «open» d =>
    cases o with
    | error e => exact .fail_on w
    | ok r => exact openDocument_turn d r w
  | startAll =>
    cases o with
    | error e => exact .fail_on w
    | ok r =>
      exact goto_turn (quiet_noteWorkspace (fun _ => by rfl) (fun _ => by rfl) w) rfl rfl trivial
        (fun h => nomatch h)
  | startEach roots seen started =>
    cases o with
    | error e => exact .fail_on w
    | ok r => exact startEach_turn roots seen started rfl w
  | startedOne roots seen started =>
    cases o with
    | error e => exact .fail_on w
    | ok r =>
      cases r with
      | session found =>
        cases found with
        | none => exact startEach_turn roots seen started rfl w
        | some s => exact startEach_turn roots seen (started ++ [s]) rfl w
      | _ => exact startEach_turn roots seen started rfl w
  | deactivate =>
    cases o with
    | error e => exact .fail_on w
    | ok r => exact deactivate_turn r w
  | bridgeStopped =>
    cases o with
    | error e => exact .fail_on w
    | ok r =>
      exact goto_turn (quiet_noteWorkspace (fun _ => by rfl) (fun _ => by rfl) w) rfl rfl trivial
        (fun h => nomatch h)
  | closeEach relays =>
    cases o with
    | error e => exact .fail_on w
    | ok r => exact closeEach_turn r reaches
  | reportsStopped =>
    cases o with
    | error e => exact .fail_on w
    | ok r => exact goto_turn (.refl w) rfl rfl trivial (fun h => nomatch h)
  | changeFolders added removed =>
    cases o with
    | error e => exact .fail_on w
    | ok r => exact changeFolders_turn added removed r w
  | folderClosed root added removed =>
    cases o with
    | error e => exact .fail_on w
    | ok r => exact call_turn (.refl w) rfl rfl (fun h => nomatch h) fun _ => ⟨trivial, trivial⟩
  | «show» v =>
    cases o with
    | error e => exact .fail_on w
    | ok r => exact showView_turn v r w
  | showAll views =>
    cases o with
    | error e => exact .fail_on w
    | ok r =>
      exact goto_turn (.foldl (fun uri _ w => quiet_forgetView uri w) w) rfl rfl trivial
        (fun h => nomatch h)
  | showEach views =>
    cases o with
    | error e => cases views <;> exact .fail_on w
    | ok r =>
      cases views with
      | nil => exact .finish (.refl w)
      | cons v rest =>
        exact call_turn (.refl w) rfl rfl (fun h => nomatch h) fun _ => ⟨trivial, trivial⟩
  | click uri =>
    cases o with
    | error e => exact .fail_on w
    | ok r => exact clickStatus_turn uri r w
  | reportAll r =>
    cases o with
    | error e => exact .fail_on w
    | ok v => exact goto_turn (.refl w) rfl rfl trivial fun _ => rfl
  | reportEach r views =>
    cases o with
    | error e => exact .fail_on w
    | ok v => exact reportEach_turn r views v w
  | serve =>
    cases o with
    | error e => exact .fail_on w
    | ok r => exact call_turn (.refl w) rfl rfl (fun h => nomatch h) fun _ => ⟨trivial, trivial⟩
  | serving =>
    cases o with
    | error e => exact .fail_on w
    | ok r => exact call_turn (.refl w) rfl rfl (fun h => nomatch h) fun _ => ⟨trivial, trivial⟩
  | allStarted =>
    cases o with
    | error e =>
      exact call_turn (.refl w) rfl rfl (fun h => nomatch h) fun easy => ⟨trivial, easy.outcome⟩
    | ok r =>
      have none_ : Turn R w (.workspace .allStarted) (.ok r) []
          (if w.workspace.resolver.roots.isEmpty then
            (.call (.roster (.ensure none)) (.workspace .defaultStarted), w)
          else w.serveOn) := by
        split
        · exact call_turn (.refl w) rfl rfl (fun h => nomatch h) fun _ => ⟨trivial, trivial⟩
        · exact serveOn_turn rfl w
      cases r with
      | sessions ss =>
        cases ss with
        | nil => exact none_
        | cons s ss => exact serveOn_turn rfl w
      | _ => exact serveOn_turn rfl w
  | defaultStarted =>
    cases o with
    | error e =>
      exact call_turn (.refl w) rfl rfl (fun h => nomatch h) fun easy => ⟨trivial, easy.outcome⟩
    | ok r => exact serveOn_turn rfl w
  | leave o' =>
    cases o with
    | error e => exact .fail_on w
    | ok r =>
      refine call_turn (.refl w) rfl rfl (fun h => nomatch h) fun easy => ⟨trivial, ?_⟩
      cases o' with
      | ok => trivial
      | error e => exact easy.frame
  | left o' =>
    cases o with
    | error e => cases o' <;> exact .fail_on w
    | ok r =>
      cases o' with
      | ok => exact .finish (.refl w)
      | error e => exact .fail (.refl w) fun easy => easy.frame
  | receive request =>
    cases o with
    | error e => exact .fail_on w
    | ok r => exact receive_turn request r w
  | forwarded q => exact forwarded_turn q w

end LanguageClient.World
