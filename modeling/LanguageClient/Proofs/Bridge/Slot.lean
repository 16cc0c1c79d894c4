import LanguageClient.Proofs.Workspace.Ranges

/-!
The slot of the bridge. Only a forward that has gone well fills it, so at any time it holds the snapshot
whose forward was the last to end well, and nothing if there was none.
-/

namespace LanguageClient

open Schedule

theorem Workspace.last_of_make {config : Config} {settings : Settings} {roots : List Root}
    {launcher : Roster.Launcher} {w : Workspace} (h : make config settings roots launcher = .ok w) :
    w.bridge.last = none := by
  unfold make at h
  cases port : settings.bridgePort with
  | error e =>
    rw [port] at h
    cases h
  | ok p =>
    rw [port] at h
    cases h
    rfl

namespace World

def bridge (w : World) : Bridge := w.workspace.bridge

theorem offstage_bridge : Offstage bridge where
  loop _ _ := rfl
  current _ _ := rfl
  backends _ _ := rfl
  plans _ _ := rfl
  connections _ _ := rfl
  sights _ _ := rfl
  sessions _ _ := rfl
  shell _ _ := rfl
  settings _ _ := rfl
  roster _ _ := rfl
  relay _ _ _ _ := rfl

theorem bridge_runHook (s : SessionId) (w : World) : (w.runHook s).bridge = w.bridge := by
  unfold runHook
  split <;> rfl

section Workspace

variable (w : World)

theorem bridge_openDocument (d : Document) : (w.openDocument d).2.bridge = w.bridge := by
  unfold openDocument
  split
  · rfl
  split <;> rfl

theorem bridge_startEach (roots : List Root) (seen : List String) (started : List SessionId) :
    (w.startEach roots seen started).2.bridge = w.bridge := by
  unfold startEach
  split
  · rfl
  · dsimp only
    split <;> rfl

theorem bridge_closeEach (relays : List RelayId) : (w.closeEach relays).2.bridge = w.bridge := by
  unfold closeEach
  split
  · rfl
  · dsimp only
    split
    · exact offstage_bridge.cancelAll w _
    · exact (offstage_bridge.gather _ _).trans (offstage_bridge.cancelAll w _)

theorem bridge_changeFolders (added removed : List Root) :
    (w.changeFolders added removed).2.bridge = w.bridge := by
  unfold changeFolders
  split
  · dsimp only
    split <;> rfl
  · rfl

theorem bridge_showView (v : View) : (w.showView v).2.bridge = w.bridge := by
  unfold showView
  split
  · rfl
  · dsimp only
    split <;> rfl

theorem bridge_forgetView (uri : String) : (w.forgetView uri).bridge = w.bridge := by
  refine foldl_reading (fun w e => ?_) _ _
  exact offstage_bridge.relay w e.2 (fun x => { x with views := Views.forget uri x.views }) fun _ => rfl

theorem bridge_showViews (views : List View) : (w.showViews views).2.bridge = w.bridge :=
  foldl_reading (fun w uri => bridge_forgetView w uri) _ w

theorem bridge_clickStatus (uri : Option String) : (w.clickStatus uri).2.bridge = w.bridge := by
  unfold clickStatus
  dsimp only
  split <;> rfl

theorem bridge_reportEach (r : RelayId) (views : List View) : (w.reportEach r views).2.bridge = w.bridge := by
  unfold reportEach
  split
  · rfl
  split
  · rfl
  split <;> rfl

theorem bridge_forward (p : Bridge.Payload) : (w.forward p).2.bridge = w.bridge := by
  unfold forward
  split <;> rfl

theorem bridge_receive (request : Bridge.Request) : (w.receive request).2.bridge = w.bridge := by
  unfold receive
  split
  · rfl
  · rfl
  split
  · rfl
  split
  · rfl
  · rfl
  · exact bridge_forward w _

end Workspace

/-- What is accepted by a step at a place. -/
def accepted? : Frame → Outcome Result → Option Bridge.Payload
  | .workspace (.forwarded p), .ok _ => some p
  | _, _ => none

/-- What a step does about the bridge: it is turned on or off, and a snapshot may come into its slot. -/
def Tends (w : World) (accepted : Option Bridge.Payload) (w' : World) : Prop :=
  ∃ running, w'.bridge = { w.bridge with running := running, last := accepted.or w.bridge.last }

theorem Tends.of_eq {w w' : World} (same : w'.bridge = w.bridge) : Tends w none w' :=
  ⟨w.bridge.running, same⟩

theorem tends_activate (documents : List Document) (bindError : Option String) (w : World) :
    Tends w none (w.activate documents bindError).2 := by
  unfold activate
  dsimp only
  split
  · exact .of_eq rfl
  split
  · exact .of_eq rfl
  · exact ⟨true, rfl⟩

theorem tends_deactivate (w : World) : Tends w none w.deactivate.2 := by
  unfold deactivate
  split
  · exact ⟨false, rfl⟩
  · exact .of_eq rfl

/-- A forward that has gone well fills the slot; one that has failed does not. -/
theorem tends_forwarded (p : Bridge.Payload) (o : Outcome Result) (w : World) :
    Tends w (accepted? (.workspace (.forwarded p)) o) (w.forwarded p o).2 := by
  cases o with
  | ok r => exact ⟨w.bridge.running, rfl⟩
  | error e =>
    unfold forwarded
    dsimp only
    split <;> exact .of_eq rfl

theorem tends_resumeWorkspace (p : Workspace.Stage) (o : Outcome Result) (w : World) :
    Tends w (accepted? (.workspace p) o) (w.resumeWorkspace p o).2 := by
  unfold resumeWorkspace
  split
  · exact tends_activate _ _ w
  · exact .of_eq rfl
  · refine .of_eq ?_
    unfold openEach
    split <;> rfl
  · exact .of_eq (bridge_openDocument w _)
  · exact .of_eq rfl
  · exact .of_eq (bridge_startEach w _ _ _)
  · exact .of_eq (bridge_startEach w _ _ _)
  · exact .of_eq (bridge_startEach w _ _ _)
  · exact tends_deactivate w
  · exact .of_eq rfl
  · exact .of_eq (bridge_closeEach w _)
  · exact .of_eq rfl
  · exact .of_eq (bridge_changeFolders w _ _)
  · exact .of_eq rfl
  · exact .of_eq (bridge_showView w _)
  · exact .of_eq (bridge_showViews w _)
  · exact .of_eq rfl
  · exact .of_eq rfl
  · exact .of_eq (bridge_clickStatus w _)
  · exact .of_eq rfl
  · exact .of_eq (bridge_reportEach w _ _)
  · exact .of_eq rfl
  · exact .of_eq rfl
  · split <;> exact .of_eq rfl
  · exact .of_eq rfl
  · exact .of_eq rfl
  · exact .of_eq rfl
  · exact .of_eq rfl
  · exact .of_eq rfl
  · exact .of_eq rfl
  · exact .of_eq rfl
  · exact .of_eq (bridge_receive w _)
  · exact tends_forwarded _ _ w
  · cases p <;> exact .of_eq rfl

/-- Only a forward that goes well changes the slot. -/
theorem tends_resume (t : TaskId) (f : Frame) (o : Outcome Result) (w : World) :
    Tends w (accepted? f o) (w.resume t f o).2 := by
  cases f with
  | wait p => exact .of_eq (offstage_bridge.resumeWait t w p o)
  | pass => exact .of_eq rfl
  | connection k p => exact .of_eq (offstage_bridge.resumeConnection k w o p)
  | session s p => exact .of_eq (offstage_bridge.resumeSession s w o p)
  | relay r p => exact .of_eq (offstage_bridge.resumeRelay r w o p)
  | roster p => exact .of_eq (offstage_bridge.resumeRoster w o bridge_runHook p)
  | workspace p => exact tends_resumeWorkspace p o w

theorem bridge_take (a : Act) (w : World) : (w.take a).bridge = w.bridge := by
  cases a with
  | backend b d =>
    rw [take]
    split
    · exact offstage_bridge.carryOut b w d
    · rfl
  | kill s => exact offstage_bridge.killSession s w
  | _ => rfl

end World

namespace Moment

open World

variable {may : Frame → Prop} {R : CellId → Prop} {m : Moment} {w' : World}

/-- The snapshot that is accepted at a moment. -/
def accepted? (m : Moment) : Option Bridge.Payload := m.top?.bind fun top => World.accepted? top.1 top.2

theorem accepted?_eq_some {p : Bridge.Payload} :
    m.accepted? = some p ↔ ∃ t r rest, m.Runs t (.workspace (.forwarded p)) (.ok r) rest := by
  constructor
  · intro h
    obtain ⟨⟨f, o⟩, top, accepts⟩ := Option.bind_eq_some_iff.1 h
    obtain ⟨⟨t, o'⟩, runs, top⟩ := Option.bind_eq_some_iff.1 top
    obtain ⟨g, head, same⟩ := Option.map_eq_some_iff.1 top
    obtain ⟨rest, stack⟩ := List.head?_eq_some_iff.1 head
    obtain ⟨rfl, rfl⟩ := Prod.mk.inj same
    dsimp only at accepts
    unfold World.accepted? at accepts
    split at accepts
    · cases accepts
      exact ⟨t, _, rest, runs, stack⟩
    · cases accepts
  · rintro ⟨t, r, rest, runs, top⟩
    rw [accepted?, top?_of_runs runs top]
    rfl

theorem Goes.tends (goes : m.Goes w') (moves : Moves may R m.world w') :
    Tends m.world m.accepted? w' := by
  have heed (n : Notice) (w : World) : (w.heed n).bridge = w.bridge := by cases n <;> rfl
  rcases goes.cases moves offstage_bridge.toSteady heed bridge_take with
    ⟨idle, same⟩ | ⟨-, t, f, o, rest, begun, flow, w₂, strides⟩
  · rw [accepted?, idle]
    exact .of_eq same
  · have landed : w'.bridge = w₂.bridge := by
      rw [strides.lands.aside.same]
      rfl
    obtain ⟨running, made⟩ := tends_resume t f o { m.world with current := none }
    rw [strides.steps] at made
    rw [accepted?, top?_of_runs strides.runs strides.top]
    exact ⟨running, landed.trans made⟩

end Moment

namespace World

variable {config : Config} {settings : Settings} {roots : List Root} {launcher : Roster.Launcher}
variable {ws : Workspace} {shell : Shell} {plans : List Backend.Plan} {ms : List Moment} {w : World}

/-- The slot holds what has been accepted last; the limit of a body and the port stay as they are. -/
theorem bridge_eq (made : Workspace.make config settings roots launcher = .ok ws)
    (path : Path (start ws shell plans) ms w)
    (listens : ∀ a ∈ acts ms, ∀ k owner, a ≠ .listen k owner) :
    ∃ running, w.bridge = { ws.bridge with
      running := running
      last := (ms.filterMap Moment.accepted?).getLast? } := by
  obtain ⟨-, -, -, reports⟩ := Workspace.of_make made
  refine path.keeps (I := fun ms w => (∀ a ∈ acts ms, ∀ k owner, a ≠ .listen k owner) →
    ∃ running, w.bridge = { ws.bridge with
      running := running
      last := (ms.filterMap Moment.accepted?).getLast? }) (fun _ => ?_) (fun ms m w' path ih goes all => ?_)
    listens
  · refine ⟨ws.bridge.running, ?_⟩
    have empty : ws.bridge.last = none := Workspace.last_of_make made
    show ws.bridge = { ws.bridge with last := none }
    rw [← empty]
  · rw [acts_next] at all
    have before := fun a ha => all a (List.mem_append_left _ ha)
    have sound := path.sound (unused_start reports).sound before
    have moves := goes.kept sound fun a ha => all a (List.mem_append_right _ (by simp [ha]))
    obtain ⟨was, known⟩ := ih before
    obtain ⟨running, tended⟩ := goes.tends moves
    refine ⟨running, tended.trans ?_⟩
    rw [known, List.filterMap_append]
    cases accepts : m.accepted? <;> simp [accepts]

end World
end LanguageClient
