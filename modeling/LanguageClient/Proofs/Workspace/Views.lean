import LanguageClient.Proofs.Client.Leads
import LanguageClient.Proofs.Workspace.Desk

/-!
What a step does about views, said once for all places: a view is noted, handed on, told to a
backend, or left alone.
-/

namespace LanguageClient

open Schedule

namespace Frame

/-- The views that are still to be shown or told. -/
def views : Frame → List View
  | .relay _ (.report v) | .workspace (.show v) => [v]
  | .workspace (.showAll views) | .workspace (.showEach views) => views
  | .workspace (.reportEach _ views) => views
  | _ => []

/-- Tells a backend what is visible, or is about to. -/
def tells : Frame → Bool
  | .relay _ (.report _) => true
  | .roster (.notify _ method _) | .session _ (.notify method _) => method = didChangeVisibleRanges
  | .connection _ (.notify method _) | .connection _ (.request method _ _) =>
    method = didChangeVisibleRanges
  | _ => false

/-- Has to do with no view. -/
def isBlank (f : Frame) : Bool := f.views.isEmpty && !f.tells

theorem views_of_blank {f : Frame} (h : f.isBlank = true) : f.views = [] :=
  List.isEmpty_iff.1 (Bool.and_eq_true_iff.1 h).1

theorem tells_of_blank {f : Frame} (h : f.isBlank = true) : f.tells = false :=
  by simpa using (Bool.and_eq_true_iff.1 h).2

end Frame

namespace World

/-- What a step does about views: it goes on with those it has been given or the desk holds, tells
one of them, or changes the desk. -/
inductive Handles (w : World) : Frame → Outcome Result → Flow Frame Result → Desk → Prop
  | carries {f : Frame} {o : Outcome Result} {flow : Flow Frame Result}
    (views : ∀ g ∈ flow.frames, ∀ v ∈ g.views, v ∈ f.views ∨ ∃ e ∈ w.desk.views, e.2 = v)
    (tells : ∀ g ∈ flow.frames, g.tells = false) : Handles w f o flow w.desk
  | passes {s : SessionId} {k : ConnectionId} {method : String} {params : Value} {x : Result}
    (ready : (w.session s).state = .ready) (connected : (w.session s).connection = some k) :
    Handles w (.session s (.notify method params)) (.ok x)
      (.call (.connection k (.notify method params)) (.session s (.notified method))) w.desk
  | hands {root : Option Root} {s : SessionId} {method : String} {params : Value} {x : Result} :
    Handles w (.roster (.notify root method params)) (.ok x)
      (.goto (.session s (.notify method params))) w.desk
  | relays {r : RelayId} {v : View} {x : Result} :
    Handles w (.relay r (.report v)) (.ok x)
      (.call
        (.session (w.relay r).session (.notify didChangeVisibleRanges
          (rangesParams v (Range.coalesce v.ranges v.lineCount Range.margin))))
        (.relay r (.reported (Range.coalesce v.ranges v.lineCount Range.margin)))) w.desk
  | reports {r : RelayId} {v : View} {rest : List View} {x : Result}
    (found : w.relayFor v.uri = .ok (some r)) :
    Handles w (.workspace (.reportEach r (v :: rest))) (.ok x)
      (.call (.relay r (.report v)) (.workspace (.reportEach r rest))) w.desk
  | notes {v : View} {x : Result} {flow : Flow Frame Result}
    (flow_ : flow.frames = [] ∨
      ∃ r, w.relayFor v.uri = .ok (some r) ∧ flow = .goto (.relay r (.report v))) :
    Handles w (.workspace (.show v)) (.ok x) flow { w.desk with views := Views.put v w.desk.views }
  | forgets {views visible : List View} {kept : Views} {x : Result}
    (visible_ : ∀ v ∈ visible, v ∈ views) (kept_ : ∀ e ∈ kept, e ∈ w.desk.views) :
    Handles w (.workspace (.showAll views)) (.ok x) (.goto (.workspace (.showEach visible)))
      { w.desk with views := kept }
  | attaches {key : String} {s : SessionId} {x : Result} {o : Outcome Result}
    (ready : (w.session s).state = .ready) :
    Handles w (.roster (.sessionStarted key s)) (.ok x) (.done o)
      { w.desk with
        relays := Workspace.putRelay (w.session s).key w.desk.served.length w.desk.relays
        served := w.desk.served ++ [s] }
  | sorts {roots : List Root} {x : Result} :
    Handles w (.workspace .startAll) (.ok x) (.goto (.workspace (.startEach roots [] [])))
      { w.desk with resolver := w.desk.resolver.remember }
  | removes {root : Root} {added rest : List Root} {relays : List (String × RelayId)} {x : Result}
    {flow : Flow Frame Result} (relays_ : ∀ e ∈ relays, e ∈ w.desk.relays)
    (blank : ∀ g ∈ flow.frames, g.isBlank = true) :
    Handles w (.workspace (.changeFolders added (root :: rest))) (.ok x) flow
      { w.desk with resolver := w.desk.resolver.remove root, relays := relays }
  | adds {added : List Root} {x : Result} {o : Outcome Result} :
    Handles w (.workspace (.changeFolders added [])) (.ok x) (.done o)
      { w.desk with resolver := added.foldl (fun res root => res.add root) w.desk.resolver }
  | clears {x : Result} {relays : List RelayId} :
    Handles w (.workspace .bridgeStopped) (.ok x) (.goto (.workspace (.closeEach relays)))
      { w.desk with relays := [] }

variable {t : TaskId} {w w' : World} {f : Frame} {o : Outcome Result} {flow : Flow Frame Result}

theorem Handles.blank (h : ∀ g ∈ flow.frames, g.isBlank = true) : Handles w f o flow w.desk := by
  refine .carries (fun g hg v hv => ?_) fun g hg => Frame.tells_of_blank (h g hg)
  rw [Frame.views_of_blank (h g hg)] at hv
  cases hv

/-- A step of a client's task tells of views only what it has been asked to. -/
theorem Leads.handles (h : Leads t w w' f o flow) : Handles w f o flow w.desk := by
  have one {g : Frame} (hg : g.isBlank = true) : ∀ g' ∈ [g], g'.isBlank = true :=
    List.forall_mem_singleton.2 hg
  have two {g g' : Frame} (hg : g.isBlank = true) (hg' : g'.isBlank = true) :
      ∀ g'' ∈ [g, g'], g''.isBlank = true :=
    List.forall_mem_cons.2 ⟨hg, List.forall_mem_singleton.2 hg'⟩
  cases h with
  | tells ready connected => exact .passes ready connected
  | @serves k p q _ _ _ after flow_ =>
    have blank : (Frame.connection k q).isBlank = true := by cases q <;> first | rfl | cases after
    rcases flow_ with rfl | ⟨c, -, rfl⟩ <;> exact .blank (one blank)
  | stopsAnswers _ flow_ => rcases flow_ with rfl | ⟨c, rfl⟩ <;> exact .blank (one rfl)
  | launches _ flow_ => rcases flow_ with rfl | ⟨c, -, rfl⟩ <;> exact .blank (one rfl)
  | @takes s _ q _ _ _ after flow_ =>
    have blank : (Frame.session s q).isBlank = true := by rcases after with rfl | ⟨c, rfl⟩ <;> rfl
    rcases flow_ with rfl | rfl | ⟨c, -, rfl⟩
    · exact .blank fun _ hg => nomatch hg
    · exact .blank (one blank)
    · exact .blank (one blank)
  | unconnected _ stages =>
    rcases stages with ⟨-, rfl⟩ | ⟨-, rfl⟩ | ⟨_, -, rfl⟩ <;> exact .blank (one rfl)
  | watches _ _ stages =>
    rcases stages with ⟨-, rfl, -⟩ | ⟨-, rfl, -⟩ | ⟨-, rfl, -⟩ <;> exact .blank (two rfl rfl)
  | waits | guards | givesUp | stalls | flows | notes | closes | stopsReader | arrives | joins | stops
  | turns | insists | vacates | exits => exact .blank (one rfl)
  | requests | written | answers | connects | greets | abandons | readies | asks | dismisses
  | releases => exact .blank (two rfl rfl)
  | _ => exact .blank fun _ hg => nomatch hg

/-- A step that leaves the desk as it is, and has to do with no view after it. -/
theorem Handles.still {step : Step} (same : step.2.desk = w.desk)
    (blank : ∀ g ∈ step.1.frames, g.isBlank = true) : Handles w f o step.1 step.2.desk :=
  same ▸ .blank blank

theorem Handles.done {o' : Outcome Result} (same : w'.desk = w.desk) :
    Handles w f o (.done o') w'.desk :=
  same ▸ .blank fun _ hg => nomatch hg

theorem Handles.goto {g : Frame} (same : w'.desk = w.desk) (blank : g.isBlank = true) :
    Handles w f o (.goto g) w'.desk :=
  same ▸ .blank (List.forall_mem_singleton.2 blank)

theorem Handles.call {inner next : Frame} (same : w'.desk = w.desk) (first : inner.isBlank = true)
    (then_ : next.isBlank = true) : Handles w f o (.call inner next) w'.desk :=
  same ▸ .blank (List.forall_mem_cons.2 ⟨first, List.forall_mem_singleton.2 then_⟩)

theorem takeEvent_handles (s : SessionId) (r : RelayId) (w : World) :
    Handles w f o (w.takeEvent s (.relay r)).1 (w.takeEvent s (.relay r)).2.desk := by
  refine .still (offstage_desk.takeEvent s w _) ?_
  unfold takeEvent
  split
  · exact List.forall_mem_singleton.2 rfl
  · dsimp only
    split
    · cases ‹Session.Consumer.relay r = .recorder›
    · exact fun _ hg => nomatch hg
    · cases ‹Session.Consumer.relay r = .recorder›
    · exact List.forall_mem_cons.2 ⟨rfl, List.forall_mem_singleton.2 rfl⟩

theorem resumeSession_handles (s : SessionId) (p : Session.Stage) (o : Outcome Result) (w : World) :
    Handles w (.session s p) o (w.resumeSession s p o).1 (w.resumeSession s p o).2.desk := by
  by_cases client : (Frame.session s p).isClient = true
  · rw [offstage_desk.resumeSession]
    exact (resumeSession_leads (t := 0) s p o client).handles
  · cases p with
    | consume taker =>
      cases taker with
      | recorder => exact absurd rfl client
      | relay r =>
        cases o with
        | ok x => exact takeEvent_handles s r w
        | error e => exact .done rfl
    | consumeAwoken taker c =>
      cases taker with
      | recorder => exact absurd rfl client
      | relay r =>
        cases o with
        | ok x => exact .goto rfl rfl
        | error e => exact .done (offstage_desk.leaveTakers s c w)
    | _ => exact absurd rfl client

section Relay

variable (r : RelayId)

theorem dispatchAfter_handles (e : Event) (span : Nat) (same : w'.desk = w.desk) :
    Handles w f o (w'.dispatchAfter r e span).1 (w'.dispatchAfter r e span).2.desk := by
  cases span with
  | zero => exact .done ((offstage_desk.dispatchEvent r w' e).trans same)
  | succ span => exact .still same (List.forall_mem_singleton.2 rfl)

theorem reportView_handles (v : View) (x : Result) (w : World) :
    Handles w (.relay r (.report v)) (.ok x) (w.reportView r v).1 (w.reportView r v).2.desk := by
  have desk : (w.reportView r v).2.desk = w.desk := desk_setRelay r w fun _ => rfl
  have session : (((w.setRelay r fun y => { y with views := Views.put v y.views }).relay r).session) =
      (w.relay r).session := by
    rcases relay_setRelay r r (fun y => { y with views := Views.put v y.views }) w with
      same | ⟨-, same⟩ <;> rw [same]
  rw [desk, reportView]
  dsimp only
  rw [session]
  exact .relays

theorem resumeRelay_handles (p : Relay.Stage) (o : Outcome Result) (w : World) :
    Handles w (.relay r p) o (w.resumeRelay r p o).1 (w.resumeRelay r p o).2.desk := by
  unfold resumeRelay
  split
  · unfold relayEvent
    exact dispatchAfter_handles r _ _ (offstage_desk.spanOf r w _)
  · exact dispatchAfter_handles r _ _ rfl
  · unfold closeRelay
    split
    · exact .done rfl
    split
    · exact .done rfl
    · exact .still rfl (List.forall_mem_singleton.2 rfl)
  · exact .done rfl
  · exact .done rfl
  · exact reportView_handles r _ _ w
  · split
    · next same => exact .done (offstage_desk.shown _ _ same)
    · exact .done rfl
  · exact .call rfl rfl rfl
  · split
    · next same => exact .done (offstage_desk.shown _ _ same)
    · exact .done rfl
  · exact .done rfl

end Relay

section Roster

theorem reportLaunch_handles {e : Failure} (same : w'.desk = w.desk) :
    Handles w f o (w'.reportLaunch e).1 (w'.reportLaunch e).2.desk := by
  unfold reportLaunch
  split
  · exact .done same
  · exact .done same

theorem startEnsured_handles (root : Option Root) (same : w'.desk = w.desk) :
    let step : Step := match w'.createSession root with
      | (.error e, w) => w.reportLaunch e
      | (.ok s, w) => (.call (.session s .start) (.roster (.sessionStarted (Session.keyOf root) s)),
        w.setRoster (·.insert (Session.keyOf root) s))
    Handles w f o step.1 step.2.desk := by
  have made := (offstage_desk.createSession w' root).trans same
  dsimp only
  split
  · next created => exact reportLaunch_handles (by rwa [created] at made)
  · next created => exact .call (by rwa [created] at made) rfl rfl

theorem ensure_handles (root : Option Root) (w : World) :
    Handles w f o (w.ensure root).1 (w.ensure root).2.desk := by
  unfold ensure
  dsimp only
  split
  · split
    · exact .done rfl
    · exact startEnsured_handles root rfl
  · exact startEnsured_handles root rfl

theorem desk_addSessionRelay (s : SessionId) (w : World) :
    (w.addSessionRelay s).desk = { w.desk with
      relays := Workspace.putRelay (w.session s).key w.desk.served.length w.desk.relays
      served := w.desk.served ++ [s] } := by
  let x := Relay.make s [(Workspace.configCommand, .configure)] Workspace.statusClickCommand
  let w₁ := (w.addRelay x).2.setWorkspace fun ws =>
    { ws with relays := Workspace.putRelay (w.session s).key w.relays.length ws.relays }
  have count : w.desk.served.length = w.relays.length := List.length_map _
  have added : w₁.desk = { w.desk with
      relays := Workspace.putRelay (w.session s).key w.desk.served.length w.desk.relays
      served := w.desk.served ++ [s] } := by
    rw [count]
    simp [w₁, desk, addRelay, setWorkspace, x, Relay.make]
  have begun : (w₁.startRelay w.relays.length).desk = w₁.desk :=
    desk_setRelay _ _ fun _ => rfl
  have reported : (w.addSessionRelay s).desk = (w₁.startRelay w.relays.length).desk := rfl
  exact reported.trans (begun.trans added)

theorem sessionStarted_handles (key : String) (s : SessionId) (o : Outcome Result) (w : World) :
    Handles w (.roster (.sessionStarted key s)) o (w.sessionStarted key s o).1
      (w.sessionStarted key s o).2.desk := by
  unfold sessionStarted
  split
  · split
    · exact .done rfl
    · next ready =>
      have state : (w.session s).state = .ready := Decidable.not_not.1 ready
      dsimp only
      unfold runHook
      split
      · exact .done rfl
      · exact .done rfl
      · rw [desk_addSessionRelay]
        exact .attaches state
  · dsimp only
    split <;> exact reportLaunch_handles rfl
  · exact .done rfl

theorem stopAll_handles (timeout : Timeout) (w : World) :
    Handles w f o (w.stopAll timeout).1 (w.stopAll timeout).2.desk := by
  unfold stopAll
  dsimp only
  split
  · exact .done rfl
  · have spawned := offstage_desk.spawnStops
      (w.setRoster fun r => { r with sessions := [], lastStarted := none }) timeout w.roster.sessions
    cases timeout <;> exact .still spawned (List.forall_mem_singleton.2 rfl)

theorem killLate_handles (stops : List (TaskId × SessionId)) (same : w'.desk = w.desk) :
    Handles w f o (w'.killLate stops).1 (w'.killLate stops).2.desk := by
  have killed := (offstage_desk.killLate w' stops).trans same
  unfold killLate at killed ⊢
  dsimp only at killed ⊢
  split at killed
  · next none =>
    rw [if_pos none]
    exact .done killed
  · next late =>
    rw [if_neg late]
    exact .still killed (List.forall_mem_singleton.2 rfl)

theorem resumeRoster_handles (p : Roster.Stage) (o : Outcome Result) (w : World) :
    Handles w (.roster p) o (w.resumeRoster p o).1 (w.resumeRoster p o).2.desk := by
  unfold resumeRoster
  split
  · exact ensure_handles _ w
  · exact sessionStarted_handles _ _ _ w
  · unfold stopRoot
    dsimp only
    split
    · exact .done rfl
    · exact .goto rfl rfl
  · exact stopAll_handles _ w
  · dsimp only
    split
    · split <;> exact killLate_handles _ rfl
    · split <;> exact .done rfl
  · split
    · exact .hands
    · exact .done rfl
  · exact .done rfl

end Roster

section Workspace

theorem changeFolders_handles (added removed : List Root) (x : Result) (w : World) :
    Handles w (.workspace (.changeFolders added removed)) (.ok x) (w.changeFolders added removed).1
      (w.changeFolders added removed).2.desk := by
  cases removed with
  | nil => exact .adds
  | cons root rest =>
    unfold changeFolders
    dsimp only
    split
    · refine .removes (fun e he => (List.mem_filter.1 he).1) ?_
      exact List.forall_mem_cons.2 ⟨rfl, List.forall_mem_singleton.2 rfl⟩
    · exact .removes (fun _ he => he) (List.forall_mem_singleton.2 rfl)

theorem showView_handles (v : View) (x : Result) (w : World) :
    Handles w (.workspace (.show v)) (.ok x) (w.showView v).1 (w.showView v).2.desk := by
  unfold showView
  split
  · exact .done rfl
  · dsimp only
    split
    · exact .notes (.inl rfl)
    · exact .notes (.inl rfl)
    · next r found => exact .notes (.inr ⟨r, found, rfl⟩)

theorem desk_forgetView (uri : String) (w : World) :
    (w.forgetView uri).desk = { w.desk with views := Views.forget uri w.desk.views } := by
  refine foldl_reading (fun w e => ?_) _ _
  exact desk_setRelay e.2 w fun _ => rfl

theorem desk_forgetViews (gone : List String) (w : World) :
    ∃ kept : Views, (∀ e ∈ kept, e ∈ w.desk.views) ∧
      (gone.foldl (fun w uri => w.forgetView uri) w).desk = { w.desk with views := kept } := by
  induction gone generalizing w with
  | nil => exact ⟨_, fun _ he => he, rfl⟩
  | cons uri gone ih =>
    obtain ⟨kept, within, same⟩ := ih (w.forgetView uri)
    rw [desk_forgetView] at within same
    exact ⟨kept, fun e he => (List.mem_filter.1 (within e he)).1, same⟩

theorem showViews_handles (views : List View) (x : Result) (w : World) :
    Handles w (.workspace (.showAll views)) (.ok x) (w.showViews views).1
      (w.showViews views).2.desk := by
  let visible := views.filter fun v => w.workspace.accepts v.language v.uri
  obtain ⟨kept, within, same⟩ := desk_forgetViews
    ((w.workspace.views.map (·.1)).filter fun uri => !visible.any fun v => v.uri = uri) w
  have desk : (w.showViews views).2.desk = { w.desk with views := kept } := same
  rw [desk]
  exact .forgets (fun v hv => (List.mem_filter.1 hv).1) within

theorem reportEach_handles (r : RelayId) (views : List View) (x : Result) (w : World) :
    Handles w (.workspace (.reportEach r views)) (.ok x) (w.reportEach r views).1
      (w.reportEach r views).2.desk := by
  cases views with
  | nil => exact .done rfl
  | cons v rest =>
    rw [reportEach]
    split
    · exact .done rfl
    · next found known =>
      split
      · next same => exact .reports (same ▸ known)
      · refine .carries ?_ ?_
        · exact List.forall_mem_singleton.2 fun v' hv => .inl (List.mem_cons_of_mem v hv)
        · exact List.forall_mem_singleton.2 rfl

theorem activate_handles (documents : List Document) (bindError : Option String) (w : World) :
    Handles w f o (w.activate documents bindError).1 (w.activate documents bindError).2.desk := by
  unfold activate
  dsimp only
  split
  · exact .goto rfl rfl
  · split
    · exact .still rfl (List.forall_mem_singleton.2 rfl)
    · exact .goto rfl rfl

theorem openDocument_handles (d : Document) (w : World) :
    Handles w f o (w.openDocument d).1 (w.openDocument d).2.desk := by
  unfold openDocument
  split
  · exact .done rfl
  · split
    · exact .done rfl
    · exact .goto rfl rfl

theorem startEach_handles (roots : List Root) (seen : List String) (started : List SessionId)
    (w : World) : Handles w f o (w.startEach roots seen started).1
      (w.startEach roots seen started).2.desk := by
  unfold startEach
  split
  · exact .done rfl
  · dsimp only
    split
    · exact .goto rfl rfl
    · exact .call rfl rfl rfl

theorem closeEach_handles (relays : List RelayId) (w : World) :
    Handles w f o (w.closeEach relays).1 (w.closeEach relays).2.desk := by
  unfold closeEach
  split
  · exact .call rfl rfl rfl
  · dsimp only
    split
    · exact .goto (offstage_desk.cancelAll w _) rfl
    · exact .still (offstage_desk.cancelAll w _) (List.forall_mem_singleton.2 rfl)

theorem clickStatus_handles (uri : Option String) (w : World) :
    Handles w f o (w.clickStatus uri).1 (w.clickStatus uri).2.desk := by
  unfold clickStatus
  dsimp only
  split
  · exact .done rfl
  · exact .done rfl
  · exact .goto rfl rfl

theorem receive_handles (request : Bridge.Request) (w : World) :
    Handles w f o (w.receive request).1 (w.receive request).2.desk := by
  unfold receive
  split
  · exact .done rfl
  · exact .done rfl
  · split
    · exact .done rfl
    · split
      · exact .done rfl
      · exact .done rfl
      · unfold forward
        split
        · exact .done rfl
        · exact .call rfl rfl rfl

theorem resumeWorkspace_handles (p : Workspace.Stage) (o : Outcome Result) (w : World) :
    Handles w (.workspace p) o (w.resumeWorkspace p o).1 (w.resumeWorkspace p o).2.desk := by
  unfold resumeWorkspace
  split
  · exact activate_handles _ _ w
  · exact .goto rfl rfl
  · unfold openEach
    split
    · exact .done rfl
    · exact .call rfl rfl rfl
  · exact openDocument_handles _ w
  · exact .sorts
  · exact startEach_handles _ _ _ w
  · exact startEach_handles _ _ _ w
  · exact startEach_handles _ _ _ w
  · unfold deactivate
    split
    · exact .still rfl (List.forall_mem_singleton.2 rfl)
    · exact .goto rfl rfl
  · exact .clears
  · exact closeEach_handles _ w
  · exact .goto rfl rfl
  · exact changeFolders_handles _ _ _ w
  · exact .call rfl rfl rfl
  · exact showView_handles _ _ w
  · exact showViews_handles _ _ w
  · next v rest _ =>
    refine .carries ?_ ?_
    · refine List.forall_mem_cons.2 ⟨fun v' hv => .inl ?_, List.forall_mem_singleton.2 fun v' hv =>
        .inl (List.mem_cons_of_mem v hv)⟩
      exact List.mem_singleton.1 hv ▸ List.mem_cons_self
    · exact List.forall_mem_cons.2 ⟨rfl, List.forall_mem_singleton.2 rfl⟩
  · exact .done rfl
  · exact clickStatus_handles _ w
  · refine .carries ?_ (List.forall_mem_singleton.2 rfl)
    exact List.forall_mem_singleton.2 fun v hv => .inr (List.mem_map.1 hv)
  · exact reportEach_handles _ _ _ w
  · exact .call rfl rfl rfl
  · exact .call rfl rfl rfl
  · split
    · exact .call rfl rfl rfl
    · exact .still rfl (List.forall_mem_singleton.2 rfl)
  · exact .still rfl (List.forall_mem_singleton.2 rfl)
  · exact .still rfl (List.forall_mem_singleton.2 rfl)
  · exact .call rfl rfl rfl
  · exact .call rfl rfl rfl
  · exact .call rfl rfl rfl
  · exact .done rfl
  · exact .done rfl
  · exact receive_handles _ w
  · unfold forwarded
    split
    · exact .done rfl
    · split <;> exact .done rfl
  · exact .done rfl

end Workspace

theorem resume_handles (t : TaskId) (f : Frame) (o : Outcome Result) (w : World) :
    Handles w f o (w.resume t f o).1 (w.resume t f o).2.desk := by
  cases f with
  | wait p =>
    rw [resume, offstage_desk.resumeWait]
    exact (resumeWait_leads p o).handles
  | pass => exact .done rfl
  | connection k p =>
    rw [resume, offstage_desk.resumeConnection]
    exact (resumeConnection_leads (t := t) k p o).handles
  | session s p => exact resumeSession_handles s p o w
  | relay r p => exact resumeRelay_handles r p o w
  | roster p => exact resumeRoster_handles p o w
  | workspace p => exact resumeWorkspace_handles p o w

end World
end LanguageClient
