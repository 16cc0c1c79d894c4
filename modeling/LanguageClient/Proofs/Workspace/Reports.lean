import LanguageClient.Proofs.Roots.Registry
import LanguageClient.Proofs.Workspace.Views
import LanguageClient.Proofs.Workspace.Wiring

/-!
What backends are told is visible. A view is handed from the workspace to a relay, to its session and
to the connection of that in steps of one task with no other in between, so that what the workspace
has made sure of still holds when the backend is told.
-/

namespace LanguageClient

open Schedule

/-- The root that owns a document, among some that are registered. -/
def Workspace.ownerAmong (roots : List Root) (uri : String) : Except Failure (Option Root) :=
  if Uri.scheme uri ≠ "file" then .ok none else Resolver.resolve? uri ⟨roots, none⟩

/-- Leaves it to the roster to start sessions, and to the workspace to tell backends what is
visible. -/
def Act.leavesRanges : Act → Bool
  | .call (.startSession _) | .call (.report ..) | .listen .. => false
  | .call (.sendNotification _ method _) | .call (.sendRequest _ method _ _) =>
    method ≠ didChangeVisibleRanges
  | .call (.notifySession _ method _) | .call (.notify _ method _) =>
    method ≠ didChangeVisibleRanges
  | _ => true

/-- The views that a call shows. -/
def Call.views : Call → List View
  | .show v => [v]
  | .showAll views => views
  | _ => []

def Act.views : Act → List View
  | .call c => c.views
  | _ => []

namespace Act

variable {a : Act} {c : Call}

theorem listens_of_leaves (h : a.leavesRanges = true) (k : ConnectionId) (owner : Connection.Owner) :
    a ≠ .listen k owner := by
  rintro rfl
  cases h

theorem boots_of_leaves (h : (Act.call c).leavesRanges = true) : c.frame.boots = false := by
  cases c with
  | startSession => cases h
  | _ => rfl

theorem tells_of_leaves (h : (Act.call c).leavesRanges = true) : c.frame.tells = false := by
  cases c with
  | report => cases h
  | sendNotification | sendRequest | notifySession | notify =>
    simpa [leavesRanges, Call.frame, Frame.tells] using h
  | _ => rfl

theorem views_of_leaves (h : (Act.call c).leavesRanges = true) : c.frame.views = c.views := by
  cases c with
  | report => cases h
  | _ => rfl

end Act

namespace Workspace

theorem mem_putRelay {key : String} {r : RelayId} {relays : List (String × RelayId)}
    {e : String × RelayId} (h : e ∈ putRelay key r relays) : e = (key, r) ∨ e ∈ relays := by
  induction relays with
  | nil => exact .inl (List.mem_singleton.1 h)
  | cons e' rest ih =>
    rw [putRelay] at h
    split at h
    · exact (List.mem_cons.1 h).imp_right (List.mem_cons_of_mem e')
    · rcases List.mem_cons.1 h with rfl | h
      · exact .inr List.mem_cons_self
      · exact (ih h).imp_right (List.mem_cons_of_mem e')

theorem mem_of_relay? {key : String} {r : RelayId} {w : Workspace} (h : w.relay? key = some r) :
    (key, r) ∈ w.relays := mem_of_lookup h

end Workspace

theorem Views.mem_put {v : View} {views : Views} {e : String × View} (h : e ∈ put v views) :
    e = (v.uri, v) ∨ e ∈ views := by
  induction views with
  | nil => exact .inl (List.mem_singleton.1 h)
  | cons e' rest ih =>
    rw [put] at h
    split at h
    · exact (List.mem_cons.1 h).imp_right (List.mem_cons_of_mem e')
    · rcases List.mem_cons.1 h with rfl | h
      · exact .inr List.mem_cons_self
      · exact (ih h).imp_right (List.mem_cons_of_mem e')

namespace Desk

/-- The root that owns a document; documents without one go to the default session. -/
def owner? (uri : String) (d : Desk) : Except Failure (Option Root) :=
  if Uri.scheme uri ≠ "file" then .ok none else d.resolver.resolve? uri

/-- The session of a relay. -/
def session (r : RelayId) (d : Desk) : SessionId := d.served.getD r (default : Relay).session

/-- A view is of a document that belongs to a session. -/
def Concerns (d : Desk) (x : Core) (v : View) (s : SessionId) : Prop :=
  ∃ owner, d.owner? v.uri = .ok owner ∧ (x.session s).key = Session.keyOf owner

/-- What has been made sure of before a backend is told what is visible, from place to place. -/
def Due (known : View → Prop) (d : Desk) (x : Core) : Frame → Prop
  | .relay r (.report v) =>
    (x.session (d.session r)).state = .ready ∧ d.Concerns x v (d.session r)
  | .session s (.notify _ params) => (x.session s).state = .ready ∧
    ∃ v, known v ∧ params = World.rangesParams v (Range.coalesce v.ranges v.lineCount Range.margin) ∧
      d.Concerns x v s
  | .connection k (.notify _ params) => ∃ s, (x.session s).connection = some k ∧
    ∃ v, known v ∧ params = World.rangesParams v (Range.coalesce v.ranges v.lineCount Range.margin) ∧
      d.Concerns x v s
  | _ => False

end Desk

namespace World

variable {may : Frame → Prop} {R : CellId → Prop} {t u : TaskId} {w w' w₂ : World}
variable {f g : Frame} {rest begun : List Frame} {o : Outcome Result} {flow : Flow Frame Result}
variable {k : ConnectionId} {s : SessionId} {r : RelayId} {params : Value} {m : Moment}
variable {known : View → Prop} {ms : List Moment}

theorem desk_take (a : Act) (w : World) : (w.take a).desk = w.desk := by
  cases a with
  | backend b d =>
    rw [take]
    split
    · exact offstage_desk.carryOut b w d
    · rfl
  | kill s => exact offstage_desk.killSession s w
  | forget r uri => exact desk_setRelay r w fun _ => rfl
  | _ => rfl

theorem Handles.aside {current : Option (TaskId × Outcome Result)} {x : Desk}
    (h : Handles { w with current := current } f o flow x) : Handles w f o flow x := by
  cases h with
  | carries views tells => exact .carries views tells
  | passes ready connected => exact .passes ready connected
  | hands => exact .hands
  | relays => exact .relays
  | reports found => exact .reports found
  | notes flow_ => exact .notes flow_
  | forgets visible kept => exact .forgets visible kept
  | attaches ready => exact .attaches ready
  | sorts => exact .sorts
  | removes relays blank => exact .removes relays blank
  | adds => exact .adds
  | clears => exact .clears

theorem Strides.handles (strides : Strides R w w' t f o rest begun flow w₂) :
    Handles w f o flow w'.desk := by
  have handles := resume_handles t f o { w with current := none }
  rw [strides.steps] at handles
  have landed : w'.desk = w₂.desk := by
    rw [strides.lands.aside.same]
    rfl
  exact landed ▸ handles.aside

/-- The desk is changed by steps of tasks alone. -/
theorem desk_cases (goes : m.Goes w') (moves : Moves may R m.world w') :
    w'.desk = m.world.desk ∨ ∃ t f o rest begun flow w₂,
      Strides R m.world w' t f o rest begun flow w₂ :=
  (goes.cases moves offstage_desk.toSteady (fun n w => by cases n <;> rfl) desk_take).imp (·.2) (·.2)

theorem session_desk (r : RelayId) (w : World) : w.desk.session r = (w.relay r).session := by
  simp only [Desk.session, desk, relay, List.getD_eq_getElem?_getD, List.getElem?_map]
  cases w.relays[r]? <;> rfl

theorem key_core (s : SessionId) (w : World) : (w.core.session s).key = (w.session s).key :=
  congrArg Session.keyOf (root_core s w)

/-- Every relay is of a session with its key, which has been ready. -/
def Attached (d : Desk) (x : Core) : Prop :=
  ∀ key r, (key, r) ∈ d.relays → r < d.served.length ∧
    (x.session (d.session r)).state.buffers = false ∧ (x.session (d.session r)).key = key

/-- What holds while backends are told of views that are `known`. -/
structure Reporting (known : View → Prop) (w : World) : Prop where
  sound : w.Sound
  wired : w.Wired
  regular : w.desk.resolver.Regular
  attached : Attached w.desk w.core
  outbox : ∀ s, ∀ n ∈ (w.session s).outbox, n.1 ≠ didChangeVisibleRanges
  shown : ∀ e ∈ w.desk.views, known e.2
  views : ∀ t, ∀ f ∈ w.stack t, ∀ v ∈ f.views, known v
  /-- Whoever is about to tell a backend is at work, and has nobody to tell after that. -/
  due : ∀ t, ∀ f ∈ w.stack t, f.tells = true → (∃ x, w.current = some (t, .ok x)) ∧
    (∃ rest, w.stack t = f :: rest ∧ ∀ g ∈ rest, g.tells = false) ∧ w.desk.Due known w.core f

theorem relayFor_cases {uri : String} (h : w.relayFor uri = .ok (some r)) :
    ∃ owner, w.desk.owner? uri = .ok owner ∧ (Session.keyOf owner, r) ∈ w.desk.relays ∧
      ((w.session (w.relay r).session).state = .starting ∨
        (w.session (w.relay r).session).state = .ready) := by
  unfold relayFor at h
  cases owned : w.workspace.owner? uri with
  | error e =>
    rw [owned] at h
    cases h
  | ok owner =>
    rw [owned] at h
    have found := Except.ok.inj h
    dsimp only at found
    split at found
    · next r' listed =>
      split at found
      · next runs =>
        cases found
        refine ⟨owner, owned, Workspace.mem_of_relay? listed, ?_⟩
        unfold isRunning at runs
        simpa using (Bool.and_eq_true_iff.1 runs).1
      · cases found
    · cases found

namespace Reporting

/-- The relay that a view is told to serves the root that owns its document. -/
theorem concerns (h : w.Reporting known) {v : View} (found : w.relayFor v.uri = .ok (some r)) :
    (w.core.session (w.desk.session r)).state = .ready ∧
      w.desk.Concerns w.core v (w.desk.session r) := by
  obtain ⟨owner, owned, listed, state⟩ := relayFor_cases found
  obtain ⟨-, past, key⟩ := h.attached _ r listed
  refine ⟨?_, owner, owned, key⟩
  rw [← session_desk, ← state_core] at state
  rcases state with early | ready
  · rw [early] at past
    cases past
  · exact ready

/-- A step that has somebody tell a backend has made sure of what that needs. -/
theorem due_step (h : w.Reporting known) (strides : Strides R w w' t f o rest begun flow w₂)
    (hg : g ∈ flow.frames) (tells : g.tells = true) :
    (flow = .goto g ∨ ∃ next, flow = .call g next ∧ next.tells = false) ∧
      w'.desk.Due known w'.core g := by
  have top : f ∈ w.stack t := strides.top ▸ List.mem_cons_self
  have never {p : Prop} (h : g.tells = false) : p := by
    rw [h] at tells
    cases tells
  have change := strides.turn.change
  have landed : w'.core = w₂.core := strides.lands.aside.core
  have handles := strides.handles
  generalize w'.desk = d at handles
  rw [landed]
  generalize w₂.core = x at change
  cases handles with
  | carries _ none => exact never (none g hg)
  | @passes s k _ _ _ ready connected =>
    rcases List.mem_cons.1 hg with rfl | hg
    · obtain ⟨-, -, -, due⟩ := h.due t _ top tells
      have told := And.intro ((connected_core s w).trans connected) due
      refine ⟨.inr ⟨_, rfl, rfl⟩, s, ?_⟩
      cases change with
      | quiet => exact told
      | tells => exact told
      | closing closes => cases closes
    · exact never (List.mem_singleton.1 hg ▸ rfl)
  | hands =>
    cases List.mem_singleton.1 hg
    exact (h.due t _ top tells).2.2.elim
  | @relays r v =>
    rcases List.mem_cons.1 hg with rfl | hg
    · obtain ⟨-, -, ready, concerns⟩ := h.due t _ top rfl
      rw [session_desk] at ready concerns
      refine ⟨.inr ⟨_, rfl, rfl⟩, ?_⟩
      cases change with
      | quiet => exact ⟨ready, v, h.views t _ top v (List.mem_singleton_self v), rfl, concerns⟩
    · exact never (List.mem_singleton.1 hg ▸ rfl)
  | reports found =>
    rcases List.mem_cons.1 hg with rfl | hg
    · refine ⟨.inr ⟨_, rfl, rfl⟩, ?_⟩
      cases change with
      | quiet => exact h.concerns found
    · exact never (List.mem_singleton.1 hg ▸ rfl)
  | notes flow_ =>
    rcases flow_ with none | ⟨r, found, rfl⟩
    · rw [none] at hg
      cases hg
    · cases List.mem_singleton.1 hg
      refine ⟨.inl rfl, ?_⟩
      cases change with
      | quiet => exact h.concerns found
  | removes _ blank => exact never (Frame.tells_of_blank (blank g hg))
  | forgets | sorts | clears => exact never (List.mem_singleton.1 hg ▸ rfl)
  | attaches | adds => cases hg

end Reporting

end World
end LanguageClient
