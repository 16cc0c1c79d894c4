import LanguageClient.Proofs.Workspace.Reports
import LanguageClient.Proofs.World.Deliveries

/-!
Visible ranges reach the owner alone: whatever happens between the moment at which a view is noted and
the one at which a backend is told of it, the session that the backend belongs to has the key of the
root that owns the document then.
-/

namespace LanguageClient

open Schedule

theorem Frame.isBlank_of_errand {f : Frame} (h : f.isErrand = true) : f.isBlank = true := by
  cases f with
  | connection k p => cases p <;> first | rfl | cases h
  | session s p => cases p <;> first | rfl | cases h
  | workspace p => cases p <;> first | rfl | cases h
  | _ => cases h

theorem Workspace.of_make {config : Config} {settings : Settings} {roots : List Root}
    {launcher : Roster.Launcher} {w : Workspace} (h : make config settings roots launcher = .ok w) :
    w.resolver = .ofRoots roots ∧ w.relays = [] ∧ w.views = [] ∧ w.reports = [] := by
  unfold make at h
  cases port : settings.bridgePort with
  | error e =>
    rw [port] at h
    cases h
  | ok p =>
    rw [port] at h
    cases h
    exact ⟨rfl, rfl, rfl, rfl⟩

/-- The owner of a document is found by the roots that are registered. -/
theorem Desk.owner?_eq {d : Desk} (h : d.resolver.Current) (uri : String) :
    d.owner? uri = Workspace.ownerAmong d.resolver.roots uri := by
  rw [Desk.owner?, Workspace.ownerAmong, h.resolve? uri]

namespace Desk

variable (relays : List (String × RelayId)) (s : SessionId) {d : Desk}

theorem session_attach_self :
    session d.served.length { d with relays := relays, served := d.served ++ [s] } = s := by
  simp [session]

theorem session_attach {r : RelayId} (h : r < d.served.length) :
    session r { d with relays := relays, served := d.served ++ [s] } = d.session r := by
  simp [session, List.getD_eq_getElem?_getD, List.getElem?_append_left h]

end Desk

namespace World

variable {may : Frame → Prop} {R : CellId → Prop} {t u : TaskId} {w w' w₂ : World}
variable {f g : Frame} {rest begun : List Frame} {o : Outcome Result} {flow : Flow Frame Result}
variable {k : ConnectionId} {s : SessionId} {b : BackendId} {m : Moment} {d : Desk} {x : Core}
variable {known : View → Prop} {ms : List Moment}

theorem Change.begun_blank (h : Change w f o begun flow x) (g : Frame) (hg : g ∈ begun) :
    g.isBlank = true := by
  rcases h.begun_cases hg with errand | ⟨s, grace, rfl⟩ | ⟨s, limit, rfl⟩
  · exact Frame.isBlank_of_errand errand
  · rfl
  · rfl

section Handles

variable (handles : Handles w f o flow d)

include handles in
/-- A step goes on with views that have been shown. -/
theorem Handles.views (shown : ∀ e ∈ w.desk.views, known e.2) (mine : ∀ v ∈ f.views, known v) :
    ∀ g ∈ flow.frames, ∀ v ∈ g.views, known v := by
  have none {g : Frame} (h : g.views = []) : ∀ v ∈ g.views, known v := by
    rw [h]
    exact fun v hv => nomatch hv
  have two {g g' : Frame} (h : ∀ v ∈ g.views, known v) (h' : ∀ v ∈ g'.views, known v) :
      ∀ g'' ∈ [g, g'], ∀ v ∈ g''.views, known v :=
    List.forall_mem_cons.2 ⟨h, List.forall_mem_singleton.2 h'⟩
  cases handles with
  | carries views =>
    intro g hg v hv
    rcases views g hg v hv with old | ⟨e, he, rfl⟩
    · exact mine v old
    · exact shown e he
  | passes | relays => exact two (none rfl) (none rfl)
  | hands | sorts | clears => exact List.forall_mem_singleton.2 (none rfl)
  | reports =>
    have head := mine _ List.mem_cons_self
    exact two (List.forall_mem_singleton.2 head) fun v hv => mine v (List.mem_cons_of_mem _ hv)
  | notes flow_ =>
    rcases flow_ with ended | ⟨r, -, rfl⟩
    · rw [ended]
      exact fun g hg => nomatch hg
    · exact List.forall_mem_singleton.2 mine
  | forgets visible => exact List.forall_mem_singleton.2 fun v hv => mine v (visible v hv)
  | removes _ blank =>
    exact fun g hg => none (Frame.views_of_blank (blank g hg))
  | attaches | adds => exact fun g hg => nomatch hg

include handles in
theorem Handles.shown (shown : ∀ e ∈ w.desk.views, known e.2) (mine : ∀ v ∈ f.views, known v) :
    ∀ e ∈ d.views, known e.2 := by
  cases handles with
  | notes =>
    intro e he
    rcases Views.mem_put he with rfl | old
    · exact mine _ (List.mem_singleton_self _)
    · exact shown e old
  | forgets _ kept => exact fun e he => shown e (kept e he)
  | _ => exact shown

include handles in
theorem Handles.regular (h : w.desk.resolver.Regular) : d.resolver.Regular := by
  cases handles with
  | sorts => exact h.remember
  | removes => exact h.remove _
  | adds => exact h.adds _
  | _ => exact h

include handles in
/-- A relay is made for a session that is ready, and listed under its key. -/
theorem Handles.attached (h : Attached w.desk w.core) : Attached d w.core := by
  cases handles with
  | @attaches _ s _ _ ready =>
    intro key r listed
    have count : (w.desk.served ++ [s]).length = w.desk.served.length + 1 := List.length_append
    rcases Workspace.mem_putRelay listed with same | old
    · cases same
      refine ⟨count ▸ Nat.lt_succ_self _, ?_⟩
      rw [Desk.session_attach_self, state_core, ready]
      exact ⟨rfl, key_core s w⟩
    · obtain ⟨inside, past⟩ := h key r old
      refine ⟨count ▸ Nat.lt_succ_of_lt inside, ?_⟩
      rwa [Desk.session_attach _ _ inside]
  | removes relays => exact fun key r listed => h key r (relays _ listed)
  | clears => exact fun key r listed => nomatch listed
  | _ => exact h

end Handles

/-- The registry of roots stays regular. -/
theorem regular_move (h : m.world.desk.resolver.Regular) (goes : m.Goes w')
    (moves : Moves may R m.world w') : w'.desk.resolver.Regular := by
  rcases desk_cases goes moves with same | ⟨t, f, o, rest, begun, flow, w₂, strides⟩
  · exact same ▸ h
  · exact strides.handles.regular h

/-- What a session would tell its backend later is changed by notifications alone. -/
theorem Shifts.outbox {y : Session} (h : Shifts w s f o flow y) :
    y.outbox = (w.session s).outbox ∨ y.outbox = [] ∨ ∃ method params,
      f = .session s (.notify method params) ∧ (w.session s).state.buffers = true ∧
        y.outbox = (w.session s).outbox ++ [(method, params)] := by
  cases h with
  | same | starts | shuts | arrives | connects | abandons | joins => exact .inl (outbox_core s w)
  | fails | stops | loses | readies | drops => exact .inr (.inl rfl)
  | buffers early => exact .inr (.inr ⟨_, _, rfl, early, rfl⟩)

theorem lt_of_past (h : (w.session s).state.buffers = false) : s < w.sessions.length := by
  refine Nat.lt_of_not_le fun out => ?_
  rw [session, List.getD_eq_getElem?_getD, List.getElem?_eq_none out] at h
  cases h

theorem Attached.move (h : Attached d w.core) (m : Move may R w w') : Attached d w'.core := by
  intro key r listed
  obtain ⟨inside, past, known⟩ := h key r listed
  rw [state_core] at past
  rw [key_core] at known
  obtain ⟨-, past', root⟩ := m.session_aged (d.session r)
  refine ⟨inside, ?_, ?_⟩
  · rw [state_core]
    exact past' past
  · rw [key_core, Session.key, root (lt_of_past past)]
    exact known

namespace Reporting

section Moves

variable (h : m.world.Reporting known) (goes : m.Goes w') (moves : Moves may R m.world w')

include h in
theorem mine (strides : Strides R m.world w' t f o rest begun flow w₂) : ∀ v ∈ f.views, known v :=
  h.views t f (strides.top ▸ List.mem_cons_self)

include h goes moves

theorem attached_move : Attached w'.desk w'.core := by
  refine Attached.move ?_ moves.move
  rcases desk_cases goes moves with same | ⟨t, f, o, rest, begun, flow, w₂, strides⟩
  · exact same ▸ h.attached
  · exact strides.handles.attached h.attached

theorem shown_move : ∀ e ∈ w'.desk.views, known e.2 := by
  rcases desk_cases goes moves with same | ⟨t, f, o, rest, begun, flow, w₂, strides⟩
  · exact same ▸ h.shown
  · exact strides.handles.shown h.shown (h.mine strides)

omit goes

theorem outbox_move (s : SessionId) : ∀ n ∈ (w'.session s).outbox, n.1 ≠ didChangeVisibleRanges := by
  rw [← outbox_core]
  rcases moves.move.session_cases s with same | ⟨t, f, o, rest, begun, flow, w₂, strides, shifts⟩ |
    ⟨-, root, made⟩
  · rw [same, outbox_core]
    exact h.outbox s
  · rcases shifts.outbox with same | none | ⟨method, params, rfl, early, more⟩
    · rw [same]
      exact h.outbox s
    · rw [none]
      exact fun n hn => nomatch hn
    · rw [more]
      intro n hn
      rcases List.mem_append.1 hn with old | new
      · exact h.outbox s n old
      · cases List.mem_singleton.1 new
        intro told
        have top : Frame.session s (.notify method params) ∈ m.world.stack t :=
          strides.top ▸ List.mem_cons_self
        obtain ⟨-, -, ready, -⟩ := h.due t _ top (decide_eq_true told)
        rw [state_core] at ready
        rw [ready] at early
        cases early
  · rw [made]
    exact fun n hn => nomatch hn

theorem views_move (first : ∀ g, may g → ∀ v ∈ g.views, known v) :
    ∀ u, ∀ g ∈ w'.stack u, ∀ v ∈ g.views, known v := by
  intro u g hg
  cases h.sound.fate moves.move u with
  | stays stack | wakes _ stack => exact h.views u g (stack ▸ hg)
  | ends _ stack =>
    rw [stack] at hg
    cases hg
  | begins _ stack _ _ source =>
    rw [stack] at hg
    cases List.mem_singleton.1 hg
    rcases source with ⟨-, allowed⟩ | ⟨t, f, o, rest, begun, flow, w₂, strides, found⟩
    · exact first g allowed
    · have blank := strides.turn.change.begun_blank g (List.mem_of_getElem? found)
      rw [Frame.views_of_blank blank]
      exact fun v hv => nomatch hv
  | goes strides stack =>
    rw [stack] at hg
    rcases List.mem_append.1 hg with new | old
    · exact strides.handles.views h.shown (h.mine strides) g new
    · exact h.views u g (strides.top ▸ List.mem_cons_of_mem _ old)

/-- Whoever comes to tell a backend goes on with that at once. -/
theorem due_move (first : ∀ g, may g → g.tells = false) (u : TaskId) :
    ∀ g ∈ w'.stack u, g.tells = true → (∃ x, w'.current = some (u, .ok x)) ∧
      (∃ rest, w'.stack u = g :: rest ∧ ∀ g ∈ rest, g.tells = false) ∧
      w'.desk.Due known w'.core g := by
  intro g hg tells
  have never {p : Prop} (h : g.tells = false) : p := by
    rw [h] at tells
    cases tells
  cases h.sound.fate moves.move u with
  | stays stack _ before =>
    obtain ⟨⟨x, runs⟩, -⟩ := h.due u g (stack ▸ hg) tells
    exact absurd runs (before _)
  | wakes idle stack =>
    obtain ⟨⟨x, runs⟩, -⟩ := h.due u g (stack ▸ hg) tells
    exact nomatch idle.symm.trans runs
  | ends _ stack =>
    rw [stack] at hg
    cases hg
  | begins _ stack _ _ source =>
    rw [stack] at hg
    cases List.mem_singleton.1 hg
    rcases source with ⟨-, allowed⟩ | ⟨t, f, o, rest, begun, flow, w₂, strides, found⟩
    · exact never (first g allowed)
    · exact never (Frame.tells_of_blank
        (strides.turn.change.begun_blank g (List.mem_of_getElem? found)))
  | @goes f o rest begun flow w₂ strides stack =>
    have below : ∀ g' ∈ rest, g'.tells = false := by
      intro g' old
      refine Bool.eq_false_iff.2 fun told => ?_
      obtain ⟨-, ⟨rest', top, silent⟩, -⟩ := h.due u g' (strides.top ▸ List.mem_cons_of_mem f old) told
      have same := (List.cons.inj (strides.top.symm.trans top)).2
      rw [silent g' (same ▸ old)] at told
      cases told
    rw [stack] at hg
    rcases List.mem_append.1 hg with new | old
    · obtain ⟨goes, due⟩ := h.due_step strides new tells
      have next := strides.lands.next
      rcases goes with rfl | ⟨g', rfl, silent⟩
      · exact ⟨⟨_, next.1⟩, ⟨_, stack, below⟩, due⟩
      · exact ⟨⟨_, next.1⟩, ⟨_, stack, List.forall_mem_cons.2 ⟨silent, below⟩⟩, due⟩
    · exact never (below g old)

end Moves

/-- What is made sure of holds on, whatever is done from outside. -/
theorem next (h : m.world.Reporting known) (goes : m.Goes w')
    (leaves : ∀ a, m.act = some a → a.leavesRanges = true)
    (views : ∀ a, m.act = some a → ∀ v ∈ a.views, known v) : w'.Reporting known := by
  have moves := goes.kept h.sound fun a ha => Act.listens_of_leaves (leaves a ha)
  have first (g : Frame) (begins : m.Begins g) :
      g.boots = false ∧ g.tells = false ∧ ∀ v ∈ g.views, known v := by
    obtain ⟨c, act, rfl⟩ := begins
    have left := leaves _ act
    refine ⟨Act.boots_of_leaves left, Act.tells_of_leaves left, ?_⟩
    rw [Act.views_of_leaves left]
    exact views _ act
  have names (g : Frame) (begins : m.Begins g) : g.names = [] ∧ g.lates = [] := by
    obtain ⟨c, -, rfl⟩ := begins
    exact frame_first c
  exact {
    sound := h.sound.move moves names
    wired := h.wired.move h.sound moves.move fun g begins => (first g begins).1
    regular := regular_move h.regular goes moves
    attached := h.attached_move goes moves
    outbox := h.outbox_move moves
    shown := h.shown_move goes moves
    views := h.views_move moves fun g begins => (first g begins).2.2
    due := h.due_move moves fun g begins => (first g begins).2.1 }

/-- A message that tells what is visible is of a view that has been shown, and goes to the session of
the owner of its document. -/
theorem told {message : Value} (h : w.Reporting known)
    (strides : Strides R w w' t f o rest begun flow w₂) (writes : w.Writes f b message)
    (method_eq : message.field? "method" = some (.text didChangeVisibleRanges)) :
    ∃ v, known v ∧ ∃ s owner,
      message = Connection.notification didChangeVisibleRanges
        (rangesParams v (Range.coalesce v.ranges v.lineCount Range.margin)) ∧
      (∀ s', (w.session s').backend = some b ↔ s' = s) ∧
      Workspace.ownerAmong w.workspace.resolver.roots v.uri = .ok owner ∧
      (w.session s).key = Session.keyOf owner := by
  have due := h.due t f (strides.top ▸ List.mem_cons_self)
  cases writes with
  | notes =>
    cases method_eq
    obtain ⟨-, -, s, connected, v, shown, rfl, owner, owned, key⟩ := due rfl
    rw [connected_core] at connected
    rw [key_core] at key
    rw [Desk.owner?_eq h.regular.current] at owned
    have leads := (h.wired.leads s _ connected).2
    refine ⟨v, shown, s, owner, rfl, fun s' => ⟨fun process => ?_, ?_⟩, owned, key⟩
    · exact h.wired.apart s' s _ process leads
    · rintro rfl
      exact leads
  | requests =>
    cases method_eq
    exact (due rfl).2.2.elim
  | @answers _ _ result => cases result <;> cases method_eq
  | flushes _ kept =>
    have named := Value.text.inj (Option.some.inj method_eq)
    exact absurd named (h.outbox _ _ kept)

end Reporting

theorem Unused.wired (h : w.Unused) (empty : w.sessions = []) : w.Wired := by
  have session (s : SessionId) : w.session s = default := by
    rw [World.session, empty]
    rfl
  have none {p : Prop} {t : TaskId} {f : Frame} (hf : f ∈ w.stack t) : p := by
    rw [h.stack t] at hf
    cases hf
  refine ⟨fun t g hg => none (List.mem_of_mem_tail hg), fun t s hf => none hf, fun s _ => ?_,
    fun s b process => ?_, fun s s' b process => ?_, fun s k connected => ?_,
    fun t s b hf => none hf, fun t u s s' b b' hf => none hf⟩
  · rw [session]
    rfl
  · rw [session] at process
    cases process
  · rw [session] at process
    cases process
  · rw [session] at connected
    cases connected

section Start

variable {config : Config} {settings : Settings} {roots : List Root} {launcher : Roster.Launcher}
variable {ws : Workspace} {shell : Shell} {plans : List Backend.Plan}

theorem unused_start (reports : ws.reports = []) : (start ws shell plans).Unused where
  loop := rfl
  current := rfl
  held r c held := by
    cases held with
    | reader held => cases held
    | writer held => cases held
    | waiter held => cases held
    | taker held => cases held
    | pending held => cases held
  refers drops t refers := by
    cases refers with
    | reader refers => cases refers
    | answer refers => cases refers
    | reaper refers => cases refers
    | relay refers => cases refers
    | report refers => 
      have found : t ∈ ws.reports := refers
      rw [reports] at found
      cases found

theorem regular_start (made : Workspace.make config settings roots launcher = .ok ws) :
    (start ws shell plans).desk.resolver.Regular := by
  have regular : ws.resolver.Regular := (Workspace.of_make made).1 ▸ .ofRoots roots
  exact regular

theorem reporting_start (made : Workspace.make config settings roots launcher = .ok ws) :
    (start ws shell plans).Reporting known := by
  obtain ⟨-, relays, views, reports⟩ := Workspace.of_make made
  have unused : (start ws shell plans).Unused := unused_start reports
  have none {p : Prop} {t : TaskId} {f : Frame} (hf : f ∈ (start ws shell plans).stack t) : p := by
    rw [unused.stack t] at hf
    cases hf
  refine ⟨unused.sound, unused.wired rfl, regular_start made, fun key r listed => ?_, fun s => ?_,
    fun e he => ?_, fun t f hf => none hf, fun t f hf => none hf⟩
  · have listed' : (key, r) ∈ ws.relays := listed
    rw [relays] at listed'
    cases listed'
  · exact fun n hn => nomatch hn
  · have shown : e ∈ ws.views := he
    rw [views] at shown
    cases shown

/-- The views that are told have been shown before. -/
theorem Path.reporting (made : Workspace.make config settings roots launcher = .ok ws)
    (path : Path (start ws shell plans) ms w) (leaves : ∀ a ∈ acts ms, a.leavesRanges = true) :
    w.Reporting (· ∈ (acts ms).flatMap Act.views) := by
  suffices all : ∀ known : View → Prop, (∀ a ∈ acts ms, a.leavesRanges = true ∧ ∀ v ∈ a.views, known v) →
      w.Reporting known from
    all _ fun a ha => ⟨leaves a ha, fun v hv => List.mem_flatMap.2 ⟨a, ha, hv⟩⟩
  intro known
  refine path.keeps (I := fun ms w => (∀ a ∈ acts ms, a.leavesRanges = true ∧ ∀ v ∈ a.views, known v) →
    w.Reporting known) (fun _ => reporting_start made) fun ms m w' _ ih goes all => ?_
  rw [acts, List.filterMap_append] at all
  have now (a : Act) (ha : m.act = some a) : a.leavesRanges = true ∧ ∀ v ∈ a.views, known v :=
    all a (List.mem_append_right _ (List.mem_filterMap.2 ⟨m, List.mem_singleton_self m, ha⟩))
  exact (ih fun a ha => all a (List.mem_append_left _ ha)).next goes (fun a ha => (now a ha).1)
    fun a ha => (now a ha).2

/-- Whatever is done to a workspace, a message to a backend that tells what is visible is of a view
that has been shown, with its ranges widened and merged, and the backend is that of a session with the
key of the root that owns the document among those that are registered then. -/
theorem ranges_reach_owner (made : Workspace.make config settings roots launcher = .ok ws)
    (path : Path (start ws shell plans) ms m.world) (goes : m.Goes w)
    (leaves : ∀ a ∈ acts (ms ++ [m]), a.leavesRanges = true) (b : BackendId) :
    ∃ sent, (w.backend b).received = (m.world.backend b).received ++ sent ∧
      ∀ message ∈ sent, message.field? "method" = some (.text didChangeVisibleRanges) →
        ∃ v ∈ (acts ms).flatMap Act.views, ∃ s owner,
          message = Connection.notification didChangeVisibleRanges
            (rangesParams v (Range.coalesce v.ranges v.lineCount Range.margin)) ∧
          (∀ s', (m.world.session s').backend = some b ↔ s' = s) ∧
          Workspace.ownerAmong m.world.workspace.resolver.roots v.uri = .ok owner ∧
          (m.world.session s).key = Session.keyOf owner := by
  have before (a : Act) (ha : a ∈ acts ms) : a.leavesRanges = true := by
    refine leaves a ?_
    rw [acts, List.filterMap_append]
    exact List.mem_append_left _ ha
  have now (a : Act) (ha : m.act = some a) : a.leavesRanges = true := by
    refine leaves a ?_
    rw [acts, List.filterMap_append]
    exact List.mem_append_right _ (List.mem_filterMap.2 ⟨m, List.mem_singleton_self m, ha⟩)
  have reporting := path.reporting made before
  have moves := goes.kept reporting.sound fun a ha => Act.listens_of_leaves (now a ha)
  obtain ⟨sent, more, written⟩ := moves.move.delivers b
  rw [inbox_core, inbox_core] at more
  refine ⟨sent, more, fun message there method_eq => ?_⟩
  obtain ⟨t, f, o, rest, begun, flow, w₂, strides, writes⟩ := written message there
  exact reporting.told strides writes method_eq

/-- A document of a root is shown, and the session of the root is told of it. -/
theorem ranges_reach_root :
    let root : Root := ⟨"file:///a", "a"⟩
    let view : View := ⟨"file:///a/b.lua", 40, [⟨10, 0, 12, 0⟩], "lua"⟩
    ∃ ws, Workspace.make .standard .empty [root] .stub = .ok ws ∧
      let first := start ws default [.standard]
      let served := (first.take (.call (.openDocument ⟨view.uri, view.language⟩))).settle 60
      let before := (served.take (.call (.show view))).settle 4
      ∃ message ∈ (before.step.backend 0).received.drop (before.backend 0).received.length,
        ∃ s owner,
          message = Connection.notification didChangeVisibleRanges
            (rangesParams view (Range.coalesce view.ranges view.lineCount Range.margin)) ∧
          (∀ s', (before.session s').backend = some 0 ↔ s' = s) ∧
          Workspace.ownerAmong before.workspace.resolver.roots view.uri = .ok owner ∧
          (before.session s).key = Session.keyOf owner := by
  intro root view
  have made : Workspace.make .standard .empty [root] .stub = .ok _ := rfl
  refine ⟨_, made, ?_⟩
  intro first served before
  have run : Run first [.call (.openDocument ⟨view.uri, view.language⟩), .call (.show view)] before :=
    (((Run.first.take rfl _).settle 60).take (by decide +kernel) _).settle 4
  obtain ⟨ms, path, done⟩ := run_iff_path.1 run
  have leaves : ∀ a ∈ acts (ms ++ [⟨before, none⟩]), a.leavesRanges = true := by
    rw [acts, List.filterMap_append, ← acts, done]
    decide
  have views : (acts ms).flatMap Act.views = [view] := by
    rw [done]
    rfl
  obtain ⟨sent, more, told⟩ := ranges_reach_owner made path (.step before) leaves 0
  have written : ∃ message ∈ (before.step.backend 0).received.drop (before.backend 0).received.length,
      message.field? "method" = some (.text didChangeVisibleRanges) := by decide +kernel
  obtain ⟨message, there, method_eq⟩ := written
  refine ⟨message, there, ?_⟩
  rw [more, List.drop_left] at there
  obtain ⟨v, shown, found⟩ := told message there method_eq
  rw [views] at shown
  cases List.mem_singleton.1 shown
  exact found

end Start

end World
end LanguageClient
