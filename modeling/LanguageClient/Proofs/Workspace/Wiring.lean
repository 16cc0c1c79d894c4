import LanguageClient.Proofs.Client.Alone

/-!
Sessions and their wires, when there are many: each session is launched once, the process it gets is
its own, and its connection leads to that process.
-/

namespace LanguageClient

open Schedule

/-- Starts a session, or goes on once it has asked for a process. -/
def Frame.boots : Frame → Bool
  | .session _ .start | .session _ (.launched _) => true
  | _ => false

theorem Frame.boots_of_plain {f : Frame} (h : f.isPlain = true) : f.boots = false := by
  cases f with
  | session s p => cases p <;> first | rfl | cases h
  | _ => rfl

namespace World

variable {may : Frame → Prop} {R : CellId → Prop} {t u : TaskId} {w w' w₂ : World}
variable {f g : Frame} {rest begun : List Frame} {o : Outcome Result} {flow : Flow Frame Result}
variable {k : ConnectionId} {s s' : SessionId} {b b' : BackendId} {x : Core}

/-- A session has just been made for a root. -/
def Makes (w : World) (f : Frame) (x : Core) : Prop :=
  ∃ root roster, f = .roster (.ensure root) ∧ x = { w.core with
    sessions := w.core.sessions ++ [(Session.make root [] .never 0).core]
    roster := roster }

/-- What a step adds: a session, or what a session gets. -/
theorem Change.adds_cases (h : Change w f o begun flow x) : Adds w f x ∨ Makes w f x := by
  rcases Classical.em (∃ root, f = .roster (.ensure root)) with ⟨root, rfl⟩ | old
  · cases h with
    | quiet => exact .inl (.nothing (.refl _))
    | creates _ fresh => exact .inr ⟨root, _, rfl, by rw [fresh]⟩
    | forgets => exact .inl (.nothing { Core.Holds.refl w.core with })
  · exact .inl (h.adds fun root same => old ⟨root, same⟩)

/-- What a move adds. -/
theorem Move.adds (m : Move may R w w') :
    w.core.Holds w'.core ∨ ∃ t f o rest begun flow w₂,
      Strides R w w' t f o rest begun flow w₂ ∧ (Adds w f w'.core ∨ Makes w f w'.core) := by
  have same (core : w'.core = w.core) : w.core.Holds w'.core := core ▸ .refl w.core
  cases m with
  | rests _ _ _ core =>
    left
    rcases core with core | ⟨b, core⟩ | ⟨k, -, core⟩
    · exact same core
    · exact core ▸ .cut b
    · exact core ▸ .setConnection k _
  | ends _ _ core => exact .inl (same core)
  | wakes _ _ _ _ core => exact .inl (same core)
  | goes runs top taken steps turn lands =>
    subst taken
    refine .inr ⟨_, _, _, _, _, _, _, ⟨runs, top, steps, turn, lands⟩, ?_⟩
    rw [lands.aside.core]
    exact turn.change.adds_cases.imp_left Adds.aside

/-- What a move makes of a session, which may have just been made. -/
theorem Move.session_cases (m : Move may R w w') (s : SessionId) :
    w'.core.session s = w.core.session s ∨
      (∃ t f o rest begun flow w₂, Strides R w w' t f o rest begun flow w₂ ∧
        Shifts w s f o flow (w'.core.session s)) ∨
      (s = w.sessions.length ∧ ∃ root, w'.core.session s = (Session.make root [] .never 0).core) := by
  rcases m.strides with ⟨t, f, o, rest, begun, flow, w₂, strides⟩ | ⟨-, same⟩
  · have change := strides.turn.change
    have landed : w'.core = w₂.core := strides.lands.aside.core
    rcases Classical.em (∃ root, f = .roster (.ensure root)) with ⟨root, rfl⟩ | old
    · rw [landed]
      generalize w₂.core = x at change
      cases change with
      | quiet => exact .inl rfl
      | forgets => exact .inl rfl
      | creates _ fresh =>
        subst fresh
        have count : w.core.sessions.length = w.sessions.length := List.length_map _
        exact (getD_concat w.core.sessions _ (Session.core default) s).imp_right fun ⟨here, made⟩ =>
          .inr ⟨here.trans count, root, made⟩
    · refine .inr (.inl ⟨t, f, o, rest, begun, flow, w₂, strides, ?_⟩)
      rw [landed]
      exact (change.shifts (fun root same => old ⟨root, same⟩) s).aside
  · left
    rw [Core.session, same]
    rfl

/-- Sessions do not get younger, and keep their roots. -/
theorem Move.session_aged (m : Move may R w w') (s : SessionId) :
    ((w'.session s).state = .unstarted → (w.session s).state = .unstarted) ∧
      ((w.session s).state.buffers = false → (w'.session s).state.buffers = false) ∧
      (s < w.sessions.length → (w'.session s).root = (w.session s).root) := by
  simp only [← state_core, ← root_core]
  rcases m.session_cases s with same | ⟨t, f, o, rest, begun, flow, w₂, strides, shifts⟩ |
    ⟨rfl, root, made⟩
  · rw [same]
    exact ⟨id, id, fun _ => rfl⟩
  · generalize w'.core.session s = x at shifts
    cases shifts with
    | same => exact ⟨id, id, fun _ => rfl⟩
    | starts fresh =>
      rw [← state_core] at fresh
      refine ⟨fun _ => fresh, fun old => ?_, fun _ => rfl⟩
      rw [fresh] at old
      cases old
    | fails | stops | loses | readies =>
      refine ⟨fun fresh => ?_, fun _ => rfl, fun _ => rfl⟩
      cases fresh
    | _ => exact ⟨id, id, fun _ => rfl⟩
  · have none : w.core.session w.sessions.length = Session.core default := by
      rw [Core.session, List.getD_eq_getElem?_getD, List.getElem?_eq_none]
      · rfl
      · exact Nat.le_of_eq (List.length_map _)
    rw [none, made]
    exact ⟨fun _ => rfl, fun past => absurd past (by decide), fun old => absurd old (Nat.lt_irrefl _)⟩

theorem Ending.boots (h : Ending w s g) : g.boots = false := by
  cases h with
  | @stage p ends => cases p <;> first | rfl | cases ends
  | wait | close => rfl

/-- A step that starts a session has just made it, and one that launches it has started it. -/
theorem Change.boots (h : Change w f o begun flow x) (boots : g.boots = true)
    (hg : g ∈ flow.frames) :
    (g = .session w.sessions.length .start ∧ Makes w f x) ∨
      ∃ s, f = .session s .start ∧ g = .session s (.launched w.backends.length) ∧
        (w.session s).state = .unstarted ∧
        x = { w.core.setSession s fun y => { y with state := .starting } with
          inboxes := w.core.inboxes ++ [⟨[], false, false⟩] } := by
  have never {p : Prop} (h : g.boots = false) : p := by
    rw [h] at boots
    cases boots
  have one {g' : Frame} {p : Prop} (hg : g ∈ [g']) (h : g'.boots = false) : p :=
    never (List.mem_singleton.1 hg ▸ h)
  have two {g' g'' : Frame} {p : Prop} (hg : g ∈ [g', g'']) (h : g'.boots = false)
      (h' : g''.boots = false) : p := by
    rcases List.mem_cons.1 hg with rfl | hg
    · exact never h
    · exact one hg h'
  cases h with
  | quiet frames => exact never (Frame.boots_of_plain (frames g hg).plain)
  | closing _ frames => exact never (frames g hg).boots
  | launches fresh flow_ =>
    rcases flow_ with rfl | ⟨c, rfl⟩
    · cases List.mem_singleton.1 hg
      exact .inr ⟨_, rfl, rfl, fresh, rfl⟩
    · cases List.mem_singleton.1 hg
      exact .inr ⟨_, rfl, rfl, fresh, rfl⟩
  | @creates root _ _ _ fresh =>
    rcases List.mem_cons.1 hg with rfl | hg
    · exact .inl ⟨rfl, root, _, rfl, by rw [fresh]⟩
    · exact one hg rfl
  | connects _ flow_ =>
    rcases flow_ with ⟨params, timeout, -, rfl⟩ | ⟨e, rfl, -⟩
    · exact two hg rfl rfl
    · cases hg
  | greets flow_ | dismisses flow_ =>
    rcases flow_ with ⟨k, -, rfl⟩ | ⟨-, rfl⟩
    · exact two hg rfl rfl
    · exact one hg rfl
  | notes | arrives | joins | stops | leaves | stopsAll => exact one hg rfl
  | requests | answers | abandons | readies | tells | asks => exact two hg rfl rfl
  | _ => cases hg

/-- A step that calls for a start or a launch goes on at it, and keeps no other for later. -/
theorem Change.boots_later (h : Change w f o begun flow x) :
    ∀ g ∈ flow.frames.tail, g.boots = false := by
  cases h with
  | quiet frames =>
    exact fun g hg => Frame.boots_of_plain (frames g (List.mem_of_mem_tail hg)).plain
  | closing _ frames => exact fun g hg => (frames g (List.mem_of_mem_tail hg)).boots
  | launches _ flow_ => rcases flow_ with rfl | ⟨c, rfl⟩ <;> exact fun g hg => nomatch hg
  | connects _ flow_ =>
    rcases flow_ with ⟨params, timeout, -, rfl⟩ | ⟨e, rfl, -⟩
    · exact List.forall_mem_singleton.2 rfl
    · exact fun g hg => nomatch hg
  | greets flow_ | dismisses flow_ =>
    rcases flow_ with ⟨k, -, rfl⟩ | ⟨-, rfl⟩
    · exact List.forall_mem_singleton.2 rfl
    · exact fun g hg => nomatch hg
  | requests | answers | abandons | readies | tells | asks | creates =>
    exact List.forall_mem_singleton.2 rfl
  | _ => exact fun g hg => nomatch hg

theorem Change.boots_begun (h : Change w f o begun flow x) (g : Frame) (hg : g ∈ begun) :
    g.boots = false := by
  rcases h.begun_cases hg with errand | ⟨s, grace, rfl⟩ | ⟨s, limit, rfl⟩
  · exact Frame.boots_of_plain (Frame.isPlain_of_errand errand)
  · rfl
  · rfl

/-- Nothing that is there goes away. -/
theorem Move.grown (m : Move may R w w') :
    w.sessions.length ≤ w'.sessions.length ∧ w.connections.length ≤ w'.connections.length ∧
      w.backends.length ≤ w'.backends.length := by
  have sessions (w : World) : w.core.sessions.length = w.sessions.length := List.length_map _
  have connections (w : World) : w.core.connections.length = w.connections.length :=
    List.length_map _
  have inboxes (w : World) : w.core.inboxes.length = w.backends.length := List.length_map _
  rw [← sessions w, ← sessions w', ← connections w, ← connections w', ← inboxes w, ← inboxes w']
  have held (holds : w.core.Holds w'.core) := And.intro (Nat.le_of_eq holds.sessions.symm)
    (And.intro (Nat.le_of_eq holds.connections.symm) (Nat.le_of_eq holds.inboxes.symm))
  rcases m.adds with holds | ⟨t, f, o, rest, begun, flow, w₂, -, adds | makes⟩
  · exact held holds
  · generalize w'.core = x at adds held
    cases adds with
    | nothing holds => exact held holds
    | backend | process | connection =>
      simp [Core.setSession, Core.spawn]
  · obtain ⟨root, roster, -, core⟩ := makes
    rw [core]
    simp

/-- A connection leads to the same process for ever. -/
theorem Move.sink (m : Move may R w w') (old : k < w.connections.length) :
    (w'.connection k).backend = (w.connection k).backend := by
  rw [← sink_core, ← sink_core]
  rcases m.connection_cases k with ⟨reader, same⟩ | ⟨t, f, o, rest, begun, flow, w₂, -, alters⟩
  · rw [same]
  · generalize w'.core.connection k = x at alters
    cases alters with
    | opens new => exact absurd old (Nat.not_lt.2 (Nat.le_of_eq new.symm))
    | _ => rfl

/-- A session keeps its process and its connection, unless it is being launched. -/
theorem Move.process_cases (m : Move may R w w') (s : SessionId) :
    ((w'.session s).backend = (w.session s).backend ∧
        (w'.session s).connection = (w.session s).connection) ∨
      ∃ t b o rest begun flow w₂, Strides R w w' t (.session s (.launched b)) o rest begun flow w₂ ∧
        (w'.session s).backend = some b ∧
        ((w'.session s).connection = (w.session s).connection ∨
          (w'.session s).connection = some w.connections.length ∧
            w.connections.length < w'.connections.length ∧
            (w'.connection w.connections.length).backend = b) := by
  have count (w : World) : w.core.connections.length = w.connections.length := List.length_map _
  simp only [← process_core, ← connected_core, ← sink_core, ← count]
  have held (holds : w.core.Holds w'.core) := And.intro (holds.backend s) (holds.connection s)
  rcases m.adds with holds | ⟨t, f, o, rest, begun, flow, w₂, strides, adds | makes⟩
  · exact .inl (held holds)
  · generalize w'.core = x at adds held
    cases adds with
    | nothing holds => exact .inl (held holds)
    | @backend s' =>
      left
      have kept := Core.Holds.setSession (x := w.core) (f := fun y => { y with state := .starting })
        (fun _ => ⟨rfl, rfl⟩) s'
      exact ⟨kept.backend s, kept.connection s⟩
    | @process s' b =>
      rcases Core.session_setSession s' s (fun y => { y with backend := some b })
        (w.core.spawn b) with same | ⟨rfl, same⟩
      · exact .inl ⟨(congrArg Session.backend same :), (congrArg Session.connection same :)⟩
      · exact .inr ⟨t, b, o, rest, begun, flow, w₂, strides, (congrArg Session.backend same :),
          .inl (congrArg Session.connection same :)⟩
    | @connection s' b =>
      rcases Core.session_setSession s' s (fun y =>
        { y with backend := some b, connection := some w.connections.length })
        (w.core.spawn b) with same | ⟨rfl, same⟩
      · exact .inl ⟨(congrArg Session.backend same :), (congrArg Session.connection same :)⟩
      · refine .inr ⟨t, b, o, rest, begun, flow, w₂, strides, (congrArg Session.backend same :), .inr
          ⟨?_, ?_, ?_⟩⟩
        · exact (congrArg Session.connection same :).trans (congrArg some (count w).symm)
        · simp
        · rw [Core.connection, List.getD_eq_getElem?_getD, List.getElem?_concat_length]
          rfl
  · left
    obtain ⟨root, roster, -, core⟩ := makes
    rw [core]
    rcases getD_concat w.core.sessions (Session.make root [] .never 0).core (Session.core default) s
      with same | ⟨here, same⟩
    · exact ⟨(congrArg Session.backend same :), (congrArg Session.connection same :)⟩
    · have none : w.core.session s = Session.core default := by
        rw [Core.session, List.getD_eq_getElem?_getD, List.getElem?_eq_none (Nat.le_of_eq here.symm)]
        rfl
      rw [none]
      exact ⟨(congrArg Session.backend same :), (congrArg Session.connection same :)⟩

/-- Each session is launched once, by one task, and each process and each connection is of one
session. -/
structure Wired (w : World) : Prop where
  tops : ∀ t, ∀ g ∈ (w.stack t).tail, g.boots = false
  known : ∀ t s, .session s .start ∈ w.stack t → s < w.sessions.length
  early : ∀ s, (w.session s).state = .unstarted → (w.session s).backend = none
  there : ∀ s b, (w.session s).backend = some b → b < w.backends.length
  apart : ∀ s s' b, (w.session s).backend = some b → (w.session s').backend = some b → s = s'
  leads : ∀ s k, (w.session s).connection = some k →
    k < w.connections.length ∧ (w.session s).backend = some (w.connection k).backend
  fresh : ∀ t s b, .session s (.launched b) ∈ w.stack t → (w.session s).state ≠ .unstarted ∧
    (w.session s).backend = none ∧ b < w.backends.length ∧ ∀ s', (w.session s').backend ≠ some b
  single : ∀ t u s s' b b', .session s (.launched b) ∈ w.stack t →
    .session s' (.launched b') ∈ w.stack u → s = s' ∨ b = b' → t = u

namespace Wired

section Moves

variable (h : w.Wired) (sound : w.Sound) (m : Move may R w w')
variable (first : ∀ g, may g → g.boots = false)

include h sound m in
theorem tops_move : ∀ g ∈ (w'.stack u).tail, g.boots = false := by
  cases sound.fate m u with
  | stays stack => exact stack ▸ h.tops u
  | ends _ stack =>
    rw [stack]
    exact fun _ hg => nomatch hg
  | wakes _ stack => exact stack ▸ h.tops u
  | begins _ stack =>
    rw [stack]
    exact fun _ hg => nomatch hg
  | @goes f o rest begun flow w₂ strides stack =>
    have below : ∀ g ∈ rest, g.boots = false := by
      have known := h.tops u
      rwa [strides.top] at known
    have later := strides.turn.change.boots_later
    rw [stack]
    cases frames : flow.frames with
    | nil => exact fun g hg => below g (List.mem_of_mem_tail hg)
    | cons g' more =>
      rw [frames] at later
      intro g hg
      exact (List.mem_append.1 hg).elim (later g) (below g)

include h sound m first in
/-- A task that starts or launches a session did so before the move, and has made no step, or has
come to it by its step. -/
theorem boots_cases (boots : g.boots = true) (hg : g ∈ w'.stack u) :
    (g ∈ w.stack u ∧ ∀ f o rest begun flow w₂, ¬ Strides R w w' u f o rest begun flow w₂) ∨
      ∃ f o rest begun flow w₂, Strides R w w' u f o rest begun flow w₂ ∧ g ∈ flow.frames := by
  have never {p : Prop} (h : g.boots = false) : p := by
    rw [h] at boots
    cases boots
  cases sound.fate m u with
  | stays stack _ before =>
    exact .inl ⟨stack ▸ hg, fun _ o _ _ _ _ strides => before o strides.runs⟩
  | ends _ stack =>
    rw [stack] at hg
    cases hg
  | wakes idle stack =>
    exact .inl ⟨stack ▸ hg, fun _ _ _ _ _ _ strides => nomatch idle.symm.trans strides.runs⟩
  | begins _ stack _ _ source =>
    rw [stack] at hg
    cases List.mem_singleton.1 hg
    rcases source with ⟨-, allowed⟩ | ⟨t, f, o, rest, begun, flow, w₂, strides, found⟩
    · exact never (first _ allowed)
    · exact never (strides.turn.change.boots_begun _ (List.mem_of_getElem? found))
  | @goes f o rest begun flow w₂ strides stack =>
    rw [stack] at hg
    rcases List.mem_append.1 hg with new | old
    · exact .inr ⟨f, o, rest, begun, flow, w₂, strides, new⟩
    · refine never (h.tops u g ?_)
      rw [strides.top]
      exact old

include h sound m first in
/-- A launch that is under way was so before, in a task that has made no step, or it has just been
asked for. -/
theorem launch_cases (hg : .session s (.launched b) ∈ w'.stack u) :
    (.session s (.launched b) ∈ w.stack u ∧
        ∀ f o rest begun flow w₂, ¬ Strides R w w' u f o rest begun flow w₂) ∨
      ∃ o rest begun flow w₂, Strides R w w' u (.session s .start) o rest begun flow w₂ ∧
        b = w.backends.length ∧ (w.session s).state = .unstarted ∧
        w'.core = { w.core.setSession s fun y => { y with state := .starting } with
          inboxes := w.core.inboxes ++ [⟨[], false, false⟩] } := by
  refine (h.boots_cases sound m first rfl hg).imp_right ?_
  rintro ⟨f, o, rest, begun, flow, w₂, strides, new⟩
  rcases strides.turn.change.boots rfl new with ⟨same, -⟩ | ⟨s', rfl, same, fresh, core⟩
  · cases same
  · cases same
    exact ⟨o, rest, begun, flow, w₂, strides, rfl, fresh, strides.lands.aside.core.trans core⟩

include h sound m first in
theorem known_move (hg : .session s .start ∈ w'.stack t) : s < w'.sessions.length := by
  rcases h.boots_cases sound m first rfl hg with ⟨old, -⟩ | ⟨f, o, rest, begun, flow, w₂, strides, new⟩
  · exact Nat.lt_of_lt_of_le (h.known t s old) m.grown.1
  · rcases strides.turn.change.boots rfl new with ⟨same, root, roster, -, core⟩ | ⟨s', -, same, -⟩
    · cases same
      have count := congrArg (fun x : Core => x.sessions.length) (strides.lands.aside.core.trans core)
      have made : w'.sessions.length = w.sessions.length + 1 := by simpa [World.core] using count
      exact made ▸ Nat.lt_succ_self _
    · cases same

include h sound m first in
/-- A task that launches a session is the only one that does, and makes no step meanwhile. -/
theorem single_move (hs : .session s (.launched b) ∈ w'.stack t)
    (hs' : .session s' (.launched b') ∈ w'.stack u) (same : s = s' ∨ b = b') : t = u := by
  rcases h.launch_cases sound m first hs with ⟨old, -⟩ | ⟨o, rest, begun, flow, w₂, strides, new, fresh, -⟩ <;>
    rcases h.launch_cases sound m first hs' with
      ⟨old', -⟩ | ⟨o', rest', begun', flow', w₂', strides', new', fresh', -⟩
  · exact h.single t u s s' b b' old old' same
  · obtain ⟨started, -, inside, -⟩ := h.fresh t s b old
    rcases same with rfl | rfl
    · exact absurd fresh' started
    · exact absurd inside (Nat.not_lt.2 (Nat.le_of_eq new'.symm))
  · obtain ⟨started, -, inside, -⟩ := h.fresh u s' b' old'
    rcases same with rfl | rfl
    · exact absurd fresh started
    · exact absurd inside (Nat.not_lt.2 (Nat.le_of_eq new.symm))
  · have runs := strides.runs.symm.trans strides'.runs
    cases runs
    rfl

include h m in
theorem early_move (fresh : (w'.session s).state = .unstarted) : (w'.session s).backend = none := by
  have before := (m.session_aged s).1 fresh
  rcases m.process_cases s with ⟨same, -⟩ | ⟨t, b, o, rest, begun, flow, w₂, strides, -⟩
  · exact same.trans (h.early s before)
  · have top : Frame.session s (.launched b) ∈ w.stack t := strides.top ▸ List.mem_cons_self
    exact absurd before (h.fresh t s b top).1

include h m in
theorem there_move (process : (w'.session s).backend = some b) : b < w'.backends.length := by
  refine Nat.lt_of_lt_of_le ?_ m.grown.2.2
  rcases m.process_cases s with ⟨same, -⟩ | ⟨t, b', o, rest, begun, flow, w₂, strides, new, -⟩
  · exact h.there s b (same ▸ process)
  · have top : Frame.session s (.launched b') ∈ w.stack t := strides.top ▸ List.mem_cons_self
    cases new.symm.trans process
    exact (h.fresh t s b top).2.2.1

include h m in
theorem apart_move (process : (w'.session s).backend = some b)
    (process' : (w'.session s').backend = some b) : s = s' := by
  have launched {t : TaskId} {s : SessionId} {b : BackendId} {o : Outcome Result}
      {rest begun : List Frame} {flow : Flow Frame Result} {w₂ : World}
      (strides : Strides R w w' t (.session s (.launched b)) o rest begun flow w₂) :
      Frame.session s (.launched b) ∈ w.stack t := strides.top ▸ List.mem_cons_self
  rcases m.process_cases s with ⟨same, -⟩ | ⟨t, c, o, rest, begun, flow, w₂, strides, new, -⟩ <;>
    rcases m.process_cases s' with
      ⟨same', -⟩ | ⟨t', c', o', rest', begun', flow', w₂', strides', new', -⟩
  · exact h.apart s s' b (same ▸ process) (same' ▸ process')
  · cases new'.symm.trans process'
    exact absurd (same ▸ process) ((h.fresh t' s' b (launched strides')).2.2.2 s)
  · cases new.symm.trans process
    exact absurd (same' ▸ process') ((h.fresh t s b (launched strides)).2.2.2 s')
  · have runs := strides.runs.symm.trans strides'.runs
    cases runs
    have top := strides.top.symm.trans strides'.top
    cases top
    rfl

include h m in
theorem leads_move (connected : (w'.session s).connection = some k) :
    k < w'.connections.length ∧ (w'.session s).backend = some (w'.connection k).backend := by
  have kept (old : (w.session s).connection = some k) :
      k < w'.connections.length ∧ (w.session s).backend = some (w'.connection k).backend := by
    obtain ⟨inside, leads⟩ := h.leads s k old
    rw [m.sink inside]
    exact ⟨Nat.lt_of_lt_of_le inside m.grown.2.1, leads⟩
  rcases m.process_cases s with ⟨same, same'⟩ | ⟨t, b, o, rest, begun, flow, w₂, strides, new, wire⟩
  · rw [same]
    exact kept (same' ▸ connected)
  · rcases wire with same' | ⟨made, inside, sink⟩
    · have top : Frame.session s (.launched b) ∈ w.stack t := strides.top ▸ List.mem_cons_self
      have none := (h.fresh t s b top).2.1
      rw [(kept (same' ▸ connected)).2] at none
      cases none
    · cases made.symm.trans connected
      exact ⟨inside, new.trans (congrArg some sink.symm)⟩

include h sound m first in
theorem fresh_move (hs : .session s (.launched b) ∈ w'.stack t) :
    (w'.session s).state ≠ .unstarted ∧ (w'.session s).backend = none ∧ b < w'.backends.length ∧
      ∀ s', (w'.session s').backend ≠ some b := by
  rcases h.launch_cases sound m first hs with ⟨old, still⟩ |
    ⟨o, rest, begun, flow, w₂, strides, rfl, fresh, core⟩
  · obtain ⟨started, none, inside, free⟩ := h.fresh t s b old
    refine ⟨fun fresh => started ((m.session_aged s).1 fresh), ?_,
      Nat.lt_of_lt_of_le inside m.grown.2.2, fun s' process => ?_⟩
    · rcases m.process_cases s with ⟨same, -⟩ | ⟨u, b', o, rest, begun, flow, w₂, strides, -⟩
      · exact same.trans none
      · have top : Frame.session s (.launched b') ∈ w.stack u := strides.top ▸ List.mem_cons_self
        cases h.single t u s s b b' old top (.inl rfl)
        exact absurd strides (still _ _ _ _ _ _)
    · rcases m.process_cases s' with ⟨same, -⟩ | ⟨u, b', o, rest, begun, flow, w₂, strides, new, -⟩
      · exact free s' (same ▸ process)
      · have top : Frame.session s' (.launched b') ∈ w.stack u := strides.top ▸ List.mem_cons_self
        cases new.symm.trans process
        cases h.single t u s s' b b old top (.inr rfl)
        exact absurd strides (still _ _ _ _ _ _)
  · have top : Frame.session s .start ∈ w.stack t := strides.top ▸ List.mem_cons_self
    have inside : s < w.core.sessions.length := Nat.lt_of_lt_of_eq (h.known t s top) (List.length_map _).symm
    have backend (s' : SessionId) : (w'.session s').backend = (w.session s').backend := by
      rcases m.process_cases s' with ⟨same, -⟩ | ⟨u, b', o', rest', begun', flow', w₂', strides', -⟩
      · exact same
      · cases strides.runs.symm.trans strides'.runs
        cases strides.top.symm.trans strides'.top
    refine ⟨fun unstarted => ?_, (backend s).trans (h.early s fresh), ?_, fun s' process => ?_⟩
    · have known := Core.session_setSession_self inside fun y => { y with state := .starting }
      have started : (w'.core.session s).state = .starting := by
        rw [core]
        exact (congrArg Session.state known :)
      rw [state_core, unstarted] at started
      cases started
    · have count := congrArg (fun x : Core => x.inboxes.length) core
      have made : w'.backends.length = w.backends.length + 1 := by simpa [World.core] using count
      exact made ▸ Nat.lt_succ_self _
    · exact absurd (h.there s' _ ((backend s').symm.trans process)) (Nat.lt_irrefl _)

include h sound m first in
theorem move : w'.Wired where
  tops _ := h.tops_move sound m
  known _ _ hg := h.known_move sound m first hg
  early _ := h.early_move m
  there _ _ := h.there_move m
  apart _ _ _ := h.apart_move m
  leads _ _ := h.leads_move m
  fresh _ _ _ := h.fresh_move sound m first
  single _ _ _ _ _ _ := h.single_move sound m first

end Moves

end Wired

end World
end LanguageClient
