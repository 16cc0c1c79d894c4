import LanguageClient.Proofs.Client.Shift

/-!
A session is launched once, by one task, and keeps the process that it gets.
-/

namespace LanguageClient

open Schedule

theorem Core.session_setSession_self {s : SessionId} {x : Core} (inside : s < x.sessions.length)
    (f : Session → Session) : (x.setSession s f).session s = f (x.session s) := by
  simp only [session, setSession, List.getD_eq_getElem?_getD, List.getElem?_modify_eq,
    List.getElem?_eq_getElem inside]
  rfl

namespace World

variable {may : Frame → Prop} {R : CellId → Prop} {t u : TaskId} {w w' w₂ : World}
variable {f : Frame} {rest begun : List Frame} {o : Outcome Result} {flow : Flow Frame Result}
variable {s : SessionId} {b : BackendId}

/-- A task is about to find out whether the process of a session exists. -/
def Launches (w : World) (s : SessionId) (t : TaskId) : Prop :=
  ∃ b, .session s (.launched b) ∈ w.stack t

structure Launching (w : World) (s : SessionId) : Prop where
  early : (w.session s).state = .unstarted → (w.session s).backend = none
  fresh : ∀ t, w.Launches s t → (w.session s).state ≠ .unstarted ∧ (w.session s).backend = none
  single : ∀ t u, w.Launches s t → w.Launches s u → t = u

/-- Only the start of a session leads to its launch. -/
theorem Leads.launched (h : Leads t w w' f o flow) (hg : .session s (.launched b) ∈ flow.frames) :
    f = .session s .start ∧ (w.session s).state = .unstarted ∧
      (flow = .goto (.session s (.launched b)) ∨ ∃ c, flow = .await c (.session s (.launched b))) := by
  cases h with
  | launches fresh flow_ =>
    rcases flow_ with rfl | ⟨c, -, rfl⟩
    · cases List.mem_singleton.1 hg
      exact ⟨rfl, fresh, .inl rfl⟩
    · cases List.mem_singleton.1 hg
      exact ⟨rfl, fresh, .inr ⟨c, rfl⟩⟩
  | serves _ _ flow_ => rcases flow_ with rfl | ⟨c, -, rfl⟩ <;> simp [Flow.frames] at hg
  | stopsAnswers _ flow_ => rcases flow_ with rfl | ⟨c, rfl⟩ <;> simp [Flow.frames] at hg
  | unconnected _ stages =>
    rcases stages with ⟨-, rfl⟩ | ⟨-, rfl⟩ | ⟨timeout, -, rfl⟩ <;> simp [Flow.frames] at hg
  | takes _ next flow_ =>
    rcases flow_ with rfl | rfl | ⟨c, -, rfl⟩
    · cases hg
    · rcases next with rfl | ⟨c, rfl⟩ <;> simp [Flow.frames] at hg
    · rcases next with rfl | ⟨c, rfl⟩ <;> simp [Flow.frames] at hg
  | watches _ _ stages =>
    rcases stages with ⟨-, rfl, -⟩ | ⟨-, rfl, -⟩ | ⟨-, rfl, -⟩ <;> simp [Flow.frames] at hg
  | _ => simp [Flow.frames] at hg

/-- A launch that is under way was so before the move, which then is none of that task's, or it has
just been begun. -/
theorem launches_cases (client : w.Client) (sound : w.Sound) (m : Move may R w w')
    (first : ∀ g, may g → g.isCall = true) (h : w'.Launches s u) :
    (w.Launches s u ∧ ∀ o, w.current ≠ some (u, o) ∨ w.stack u = []) ∨
      ∃ o rest begun flow w₂, Strides R w w' u (.session s .start) o rest begun flow w₂ ∧
        (w.session s).state = .unstarted ∧ ∃ b, flow = .goto (.session s (.launched b)) ∨
          ∃ c, flow = .await c (.session s (.launched b)) := by
  obtain ⟨b, hb⟩ := h
  cases sound.fate m u with
  | stays stack _ before => exact .inl ⟨⟨b, stack ▸ hb⟩, fun o => .inl (before o)⟩
  | ends _ stack =>
    rw [stack] at hb
    cases hb
  | wakes idle stack => exact .inl ⟨⟨b, stack ▸ hb⟩, fun o => .inl (by simp [idle])⟩
  | @begins g _ stack _ _ source =>
    rw [stack] at hb
    have same := List.mem_singleton.1 hb
    rcases source with ⟨-, allowed⟩ | ⟨t, f, o, rest, begun, flow, w₂, s', found⟩
    · cases same ▸ first g allowed
    · rcases s'.turn.change.opened (client.places t f (s'.top ▸ List.mem_cons_self)) g
        (List.mem_of_getElem? found) with serves | ⟨k, grace, same'⟩
      · rw [← same] at serves
        cases serves
      · rw [← same] at same'
        cases same'
  | @goes f o rest begun flow w₂ strides stack =>
    rw [stack] at hb
    rcases List.mem_append.1 hb with new | old
    · obtain ⟨rfl, fresh, goes⟩ := (client.leads strides).launched new
      exact .inr ⟨o, rest, begun, flow, w₂, strides, fresh, b, goes⟩
    · have linked : Linked (f :: rest) := strides.top ▸ client.linked u
      obtain ⟨r, calls⟩ := linked.calls _ old
      cases calls

/-- A session gets its process in a launch. -/
theorem Client.backend_cases (client : w.Client) (m : Move may R w w') (s : SessionId) :
    (w'.session s).backend = (w.session s).backend ∨ ∃ t b o rest, w.current = some (t, o) ∧
      w.stack t = .session s (.launched b) :: rest := by
  have before : (w.core.session s).backend = (w.session s).backend :=
    (congrArg Session.backend (session_core s w) :)
  have after : (w'.core.session s).backend = (w'.session s).backend :=
    (congrArg Session.backend (session_core s w') :)
  rw [← before, ← after]
  rcases client.shifts m s with same | ⟨t, f, o, rest, begun, flow, w₂, strides, shifts⟩
  · exact .inl (congrArg Session.backend same)
  · generalize w'.core.session s = x at shifts
    cases shifts with
    | arrives => exact .inr ⟨t, _, _, rest, strides.runs, strides.top⟩
    | connects => exact .inr ⟨t, _, _, rest, strides.runs, strides.top⟩
    | _ => exact .inl rfl

theorem Client.unstarted_of_move (client : w.Client) (m : Move may R w w')
    (h : (w'.session s).state = .unstarted) : (w.session s).state = .unstarted := by
  have before : (w.core.session s).state = (w.session s).state :=
    (congrArg Session.state (session_core s w) :)
  have after : (w'.core.session s).state = (w'.session s).state :=
    (congrArg Session.state (session_core s w') :)
  rw [← after] at h
  rw [← before]
  rcases client.shifts m s with same | ⟨t, f, o, rest, begun, flow, w₂, strides, shifts⟩
  · rwa [← same]
  · generalize w'.core.session s = x at shifts h
    cases shifts with
    | starts => cases h
    | fails => cases h
    | readies => cases h
    | stops => cases h
    | loses => cases h
    | _ => exact h

/-- A session that is being launched has been started. -/
theorem started_of_strides {b : BackendId}
    (strides : Strides R w w' t (.session s .start) o rest begun flow w₂)
    (inside : s < w.sessions.length) (goes : flow = .goto (.session s (.launched b)) ∨
      ∃ c, flow = .await c (.session s (.launched b))) :
    (w'.session s).state = .starting ∧ (w'.session s).backend = (w.session s).backend := by
  have core := strides.lands.aside.core
  have launched : .session s (.launched b) ∈ flow.frames := by
    rcases goes with rfl | ⟨c, rfl⟩ <;> exact List.mem_singleton_self _
  have count : s < w.core.sessions.length := by
    show s < (w.sessions.map Session.core).length
    rwa [List.length_map]
  have known : w'.core.session s = { w.core.session s with state := .starting } := by
    rw [core]
    have change := strides.turn.change
    dsimp only at change
    generalize w₂.core = x at change
    cases change with
    | quiet frames => cases (frames _ launched).plain
    | launches => exact Core.session_setSession_self (x := w.core) count _
    | closing closes => cases closes
    | fails => cases launched
    | stumbles => cases launched
    | abandons start => rcases start with same | same <;> cases same
  constructor
  · have same := congrArg Session.state ((session_core s w').symm.trans known)
    exact same
  · have same := congrArg Session.backend ((session_core s w').symm.trans known)
    have before := congrArg Session.backend (session_core s w)
    exact same.trans before

namespace Launching

theorem move (h : w.Launching s) (client : w.Client) (sound : w.Sound) (m : Move may R w w')
    (first : ∀ g, may g → g.isCall = true) (inside : s < w.sessions.length) :
    w'.Launching s := by
  have kept (u : TaskId) (launches : w.Launches s u)
      (still : ∀ o, w.current ≠ some (u, o) ∨ w.stack u = []) :
      (w'.session s).state ≠ .unstarted ∧ (w'.session s).backend = none := by
    obtain ⟨started, absent⟩ := h.fresh u launches
    refine ⟨fun state => started (client.unstarted_of_move m state), ?_⟩
    rcases client.backend_cases m s with same | ⟨t, b, o, rest, runs, top⟩
    · exact same.trans absent
    · have other : w.Launches s t := ⟨b, top ▸ List.mem_cons_self⟩
      have same := h.single t u other launches
      subst same
      rcases still o with idle | empty
      · exact absurd runs idle
      · rw [top] at empty
        cases empty
  refine ⟨fun state => ?_, fun u launches => ?_, fun t u ht hu => ?_⟩
  · have before := client.unstarted_of_move m state
    rcases client.backend_cases m s with same | ⟨t, b, o, rest, runs, top⟩
    · exact same.trans (h.early before)
    · exact absurd before (h.fresh t ⟨b, top ▸ List.mem_cons_self⟩).1
  · rcases launches_cases client sound m first launches with
      ⟨old, still⟩ | ⟨o, rest, begun, flow, w₂, strides, fresh, b, goes⟩
    · exact kept u old still
    · obtain ⟨state, same⟩ := started_of_strides strides inside goes
      exact ⟨by simp [state], same.trans (h.early fresh)⟩
  · rcases launches_cases client sound m first ht with
      ⟨old, -⟩ | ⟨o, rest, begun, flow, w₂, strides, fresh, -⟩
    · rcases launches_cases client sound m first hu with ⟨old', -⟩ | ⟨_, _, _, _, _, -, fresh, -⟩
      · exact h.single t u old old'
      · exact absurd fresh (h.fresh t old).1
    · rcases launches_cases client sound m first hu with ⟨old', -⟩ | ⟨_, _, _, _, _, strides', -, -⟩
      · exact absurd fresh (h.fresh u old').1
      · have same := strides.runs.symm.trans strides'.runs
        cases same
        rfl

/-- A session keeps the process that it has. -/
theorem backend (h : w.Launching s) (client : w.Client) (m : Move may R w w')
    (found : (w.session s).backend = some b) : (w'.session s).backend = some b := by
  rcases client.backend_cases m s with same | ⟨t, b', o, rest, runs, top⟩
  · exact same.trans found
  · have absent := (h.fresh t ⟨b', top ▸ List.mem_cons_self⟩).2
    rw [found] at absent
    cases absent

end Launching
end World
end LanguageClient
