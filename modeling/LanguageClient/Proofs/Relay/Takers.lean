import LanguageClient.Proofs.Relay.Mail
import LanguageClient.Proofs.Workspace.Reports

/-!
Who takes the events of a session: a relay's task, which begins when the relay is made, and nobody
else.
-/

namespace LanguageClient

open Schedule

namespace Frame

variable {f g : Frame} {s : SessionId} {r : RelayId}

/-- Sees to it that a session gets a relay. -/
def attachesTo (s : SessionId) : Frame → Bool
  | .roster (.sessionStarted _ s') => s' = s
  | _ => false

theorem attachesTo_of_plain (h : f.isPlain = true) (s : SessionId) : f.attachesTo s = false := by
  unfold attachesTo
  split
  · cases h
  · rfl

theorem consume_of_errand (errand : f.isErrand = true) (h : f.takesFor s r = true) :
    ∃ s' r', f = .session s' (.consume (.relay r')) := by
  unfold isErrand at errand
  split at errand
  · cases h
  · cases h
  · exact ⟨_, _, rfl⟩
  · cases h
  · cases errand

end Frame

namespace World

variable {may : Frame → Prop} {R : CellId → Prop} {w w' w₂ : World} {t u : TaskId} {f g : Frame}
variable {o : Outcome Result} {rest begun : List Frame} {flow : Flow Frame Result} {x : Core}
variable {s : SessionId} {r : RelayId}

theorem Ending.idle (h : Ending w s g) : g.isTaking = false ∧ ∀ s', g.attachesTo s' = false := by
  cases h with
  | @stage p ends => cases p <;> first | exact ⟨rfl, fun _ => rfl⟩ | cases ends
  | wait | close => exact ⟨rfl, fun _ => rfl⟩

/-- A step goes on at taking events only if it has come from there. -/
theorem Change.taking (h : Change w f o begun flow x) (hg : g ∈ flow.frames)
    (takes : g.takesFor s r = true) : f.takesFor s r = true := by
  have never {p : Prop} (h : g.isTaking = false) : p := by
    rw [Frame.isTaking_of_takesFor takes] at h
    cases h
  have one {g' : Frame} {p : Prop} (hg : g ∈ [g']) (h : g'.isTaking = false) : p :=
    never (List.mem_singleton.1 hg ▸ h)
  have two {g' g'' : Frame} {p : Prop} (hg : g ∈ [g', g'']) (h : g'.isTaking = false)
      (h' : g''.isTaking = false) : p := by
    rcases List.mem_cons.1 hg with rfl | hg
    · exact never h
    · exact one hg h'
  cases h with
  | quiet frames => exact (frames g hg).taking s r takes
  | closing _ frames => exact never (frames g hg).idle.1
  | launches fresh flow_ =>
    rcases flow_ with rfl | ⟨c, rfl⟩
    · exact one hg rfl
    · exact one hg rfl
  | connects _ flow_ =>
    rcases flow_ with ⟨params, timeout, -, rfl⟩ | ⟨e, rfl, -⟩
    · exact two hg rfl rfl
    · cases hg
  | greets flow_ | dismisses flow_ =>
    rcases flow_ with ⟨k, -, rfl⟩ | ⟨-, rfl⟩
    · exact two hg rfl rfl
    · exact one hg rfl
  | notes | arrives | joins | stops | leaves | stopsAll => exact one hg rfl
  | requests | answers | abandons | readies | tells | asks | creates => exact two hg rfl rfl
  | _ => cases hg

/-- A step sees to a relay only for a session that it has made. -/
theorem Change.attaching (h : Change w f o begun flow x) (hg : g ∈ flow.frames)
    (attaches : g.attachesTo s = true) : s = w.sessions.length := by
  have never {p : Prop} (h : g.attachesTo s = false) : p := by
    rw [attaches] at h
    cases h
  have one {g' : Frame} {p : Prop} (hg : g ∈ [g']) (h : g'.attachesTo s = false) : p :=
    never (List.mem_singleton.1 hg ▸ h)
  have two {g' g'' : Frame} {p : Prop} (hg : g ∈ [g', g'']) (h : g'.attachesTo s = false)
      (h' : g''.attachesTo s = false) : p := by
    rcases List.mem_cons.1 hg with rfl | hg
    · exact never h
    · exact one hg h'
  cases h with
  | quiet frames => exact never (Frame.attachesTo_of_plain (frames g hg).plain s)
  | closing _ frames => exact never ((frames g hg).idle.2 s)
  | launches fresh flow_ =>
    rcases flow_ with rfl | ⟨c, rfl⟩
    · exact one hg rfl
    · exact one hg rfl
  | connects _ flow_ =>
    rcases flow_ with ⟨params, timeout, -, rfl⟩ | ⟨e, rfl, -⟩
    · exact two hg rfl rfl
    · cases hg
  | greets flow_ | dismisses flow_ =>
    rcases flow_ with ⟨k, -, rfl⟩ | ⟨-, rfl⟩
    · exact two hg rfl rfl
    · exact one hg rfl
  | notes | arrives | joins | stops | leaves | stopsAll => exact one hg rfl
  | requests | answers | abandons | readies | tells | asks => exact two hg rfl rfl
  | creates =>
    rcases List.mem_cons.1 hg with rfl | hg
    · cases attaches
    · cases List.mem_singleton.1 hg
      exact (of_decide_eq_true attaches).symm
  | _ => cases hg

/-- A task that takes events begins when its relay is made, and no task begins by seeing to one. -/
theorem Change.begins (h : Change w f o begun flow x) (hg : g ∈ begun) :
    (g.takesFor s r = true → ∃ key s', f = .roster (.sessionStarted key s') ∧
      g = .session s' (.consume (.relay w.relays.length))) ∧ g.attachesTo s = false := by
  have never (h : g.isTaking = false) (h' : g.attachesTo s = false) :
      (g.takesFor s r = true → ∃ key s', f = .roster (.sessionStarted key s') ∧
        g = .session s' (.consume (.relay w.relays.length))) ∧ g.attachesTo s = false := by
    refine ⟨fun takes => ?_, h'⟩
    rw [Frame.isTaking_of_takesFor takes] at h
    cases h
  cases h with
  | quiet _ begun_ =>
    have opens := begun_ g hg
    refine ⟨fun takes => ?_, Frame.attachesTo_of_plain opens.succeeds.plain s⟩
    obtain ⟨s', r', rfl⟩ := Frame.consume_of_errand opens.errand takes
    obtain ⟨⟨key, rfl⟩, same⟩ := opens.taking s' _ rfl
    cases same
    exact ⟨key, s', rfl, rfl⟩
  | loses =>
    cases List.mem_singleton.1 hg
    exact never rfl rfl
  | connects =>
    cases List.mem_singleton.1 hg
    exact never rfl rfl
  | stopsAll =>
    obtain ⟨e, -, rfl⟩ := List.mem_map.1 hg
    exact never rfl rfl
  | _ => cases hg

/-- A task alone takes the events of a session, and for a relay. -/
structure Reserved (s : SessionId) (r : RelayId) (t : TaskId) (w : World) : Prop where
  begun : t < w.loop.tasks.length
  made : s < w.sessions.length
  known : r < w.relays.length
  others : ∀ u, u ≠ t → ∀ f ∈ w.stack u, f.takesFor s r = false
  attached : ∀ u, ∀ f ∈ w.stack u, f.attachesTo s = false

namespace Reserved

theorem grown (h : w.Reserved s r t) (move : Move may R w w') (sound : w.Sound)
    (allowed : ∀ g, may g → g.takesFor s r = false ∧ g.attachesTo s = false) {u : TaskId} :
    (u ≠ t → ∀ g ∈ w'.stack u, g.takesFor s r = false) ∧ ∀ g ∈ w'.stack u, g.attachesTo s = false := by
  cases sound.fate move u with
  | stays stack =>
    rw [stack]
    exact ⟨h.others u, h.attached u⟩
  | ends _ stack =>
    rw [stack]
    exact ⟨fun _ _ hg => (nomatch hg), fun _ hg => nomatch hg⟩
  | wakes _ stack =>
    rw [stack]
    exact ⟨h.others u, h.attached u⟩
  | @begins g new stack _ _ source =>
    rw [stack]
    have known : g.takesFor s r = false ∧ g.attachesTo s = false := by
      rcases source with ⟨-, may⟩ | ⟨v, f, o, rest, begun, flow, w₂, strides, found⟩
      · exact allowed g may
      · obtain ⟨source, quiet⟩ := strides.turn.change.begins (s := s) (r := r)
          (List.mem_of_getElem? found)
        refine ⟨Bool.eq_false_iff.2 fun takes => ?_, quiet⟩
        obtain ⟨key, s', rfl, rfl⟩ := source takes
        have attached := h.attached v _ (strides.top ▸ List.mem_cons_self)
        have other : s' ≠ s := of_decide_eq_false attached
        have count : w.relays.length ≠ r := Nat.ne_of_gt h.known
        have here : (decide (s' = s) ||
            decide (Session.Consumer.relay w.relays.length = .relay r)) = true := takes
        simp [other, count] at here
    exact ⟨fun _ => List.forall_mem_singleton.2 known.1, List.forall_mem_singleton.2 known.2⟩
  | @goes f o rest begun flow w₂ strides stack =>
    rw [stack]
    have change := strides.turn.change
    have top : f ∈ w.stack u := strides.top ▸ List.mem_cons_self
    have under {g : Frame} (hg : g ∈ rest) : g ∈ w.stack u :=
      strides.top ▸ List.mem_cons_of_mem f hg
    refine ⟨fun other g hg => ?_, fun g hg => ?_⟩
    · rcases List.mem_append.1 hg with hg | hg
      · refine Bool.eq_false_iff.2 fun takes => ?_
        have came := change.taking hg takes
        rw [h.others u other f top] at came
        cases came
      · exact h.others u other g (under hg)
    · rcases List.mem_append.1 hg with hg | hg
      · refine Bool.eq_false_iff.2 fun attaches => ?_
        exact Nat.ne_of_lt h.made (change.attaching hg attaches)
      · exact h.attached u g (under hg)

end Reserved

/-- No relay goes away. -/
theorem Strides.relays (strides : Strides R w w' t f o rest begun flow w₂) :
    w.relays.length ≤ w'.relays.length := by
  have count (w : World) : w.desk.served.length = w.relays.length := List.length_map _
  have handles := strides.handles
  rw [← count w, ← count w']
  generalize w'.desk = d at handles
  cases handles with
  | attaches => simp
  | _ => exact Nat.le_refl _

theorem lengths_of_post (h : w'.post = w.post) :
    w'.sessions.length = w.sessions.length ∧ w'.relays.length = w.relays.length := by
  have boxes := congrArg (fun p : Post => p.boxes.length) h
  have marks := congrArg (fun p : Post => p.marks.length) h
  simp only [post, List.length_map] at boxes marks
  exact ⟨boxes, marks⟩

theorem post_take (a : Act) (w : World) : (w.take a).post = w.post := by
  cases a with
  | backend b d =>
    rw [take]
    split
    · exact steady_post.carryOut b w d
    · rfl
  | kill s => exact steady_post.killSession s w
  | forget r uri => exact post_setRelay (fun _ => by rfl) r w
  | listen k owner => exact (steady_post.startReading k _).trans (steady_post.setConnection k w _)
  | _ => rfl

/-- A task makes a step, or nothing happens to any event. -/
theorem post_cases {m : Moment} (goes : m.Goes w') (moves : Moves may R m.world w') :
    (m.top? = none ∧ w'.post = m.world.post) ∨
      (w' = m.world.step ∧ ∃ t f o rest begun flow w₂,
        Strides R m.world w' t f o rest begun flow w₂) :=
  goes.cases moves steady_post (fun n w => by cases n <;> rfl) post_take

end World
end LanguageClient
