import LanguageClient.Proofs.Client.Conduct
import LanguageClient.Proofs.Client.Launching

/-!
How the calls of a session come from stage to stage, and that no more than one task starts it.
-/

namespace LanguageClient

open Schedule

namespace Session.Stage

/-- Stages of a start before the session is ready. -/
def opens : Stage → Bool
  | .launched _ | .initializeAnswered | .initializedSent | .abandoned _ => true
  | _ => false

end Session.Stage

/-- Writes to a backend when it goes on. -/
def Connection.Stage.writes : Stage → Bool
  | .notify .. | .request .. => true
  | _ => false

theorem Connection.Stage.serves_of_writes (p : Stage) (h : p.writes = true) : p.serves = false := by
  cases p <;> first | rfl | cases h

namespace World

variable {may : Frame → Prop} {R : CellId → Prop} {t u : TaskId} {w w' w₂ : World}
variable {f g : Frame} {rest begun : List Frame} {o : Outcome Result} {flow : Flow Frame Result}
variable {s : SessionId} {p q : Session.Stage}

/-- Only stages of a session lead to others. -/
theorem Leads.stage (h : Leads t w w' f o flow) (hp : .session s p ∈ flow.frames) :
    ∃ q, f = .session s q := by
  have one {g : Frame} (other : g ≠ .session s p) (hp : .session s p ∈ [g]) : False :=
    other (List.mem_singleton.1 hp).symm
  cases h with
  | serves _ _ flow_ => rcases flow_ with rfl | ⟨c, -, rfl⟩ <;> exact (one (by simp) hp).elim
  | stopsAnswers _ flow_ => rcases flow_ with rfl | ⟨c, rfl⟩ <;> exact (one (by simp) hp).elim
  | launches _ flow_ =>
    rcases flow_ with rfl | ⟨c, -, rfl⟩ <;>
    · cases List.mem_singleton.1 hp
      exact ⟨_, rfl⟩
  | takes _ _ flow_ =>
    rcases flow_ with rfl | rfl | ⟨c, -, rfl⟩
    · cases hp
    · cases List.mem_singleton.1 hp
      exact ⟨_, rfl⟩
    · cases List.mem_singleton.1 hp
      exact ⟨_, rfl⟩
  | arrives | unconnected | stops | turns | insists | vacates | exits =>
    cases List.mem_singleton.1 hp
    exact ⟨_, rfl⟩
  | abandons =>
    rcases List.mem_cons.1 hp with same | last
    · cases same
      exact ⟨_, rfl⟩
    · cases List.mem_singleton.1 last
      exact ⟨_, rfl⟩
  | connects | greets | readies | tells | asks | dismisses | watches | releases =>
    rcases List.mem_cons.1 hp with same | last
    · cases same
    · cases List.mem_singleton.1 last
      exact ⟨_, rfl⟩
  | _ => simp [Flow.frames] at hp

/-- A stage of a session at which a task stands after a move. -/
inductive Stays (may : Frame → Prop) (R : CellId → Prop) (w w' : World) (s : SessionId) (u : TaskId)
    (p : Session.Stage) : Prop
  | same (before : .session s p ∈ w.stack u) (stack : w'.stack u = w.stack u)
    (still : ∀ o, w.current ≠ some (u, o))
  | below {f : Frame} {o : Outcome Result} {rest begun : List Frame} {flow : Flow Frame Result}
    {w₂ : World} (strides : Strides R w w' u f o rest begun flow w₂)
    (stack : w'.stack u = flow.frames ++ rest) (before : .session s p ∈ rest)
  | comes {q : Session.Stage} {o : Outcome Result} {rest begun : List Frame}
    {flow : Flow Frame Result} {w₂ : World}
    (strides : Strides R w w' u (.session s q) o rest begun flow w₂)
    (stack : w'.stack u = flow.frames ++ rest) (after : .session s p ∈ flow.frames)
    (conduct : Conduct w w₂ s q o flow)
  | called (new : w.loop.tasks.length ≤ u) (stack : w'.stack u = [.session s p])
    (called : may (.session s p))
  | reaps (new : w.loop.tasks.length ≤ u) (stack : w'.stack u = [.session s p]) {grace : Timeout}
    (reaps : p = .shutdown grace)

theorem Client.stays (client : w.Client) (sound : w.Sound) (m : Move may R w w')
    (h : .session s p ∈ w'.stack u) : Stays may R w w' s u p := by
  cases sound.fate m u with
  | stays stack _ before => exact .same (stack ▸ h) stack before
  | ends _ stack =>
    rw [stack] at h
    cases h
  | wakes idle stack => exact .same (stack ▸ h) stack fun o => by simp [idle]
  | @begins g new stack _ _ source =>
    rw [stack] at h
    have same := List.mem_singleton.1 h
    subst same
    rcases source with ⟨-, allowed⟩ | ⟨t, f, o, rest, begun, flow, w₂, strides, found⟩
    · exact .called new stack allowed
    · rcases strides.turn.change.opened (client.places t f (strides.top ▸ List.mem_cons_self)) _
        (List.mem_of_getElem? found) with serves | ⟨s', grace, same⟩
      · cases serves
      · cases same
        exact .reaps new stack rfl
  | @goes f o rest begun flow w₂ strides stack =>
    rw [stack] at h
    rcases List.mem_append.1 h with new | old
    · obtain ⟨q, rfl⟩ := (client.leads strides).stage new
      exact .comes strides stack new (strides.conducts client)
    · exact .below strides stack old

/-- Stages of a start or a stop have no stage above them but those that end a process. -/
theorem Linked.nothing_below (h : Linked (.session s p :: rest)) (other : p.ends = false) : rest = [] := by
  cases rest with
  | nil => rfl
  | cons g rest =>
    obtain ⟨⟨r, -, has⟩, -⟩ := h
    cases has with
    | stage ends => simp [other] at ends

theorem Linked.last {stack : List Frame} (linked : Linked stack) (member : .session s p ∈ stack)
    (other : p.ends = false) : stack.getLast? = some (.session s p) := by
  induction stack with
  | nil => cases member
  | cons f rest ih =>
    cases rest with
    | nil =>
      cases List.mem_singleton.1 member
      rfl
    | cons g rest =>
      rw [List.getLast?_cons_cons]
      rcases List.mem_cons.1 member with rfl | below
      · cases linked.nothing_below other
      · exact ih linked.tail below

/-- What a place calls that is about to write stands on that place. -/
theorem Leads.writes {k : ConnectionId} {p : Connection.Stage} (h : Leads t w w' f o flow)
    (hp : .connection k p ∈ flow.frames) (writes : p.writes = true) :
    ∃ next, flow = .call (.connection k p) next := by
  have single {g next : Frame} (other : ∀ p, next ≠ .connection k p)
      (hp : .connection k p ∈ [g, next]) : Flow.call (ρ := Result) (.connection k p) next =
        .call g next := by
    rcases List.mem_cons.1 hp with same | last
    · rw [same]
    · exact absurd (List.mem_singleton.1 last).symm (other p)
  cases h with
  | connects | greets | tells | asks | dismisses =>
    exact ⟨_, (single (fun _ => by simp) hp).symm⟩
  | serves _ serves flow_ =>
    rcases flow_ with rfl | ⟨c, -, rfl⟩ <;>
    · cases List.mem_singleton.1 hp
      rw [p.serves_of_writes writes] at serves
      cases serves
  | stopsAnswers _ flow_ =>
    rcases flow_ with rfl | ⟨c, rfl⟩ <;>
    · cases List.mem_singleton.1 hp
      cases writes
  | launches _ flow_ => rcases flow_ with rfl | ⟨c, -, rfl⟩ <;> simp [Flow.frames] at hp
  | takes _ _ flow_ => rcases flow_ with rfl | rfl | ⟨c, -, rfl⟩ <;> simp [Flow.frames] at hp
  | stalls | flows | notes | closes | stopsReader =>
    cases List.mem_singleton.1 hp
    cases writes
  | requests | answers | readies | releases | written =>
    rcases List.mem_cons.1 hp with same | last
    · cases same <;> cases writes
    · cases List.mem_singleton.1 last <;> cases writes
  | _ => simp [Flow.frames] at hp

/-- Whoever is about to write is at work. -/
def Prompt (w : World) : Prop :=
  ∀ t k p rest, w.stack t = .connection k p :: rest → p.writes = true →
    w.current = some (t, .ok .nothing)

theorem Linked.writes {k : ConnectionId} {p : Connection.Stage} (h : Linked (f :: rest))
    (hp : .connection k p ∈ rest) : p.writes = false := by
  obtain ⟨r, calls⟩ := h.calls _ hp
  cases p <;> first | rfl | cases calls

theorem Prompt.move (h : w.Prompt) (client : w.Client) (sound : w.Sound) (m : Move may R w w')
    (first : ∀ k p, may (.connection k p) → p.writes = false) : w'.Prompt := by
  intro u k p rest' top writes
  have idle (stack : w'.stack u = w.stack u) : w.current = some (u, .ok .nothing) :=
    h u k p rest' (stack ▸ top) writes
  cases sound.fate m u with
  | stays stack _ before => exact absurd (idle stack) (before _)
  | ends _ stack =>
    rw [stack] at top
    cases top
  | wakes none stack =>
    rw [none] at idle
    cases idle stack
  | @begins g _ stack _ _ source =>
    rw [stack] at top
    cases top
    rcases source with ⟨-, allowed⟩ | ⟨t, f, o, rest, begun, flow, w₂, strides, found⟩
    · rw [first k p allowed] at writes
      cases writes
    · rcases strides.turn.change.opened (client.places t f (strides.top ▸ List.mem_cons_self)) _
        (List.mem_of_getElem? found) with serves | ⟨s, grace, same⟩
      · have none := p.serves_of_writes writes
        rw [show p.serves = true from serves] at none
        cases none
      · cases same
  | @goes f o rest begun flow w₂ strides stack =>
    rw [stack] at top
    have linked : Linked (f :: rest) := strides.top ▸ client.linked u
    have new (hp : .connection k p ∈ flow.frames) : w'.current = some (u, .ok .nothing) := by
      obtain ⟨next, rfl⟩ := (client.leads strides).writes hp writes
      exact strides.lands.next.1
    have member : Frame.connection k p ∈ flow.frames ++ rest := top ▸ List.mem_cons_self
    rcases List.mem_append.1 member with there | below
    · exact new there
    · rw [linked.writes below] at writes
      cases writes

end World
end LanguageClient
