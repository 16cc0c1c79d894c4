import LanguageClient.Proofs.Client.Readers
import LanguageClient.Proofs.Client.Stages

/-!
A session by itself: it is started and stopped, notifications are sent, and its backend does what it
likes. All tasks belong to this session, and it has no more than one backend and one connection.
-/

namespace LanguageClient

open Schedule

/-- Done by those who start a session, stop it or notify its backend, or by a backend. -/
def Act.isUse (s : SessionId) : Act → Bool
  | .call (.startSession s') | .call (.notifySession s' ..) | .call (.stopSession s' _) => s' = s
  | .backend .. => true
  | _ => false

/-- Where a call begins that starts a session, stops it or notifies its backend. -/
def Frame.isUse (s : SessionId) : Frame → Bool
  | .session s' .start | .session s' (.notify ..) | .session s' (.stop _) => s' = s
  | _ => false

namespace Frame

variable {s : SessionId} {f : Frame}

theorem isUse_cases (h : f.isUse s = true) : f = .session s .start ∨
    (∃ method params, f = .session s (.notify method params)) ∨
      ∃ timeout, f = .session s (.stop timeout) := by
  unfold isUse at h
  split at h
  · exact .inl (by simpa using h)
  · exact .inr (.inl (by simpa using h))
  · exact .inr (.inr (by simpa using h))
  · cases h

theorem isCall_of_use (h : f.isUse s = true) : f.isCall = true := by
  rcases isUse_cases h with rfl | ⟨method, params, rfl⟩ | ⟨timeout, rfl⟩ <;> rfl

theorem ne_connection_of_use (h : f.isUse s = true) (k : ConnectionId) (p : Connection.Stage) :
    f ≠ .connection k p := by
  rintro rfl
  cases h

end Frame

namespace World

variable {may : Frame → Prop} {R : CellId → Prop} {t u : TaskId} {w w' w₂ : World}
variable {f g : Frame} {rest begun : List Frame} {o : Outcome Result} {flow : Flow Frame Result}
variable {s : SessionId} {m : Moment}

theorem isUse_of_begins (use : ∀ a, m.act = some a → a.isUse s = true) (h : m.Begins g) :
    g.isUse s = true := by
  obtain ⟨c, same, rfl⟩ := h
  have known := use _ same
  cases c with
  | startSession | notifySession | stopSession => exact known
  | _ => cases known

theorem isTame_of_use {a : Act} (h : a.isUse s = true) : a.isTame = true := by
  cases a with
  | cancel => cases h
  | listen => cases h
  | _ => rfl

/-- What is known of a client's tasks whatever it is used for. -/
structure Solo (w : World) : Prop where
  sound : w.Sound
  client : w.Client
  guarded : w.Guarded
  readers : w.Readers
  prompt : w.Prompt

theorem Solo.goes (h : m.world.Solo) (goes : m.Goes w')
    (use : ∀ a, m.act = some a → a.isUse s = true) :
    w'.Solo ∧ Moves m.Begins (· < m.world.loop.cells.length) m.world w' := by
  have tame (a : Act) (same : m.act = some a) : a.isTame = true := isTame_of_use (use a same)
  have first (g : Frame) (begins : m.Begins g) := isUse_of_begins use begins
  have calls (g : Frame) (begins : m.Begins g) := Frame.isCall_of_use (first g begins)
  have moves := goes.moves h.sound h.sound.covers tame
  have sound : w'.Sound := h.sound.move moves fun g begins => by
    obtain ⟨c, -, rfl⟩ := begins
    exact frame_first c
  have client := h.client.move h.sound moves calls
  have guarded : w'.Guarded := by
    rcases h.client.goes goes h.sound tame with ⟨id, idle, rest, ready, same⟩ | near
    · have fired : w'.loop = ({ m.world.loop with ready := rest }).fire id .nothing := by
        rw [same]
        rfl
      exact h.guarded.fire h.sound h.client moves.moved (by rw [same]; exact idle) fired
    · exact h.guarded.move h.sound h.client client near calls
  refine ⟨⟨sound, client, guarded, h.readers.move h.client h.sound moves.move calls, ?_⟩, moves⟩
  refine h.prompt.move h.client h.sound moves.move fun k p begins => ?_
  exact absurd rfl (Frame.ne_connection_of_use (first _ begins) k p)

theorem Unused.client (h : w.Unused) : w.Client := by
  have none (t : TaskId) : w.loop.waits t = none := waits_of_le (by rw [h.loop]; exact Nat.zero_le t)
  refine ⟨fun t f hf => ?_, fun t => ?_, fun t ht => absurd ht (h.refers true t), fun t c hc => ?_,
    fun t c _ hc => ?_, fun c t u _ ht => ?_⟩
  · rw [h.stack] at hf
    cases hf
  · rw [h.stack]
    trivial
  · rw [none] at hc
    cases hc
  · rw [none] at hc
    cases hc
  · rcases ht with waits | ⟨f, hf, -⟩
    · rw [none] at waits
      cases waits
    · rw [h.stack] at hf
      cases hf

theorem Unused.solo (h : w.Unused) : w.Solo where
  sound := h.sound
  client := h.client
  guarded := by
    have idle {t : TaskId} {id : TimerId} {n : Nat} (under : w.Guarding t id n) : False := by
      obtain ⟨rest, top⟩ := under
      rw [h.stack] at top
      cases top
    refine ⟨⟨?_, ?_, ?_, fun id t u n m under => (idle under).elim⟩, fun c => ?_, fun t busy => ?_⟩
    · rw [h.loop]
      exact ⟨List.nodup_nil, fun _ armed => nomatch armed⟩
    · rw [h.loop]
      exact fun _ gone => nomatch gone
    · rw [h.loop]
      exact fun _ _ armed => nomatch armed
    · rw [h.loop]
      rfl
    · refine absurd ?_ busy
      rw [h.stack]
      exact fun _ hf => nomatch hf
  readers k u reader := absurd (.reader reader) (h.refers true u)
  prompt t k p rest top := by
    rw [h.stack] at top
    cases top

/-- What a move of a client does to the core. -/
inductive Does (R : CellId → Prop) (w w' : World) : Prop
  | rests (core : w'.core = w.core ∨ ∃ b, w'.core = w.core.cut b)
  | conducts {t : TaskId} {s : SessionId} {p : Session.Stage} {o : Outcome Result}
    {rest begun : List Frame} {flow : Flow Frame Result} {w₂ : World}
    (strides : Strides R w w' t (.session s p) o rest begun flow w₂)
    (core : w'.core = w₂.core) (conduct : Conduct w w₂ s p o flow)
  | connects {t : TaskId} {k : ConnectionId} {p : Connection.Stage} {o : Outcome Result}
    {rest begun : List Frame} {flow : Flow Frame Result} {w₂ : World}
    (strides : Strides R w w' t (.connection k p) o rest begun flow w₂)
    (change : Change { w with current := none } (.connection k p) o begun flow w'.core)

theorem Client.does (client : w.Client) (m : Move may R w w')
    (first : ∀ k p, ¬ may (.connection k p)) : Does R w w' := by
  cases m with
  | rests allowed _ _ core =>
    rcases core with same | cut | ⟨k, begun_, -⟩
    · exact .rests (.inl same)
    · exact .rests (.inr cut)
    · subst begun_
      exact absurd (allowed _ (List.mem_singleton_self _)) (first k _)
  | ends _ _ core => exact .rests (.inl core)
  | wakes _ _ _ _ core => exact .rests (.inl core)
  | @goes t o f rest begun flow w₀ w₂ runs top taken steps turn lands =>
    subst taken
    have strides : Strides R w w' t f o rest begun flow w₂ := ⟨runs, top, steps, turn, lands⟩
    have core := lands.aside.core
    have change := turn.change
    have known := client.places t f (top ▸ List.mem_cons_self)
    cases f with
    | wait p =>
      generalize w₂.core = x at change core
      cases change with
      | quiet => exact .rests (.inl core)
    | pass =>
      generalize w₂.core = x at change core
      cases change with
      | quiet => exact .rests (.inl core)
    | connection k p => exact .connects strides (core ▸ change)
    | session s p => exact .conducts strides core (strides.conducts client)
    | relay => cases known
    | roster => cases known
    | workspace => cases known

end World
end LanguageClient
