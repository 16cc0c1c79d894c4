import LanguageClient.Proofs.Client.Writes
import LanguageClient.Proofs.Connection.Answering
import LanguageClient.Proofs.World.Deliveries

/-!
The responses that a backend has got: one for each task that has answered a request, and no other.
-/

namespace LanguageClient

open Schedule

namespace Core

/-- The responses that have been written to a backend. -/
def responses (b : BackendId) (x : Core) : List Value :=
  (x.inbox b).received.filter fun message => !Connection.isCall message

theorem responses_send (b b' : BackendId) (id : Value) (result : Except Failure Value) (last : Bool)
    (x : Core) : (x.send b' (Connection.response id result) last).responses b = x.responses b ∨
      (x.send b' (Connection.response id result) last).responses b =
        x.responses b ++ [Connection.response id result] := by
  have known : (x.send b' (Connection.response id result) last).inbox b = x.inbox b ∨
      b = b' ∧ (x.send b' (Connection.response id result) last).inbox b =
        (x.inbox b).take (Connection.response id result) last :=
    World.getD_modify b' b (Inbox.take (Connection.response id result) last) x.inboxes (Backend.inbox default)
  rcases known with same | ⟨-, same⟩
  · exact .inl (congrArg (fun i : Inbox => i.received.filter fun message => !Connection.isCall message) same)
  · rw [responses, same, Inbox.take]
    split
    · exact .inl rfl
    · refine .inr ((List.filter_append _ _).trans ?_)
      rw [List.filter_singleton, Connection.isCall_response]
      rfl

end Core

namespace World

variable {may : Frame → Prop} {R : CellId → Prop} {t : TaskId} {w w' w₂ first : World} {b : BackendId}
variable {f : Frame} {rest begun : List Frame} {flow : Flow Frame Result} {o : Outcome Result} {r : Result}
variable {k : ConnectionId} {id : Value} {result : Except Failure Value} {ms : List Moment} {m : Moment}
variable {message : Value}

/-- Whatever is written is asked or told by someone, but for what answers a request. -/
theorem Writes.isCall (h : Writes w f b message)
    (other : ∀ k id result, f ≠ .connection k (.answerReady id result)) : Connection.isCall message = true := by
  cases h with
  | notes | flushes => exact Connection.isCall_notification _ _
  | requests => exact Connection.isCall_request _ _ _
  | answers => exact absurd rfl (other _ _ _)

/-- A response is written where the connection has its backend. -/
theorem Strides.responds
    (strides : Strides R w w' t (.connection k (.answerReady id result)) (.ok r) rest begun flow w₂)
    (alive : (w.connection k).closed = false) :
    ∃ last, w'.core = w.core.send (w.connection k).backend (Connection.response id result) last := by
  let w₀ : World := { w with current := none }
  have steps : w₀.sendAnswer k id result = (flow, w₂) := strides.steps
  have dead : ¬ (w₀.connection k).closed = true := by
    rw [show (w₀.connection k).closed = false from alive]
    exact Bool.false_ne_true
  rw [sendAnswer, if_neg dead] at steps
  obtain ⟨-, last, core⟩ := send_spec (A := .none) (R := fun _ => False)
    (w₀.connection k).backend (Connection.response id result) w₀
  have same : w₀.write k (Connection.response id result) = w₂ := congrArg Prod.snd steps
  refine ⟨last, ?_⟩
  rw [strides.lands.aside.core, ← same]
  exact core

/-- Nothing is written in answer if the task has been given up, or nothing can be sent any more. -/
theorem Strides.withholds
    (strides : Strides R w w' t (.connection k (.answerReady id result)) o rest begun flow w₂)
    (late : (∃ e, o = .error e) ∨ (w.connection k).closed = true) : w'.core = w.core := by
  let w₀ : World := { w with current := none }
  have same : w₀ = w₂ := by
    cases o with
    | error e => exact congrArg Prod.snd strides.steps
    | ok r =>
      have closed : (w₀.connection k).closed = true := by
        rcases late with ⟨e, same⟩ | closed
        · cases same
        · exact closed
      have steps : w₀.sendAnswer k id result = (flow, w₂) := strides.steps
      rw [sendAnswer, if_pos closed] at steps
      exact congrArg Prod.snd steps
  rw [strides.lands.aside.core, ← same]
  rfl

/-- A move writes no response, or the one that a task has ready. -/
theorem Sound.responses (sound : m.world.Sound) (move : Move may R m.world w') (b : BackendId) :
    w'.core.responses b = m.world.core.responses b ∨ ∃ t k id result r rest,
      m.Runs t (.connection k (.answerReady id result)) (.ok r) rest ∧ (m.world.connection k).closed = false ∧
      w'.core.responses b = m.world.core.responses b ++ [Connection.response id result] := by
  by_cases ready : ∃ t k id result o rest, m.Runs t (.connection k (.answerReady id result)) o rest
  · obtain ⟨t, k, id, result, o, rest, runs⟩ := ready
    obtain ⟨begun, flow, w₂, strides⟩ := sound.strides_of_runs move runs
    have withheld (late : (∃ e, o = .error e) ∨ (m.world.connection k).closed = true) :
        w'.core.responses b = m.world.core.responses b := congrArg (Core.responses b) (strides.withholds late)
    cases o with
    | error e => exact .inl (withheld (.inl ⟨e, rfl⟩))
    | ok r =>
      cases alive : (m.world.connection k).closed with
      | true => exact .inl (withheld (.inr alive))
      | false =>
        obtain ⟨last, core⟩ := strides.responds alive
        rw [core]
        exact (Core.responses_send b _ id result last _).imp_right fun same =>
          ⟨t, k, id, result, r, rest, runs, alive, same⟩
  · obtain ⟨sent, same, all⟩ := move.delivers b
    have calls : sent.filter (fun message => !Connection.isCall message) = [] := by
      refine List.filter_eq_nil_iff.2 fun message member => ?_
      obtain ⟨t, f, o, rest, begun, flow, w₂, strides, writes⟩ := all message member
      have call := writes.isCall fun k id result same =>
        ready ⟨t, k, id, result, o, rest, strides.runs, same ▸ strides.top⟩
      simp [call]
    refine .inl ?_
    rw [Core.responses, same, List.filter_append, calls, List.append_nil]
    rfl

/-- A backend has got one response for each of some tasks, and the task has answered the request that it
was to answer. -/
structure Responded (ms : List Moment) (first w : World) (b : BackendId)
    (sent : List (TaskId × Value × Except Failure Value)) : Prop where
  responses : w.core.responses b = first.core.responses b ++ sent.map fun a => Connection.response a.2.1 a.2.2
  once : (sent.map Prod.fst).Nodup
  answers : ∀ a ∈ sent, ∃ k method params, Demanded ms a.1 k a.2.1 method params ∧
    Found ms a.1 k a.2.1 method params (some a.2.2) ∧ ∃ m ∈ ms, m.Answers a.1 k a.2.1 a.2.2

/-- A backend gets a response only to a request of a connection, and no more than one. -/
theorem backend_gets_responses_once (path : Path first ms w) (unused : first.Unused)
    (fair : ∀ m ∈ ms, m.Fair) (b : BackendId) : ∃ sent, Responded ms first w b sent := by
  induction path with
  | first => exact ⟨[], (List.append_nil _).symm, List.nodup_nil, fun _ none => nomatch none⟩
  | @next ms m w' earlier goes ih =>
    have fair' : ∀ m ∈ ms, m.Fair := fun m' member => fair m' (List.mem_append_left _ member)
    obtain ⟨sent, h⟩ := ih fair'
    obtain ⟨sound, -⟩ := earlier.numbered unused fair'
    have moves := goes.fair_moves sound (fair m (List.mem_append_right _ (List.mem_singleton_self m)))
    have old : ∀ a ∈ sent, ∃ k method params, Demanded (ms ++ [m]) a.1 k a.2.1 method params ∧
        Found (ms ++ [m]) a.1 k a.2.1 method params (some a.2.2) ∧
        ∃ m' ∈ ms ++ [m], m'.Answers a.1 k a.2.1 a.2.2 := by
      intro a member
      obtain ⟨k, method, params, demanded, found, m', member', answers⟩ := h.answers a member
      exact ⟨k, method, params, demanded_next.2 (.inl demanded), found.later m, m',
        List.mem_append_left _ member', answers⟩
    rcases sound.responses moves.move b with same | ⟨t, k, id, result, r, rest, runs, alive, same⟩
    · exact ⟨sent, same.trans h.responses, h.once, old⟩
    obtain ⟨method, params, demanded⟩ := (earlier.engaged unused fair').due t _ (runs.2 ▸ List.mem_cons_self) k id rfl
    obtain ⟨rfl, found, unanswered⟩ := (earlier.answering unused fair' demanded).of_ready sound runs.2
    refine ⟨sent ++ [(t, id, result)], ?_, ?_, ?_⟩
    · rw [same, h.responses, List.map_append, List.append_assoc]
      rfl
    · rw [List.map_append, List.nodup_append]
      refine ⟨h.once, List.pairwise_singleton _ _, ?_⟩
      -- the task has written nothing before
      rintro u old v new rfl
      cases List.mem_singleton.1 new
      obtain ⟨a, member, rfl⟩ := List.mem_map.1 old
      obtain ⟨k', method', params', demanded', -, m', member', answers⟩ := h.answers a member
      cases earlier.demanded_once unused fair' demanded demanded'
      exact unanswered m' member' ⟨_, answers⟩
    · intro a member
      rcases List.mem_append.1 member with before | last
      · exact old a before
      · cases List.mem_singleton.1 last
        exact ⟨k, method, params, demanded_next.2 (.inl demanded), found.later m, m,
          List.mem_append_right _ (List.mem_singleton_self m), ⟨r, runs⟩, alive⟩

/-- A response that is written reaches the backend, unless its input breaks. -/
theorem Path.answers_reached (path : Path first ms w) (unused : first.Unused) (fair : ∀ m ∈ ms, m.Fair)
    (member : m ∈ ms) (answers : m.Answers t k id result)
    (inside : (m.world.connection k).backend < m.world.backends.length) :
    w.core.Reached (m.world.connection k).backend (Connection.response id result) := by
  induction path with
  | first => cases member
  | @next ms m' w' earlier goes ih =>
    have fair' : ∀ m ∈ ms, m.Fair := fun m' member => fair m' (List.mem_append_left _ member)
    obtain ⟨sound, -⟩ := earlier.numbered unused fair'
    have moves := goes.fair_moves sound (fair m' (List.mem_append_right _ (List.mem_singleton_self m')))
    rcases List.mem_append.1 member with old | last
    · exact moves.move.feeds _ _ (ih fair' old)
    · cases List.mem_singleton.1 last
      obtain ⟨⟨r, runs⟩, alive⟩ := answers
      obtain ⟨begun, flow, w₂, strides⟩ := sound.strides_of_runs moves.move runs
      obtain ⟨last, core⟩ := strides.responds alive
      rw [core]
      refine Core.reached_send ?_ _ last
      rw [World.core, List.length_map]
      exact inside

/-- Two requests of a backend at once, one of a method that has no handler. -/
def consulted : World :=
  let listening := (ofConnection (Connection.make "backend" 0 (.recorder true) .never [("echo", .echo)])).take
    (.listen 0 (.recorder true))
  let asks (id : Value) (method : String) := Wire.frame
    (.record [("id", id), ("method", .text method), ("params", .text "a")])
  (listening.take (.backend 0 (.write (asks (.int 1) "echo" ++ asks (.text "x") "other")))).settle 40

example : (consulted.backend 0).received =
    [Connection.response (.int 1) (.ok (.text "a")), Connection.response (.text "x") (.ok .null)] := by
  decide +kernel

end World
end LanguageClient
