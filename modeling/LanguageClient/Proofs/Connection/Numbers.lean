import LanguageClient.Proofs.Client.Dues
import LanguageClient.Proofs.Workspace.Wiring

/-!
The numbers of requests, in any history: no two requests of a connection have the same, what a connection
waits for are requests that it has made, and once it has ended it waits for nothing.
-/

namespace LanguageClient

open Schedule

namespace Moment

variable {m : Moment} {w' : World}

/-- Who starts to read from a connection does so for the owner that it has. -/
def Fair (m : Moment) : Prop :=
  ∀ k owner, m.act = some (.listen k owner) → owner = (m.world.connection k).owner

/-- Where a task may begin from outside: at a call, or to read from a connection. -/
def Admits (m : Moment) (f : Frame) : Prop :=
  m.Begins f ∨ ∃ k owner, m.act = some (.listen k owner) ∧ f = .connection k (.read .start)

theorem Goes.fair_moves (goes : m.Goes w') (sound : m.world.Sound) (fair : m.Fair) :
    World.Moves m.Admits (· < m.world.loop.cells.length) m.world w' := by
  cases goes with
  | step w => exact World.step_moves sound sound.covers
  | take idle a =>
    refine World.take_moves (sound.calm idle) idle ?_ ?_ ?_
    · intro k owner same
      exact ⟨fair k owner (congrArg some same), .inr ⟨k, owner, congrArg some same, rfl⟩⟩
    · intro c same
      exact .inl ⟨c, congrArg some same, rfl⟩
    · intro t _ inside
      exact sound.inside inside
  | tick idle => exact World.tick_moves (sound.calm idle) idle
  | wait idle _ => exact World.waitUntil_moves (sound.calm idle) idle _

theorem Goes.fair_sound (goes : m.Goes w') (sound : m.world.Sound) (fair : m.Fair) : w'.Sound := by
  refine sound.move (goes.fair_moves sound fair) ?_
  rintro f (⟨c, -, rfl⟩ | ⟨k, owner, -, rfl⟩)
  · exact World.frame_first c
  · exact ⟨rfl, rfl⟩

end Moment

/-- What has been asked for through a connection, as far as it goes by numbers. -/
def Connection.ledger (x : Connection) : Nat × List (Nat × CellId) × Bool := (x.nextId, x.pending, x.closed)

namespace World

variable {may : Frame → Prop} {R : CellId → Prop} {t u : TaskId} {c d : CellId} {w w' w₂ first : World}
variable {rest begun : List Frame} {flow : Flow Frame Result} {k : ConnectionId} {id : Nat}
variable {ms : List Moment} {m : Moment}

/-- What is kept by every moment of a fair history holds at its end. -/
theorem Path.fair_keeps (path : Path first ms w) (sound : first.Sound) (fair : ∀ m ∈ ms, m.Fair)
    {I : List Moment → World → Prop} (begins : I [] first)
    (next : ∀ ms m w', m.world.Sound → w'.Sound → m.Goes w' →
      Moves m.Admits (· < m.world.loop.cells.length) m.world w' → I ms m.world → I (ms ++ [m]) w') :
    w.Sound ∧ I ms w := by
  refine path.keeps (I := fun ms w => (∀ m ∈ ms, m.Fair) → w.Sound ∧ I ms w)
    (fun _ => ⟨sound, begins⟩) ?_ fair
  intro ms m w' _ ih goes fair
  obtain ⟨sound, known⟩ := ih fun m' member => fair m' (List.mem_append_left _ member)
  have last := fair m (List.mem_append_right _ (List.mem_singleton_self m))
  have sound' := goes.fair_sound sound last
  exact ⟨sound', next ms m w' sound sound' goes (goes.fair_moves sound last) known⟩

/-- A request has been made through a connection that there was. -/
def Posed (ms : List Moment) (t : TaskId) (k : ConnectionId) (id : Nat) (c : CellId) : Prop :=
  ∃ m ∈ ms, m.Asks t k id c ∧ k < m.world.connections.length

theorem posed_next : Posed (ms ++ [m]) t k id c ↔
    Posed ms t k id c ∨ (m.Asks t k id c ∧ k < m.world.connections.length) := by
  constructor
  · rintro ⟨m', member, asks⟩
    rcases List.mem_append.1 member with old | last
    · exact .inl ⟨m', old, asks⟩
    · cases List.mem_singleton.1 last
      exact .inr asks
  · rintro (⟨m', member, asks⟩ | asks)
    · exact ⟨m', List.mem_append_left _ member, asks⟩
    · exact ⟨m, List.mem_append_right _ (List.mem_singleton_self m), asks⟩

theorem Posed.asked (h : Posed ms t k id c) : Asked ms t k id c :=
  let ⟨m, member, asks, _⟩ := h
  ⟨m, member, asks⟩

/-- What a request makes of its connection, and where it goes on. -/
theorem Strides.enrolls {method : String} {params : Value} {timeout : Timeout} {r : Result}
    (strides : Strides R w w' t (.connection k (.request method params timeout)) (.ok r) rest begun flow w₂)
    (alive : (w.connection k).closed = false) :
    flow = .call (.connection k .drain)
        (.connection k (.requestWritten (w.connection k).nextId w.loop.cells.length timeout)) ∧
      w'.core.connections =
        (w.core.setConnection k (Connection.enroll (w.connection k).nextId w.loop.cells.length)).connections := by
  let w₀ : World := { w with current := none }
  obtain ⟨-, leads, -, last, core⟩ := sendRequest_spec (w := w₀) (R := R)
    (A := w₀.Answers (.connection k (.request method params timeout))) method params timeout alive rfl
  have steps : w₀.sendRequest k method params timeout = (flow, w₂) := strides.steps
  rw [steps] at leads core
  refine ⟨leads, ?_⟩
  rw [strides.lands.aside.core, core]
  rfl

theorem ledger_core (k : ConnectionId) (w : World) : (w.core.connection k).ledger = (w.connection k).ledger := by
  rw [connection_core]
  rfl

theorem ledger_of_le (out : w.connections.length ≤ k) : (w.connection k).ledger = (0, [], false) := by
  rw [connection, List.getD_eq_getElem?_getD, List.getElem?_eq_none out]
  rfl

/-- A request enters the ledger of its connection. -/
theorem ledger_of_asks (asks : m.Asks t k id c) (sound : m.world.Sound) (move : Move may R m.world w')
    (inside : k < m.world.connections.length) :
    (w'.connection k).ledger = (id + 1, (m.world.connection k).pending ++ [(id, c)], false) := by
  obtain ⟨⟨method, params, timeout, r, rest, runs⟩, alive, rfl, rfl⟩ := asks
  obtain ⟨begun, flow, w₂, strides⟩ := sound.strides_of_runs move runs
  have count : k < m.world.core.connections.length := Nat.lt_of_lt_of_eq inside (List.length_map _).symm
  have enrolled : w'.core.connection k = Connection.enroll (m.world.connection k).nextId
      m.world.loop.cells.length (m.world.core.connection k) := by
    rw [Core.connection, (strides.enrolls alive).2]
    simp [Core.setConnection, Core.connection, List.getD_eq_getElem?_getD, count]
  rw [← ledger_core, enrolled, connection_core, ← alive]
  rfl

/-- What a move does to the requests of a connection. -/
inductive Books (m : Moment) (w' : World) (k : ConnectionId) : Prop
  | same (same : (w'.connection k).ledger = (m.world.connection k).ledger)
  | poses {t : TaskId} (asks : m.Asks t k (m.world.connection k).nextId m.world.loop.cells.length)
    (inside : k < m.world.connections.length)
    (ledger : (w'.connection k).ledger = ((m.world.connection k).nextId + 1,
      (m.world.connection k).pending ++ [((m.world.connection k).nextId, m.world.loop.cells.length)], false))
  | withdraws {id : Nat} (ledger : (w'.connection k).ledger = ((m.world.connection k).nextId,
      (m.world.connection k).pending.filter (fun p => p.1 ≠ id), (m.world.connection k).closed))
  | ends (ledger : (w'.connection k).ledger = ((m.world.connection k).nextId, [], true))
  | opens (new : k = m.world.connections.length) (ledger : (w'.connection k).ledger = (1, [], false))

theorem Alters.books {f : Frame} {o : Outcome Result}
    (alters : Alters m.world k f o begun flow (w'.core.connection k))
    (strides : Strides R m.world w' t f o rest begun flow w₂) : Books m w' k := by
  have known : (w'.connection k).ledger = (w'.core.connection k).ledger := (ledger_core k w').symm
  have before : (m.world.core.connection k).ledger = (m.world.connection k).ledger := ledger_core k m.world
  generalize w'.core.connection k = x at alters known
  cases alters with
  | same => exact .same (known.trans before)
  | requests alive =>
    have ledger : (w'.connection k).ledger = ((m.world.connection k).nextId + 1,
        (m.world.connection k).pending ++ [((m.world.connection k).nextId, m.world.loop.cells.length)],
        false) := by
      rw [known, connection_core, ← alive]
      rfl
    refine .poses ⟨⟨_, _, _, _, _, strides.runs, strides.top⟩, alive, rfl, rfl⟩ ?_ ledger
    -- a connection that is not there does not take the request down
    refine Nat.lt_of_not_le fun out => ?_
    have count : w'.connections.length = m.world.connections.length := by
      have lengths := congrArg List.length (strides.enrolls alive).2
      simpa [Core.setConnection, core] using lengths
    rw [ledger_of_le (count ▸ out)] at ledger
    have pending := congrArg (fun x => x.2.1) ledger
    exact List.cons_ne_nil _ _ (List.append_eq_nil_iff.1 pending.symm).2
  | @withdraws _ id =>
    refine @Books.withdraws _ _ _ id (known.trans ?_)
    rw [connection_core]
    rfl
  | ends =>
    refine .ends (known.trans ?_)
    rw [connection_core]
    rfl
  | opens new => exact .opens new known

theorem Move.books (move : Move may R m.world w') (k : ConnectionId) : Books m w' k := by
  rcases move.connection_cases k with ⟨reader, same⟩ | ⟨t, f, o, rest, begun, flow, w₂, strides, alters⟩
  · refine .same ?_
    rw [← ledger_core, ← ledger_core, same]
    rfl
  · exact alters.books strides

/-- What is known of the requests of all connections. -/
structure Numbered (ms : List Moment) (w : World) : Prop where
  past : ∀ t k id c, Posed ms t k id c → k < w.connections.length ∧ id < (w.connection k).nextId
  pending : ∀ k, ∀ p ∈ (w.connection k).pending, ∃ t, Posed ms t k p.1 p.2
  distinct : ∀ k, ((w.connection k).pending.map Prod.fst).Nodup
  closed : ∀ k, (w.connection k).closed = true → (w.connection k).pending = []

theorem Unused.numbered (unused : w.Unused) : Numbered [] w := by
  have none (k : ConnectionId) : (w.connection k).pending = [] := by
    refine List.eq_nil_iff_forall_not_mem.2 fun p member => ?_
    exact unused.held _ _ (.pending member)
  refine ⟨?_, fun k p member => ?_, fun k => ?_, fun k _ => none k⟩
  · rintro t k id c ⟨m, member, -⟩
    cases member
  · rw [none k] at member
    cases member
  · rw [none k]
    exact List.nodup_nil

section Step

variable (h : Numbered ms m.world) (sound : m.world.Sound) (move : Move may R m.world w')

include h sound move in
theorem Numbered.past_next (posed : Posed (ms ++ [m]) t k id c) :
    k < w'.connections.length ∧ id < (w'.connection k).nextId := by
  rcases posed_next.1 posed with old | ⟨asks, inside⟩
  · obtain ⟨inside, low⟩ := h.past t k id c old
    refine ⟨Nat.lt_of_lt_of_le inside move.grown.2.1, ?_⟩
    have next : (w'.connection k).ledger.1 = (w'.connection k).nextId := rfl
    rw [← next]
    cases move.books k with
    | same same => exact same ▸ low
    | poses _ _ ledger => exact ledger ▸ Nat.lt_succ_of_lt low
    | withdraws ledger | ends ledger => exact ledger ▸ low
    | opens new => exact absurd inside (Nat.not_lt.2 (Nat.le_of_eq new.symm))
  · have ledger := ledger_of_asks asks sound move inside
    have next : (w'.connection k).nextId = id + 1 := congrArg Prod.fst ledger
    exact ⟨Nat.lt_of_lt_of_le inside move.grown.2.1, next ▸ Nat.lt_succ_self id⟩

include h move in
theorem Numbered.pending_next (p : Nat × CellId) (member : p ∈ (w'.connection k).pending) :
    ∃ t, Posed (ms ++ [m]) t k p.1 p.2 := by
  have pending : (w'.connection k).ledger.2.1 = (w'.connection k).pending := rfl
  rw [← pending] at member
  have old (member : p ∈ (m.world.connection k).pending) : ∃ t, Posed (ms ++ [m]) t k p.1 p.2 :=
    let ⟨t, posed⟩ := h.pending k p member
    ⟨t, posed_next.2 (.inl posed)⟩
  cases move.books k with
  | same same =>
    rw [same] at member
    exact old member
  | @poses t asks inside ledger =>
    rw [ledger] at member
    rcases List.mem_append.1 member with before | new
    · exact old before
    · cases List.mem_singleton.1 new
      exact ⟨t, posed_next.2 (.inr ⟨asks, inside⟩)⟩
  | withdraws ledger =>
    rw [ledger] at member
    exact old (List.mem_filter.1 member).1
  | ends ledger | opens _ ledger =>
    rw [ledger] at member
    cases member

include h move in
theorem Numbered.distinct_next (k : ConnectionId) : ((w'.connection k).pending.map Prod.fst).Nodup := by
  have pending : (w'.connection k).ledger.2.1 = (w'.connection k).pending := rfl
  rw [← pending]
  cases move.books k with
  | same same => exact same ▸ h.distinct k
  | poses asks inside ledger =>
    rw [ledger]
    dsimp only
    rw [List.map_append, List.nodup_append]
    refine ⟨h.distinct k, List.pairwise_singleton _ _, ?_⟩
    -- the new number is above all that there have been
    rintro a old b new rfl
    obtain ⟨p, member, rfl⟩ := List.mem_map.1 old
    obtain ⟨t, posed⟩ := h.pending k p member
    have low := (h.past t k p.1 p.2 posed).2
    exact absurd (List.mem_singleton.1 new) (Nat.ne_of_lt low)
  | withdraws ledger =>
    rw [ledger]
    exact (h.distinct k).sublist (List.Sublist.map _ List.filter_sublist)
  | ends ledger | opens _ ledger =>
    rw [ledger]
    exact List.nodup_nil

include h move in
theorem Numbered.closed_next (closed : (w'.connection k).closed = true) : (w'.connection k).pending = [] := by
  have shut : (w'.connection k).ledger.2.2 = (w'.connection k).closed := rfl
  have pending : (w'.connection k).ledger.2.1 = (w'.connection k).pending := rfl
  rw [← shut] at closed
  rw [← pending]
  cases move.books k with
  | same same =>
    rw [same] at closed ⊢
    exact h.closed k closed
  | poses _ _ ledger | opens _ ledger =>
    rw [ledger] at closed
    cases closed
  | withdraws ledger =>
    rw [ledger] at closed ⊢
    have none := h.closed k closed
    simp [none]
  | ends ledger => rw [ledger]

include h sound move in
theorem Numbered.next : Numbered (ms ++ [m]) w' where
  past _ _ _ _ := h.past_next sound move
  pending _ := h.pending_next move
  distinct := h.distinct_next move
  closed _ := h.closed_next move

end Step

theorem Path.numbered (path : Path first ms w) (unused : first.Unused) (fair : ∀ m ∈ ms, m.Fair) :
    w.Sound ∧ Numbered ms w :=
  path.fair_keeps unused.sound fair unused.numbered fun _ _ _ sound _ _ moves known =>
    known.next sound moves.move

/-- A number of a connection is given to one request. -/
theorem Path.number_once (path : Path first ms w) (unused : first.Unused) (fair : ∀ m ∈ ms, m.Fair)
    (h : Posed ms t k id c) (h' : Posed ms u k id d) : t = u ∧ c = d := by
  induction path with
  | first =>
    obtain ⟨m, member, -⟩ := h
    cases member
  | @next ms m w' earlier goes ih =>
    have fair : ∀ m ∈ ms, m.Fair := fun m' member => fair m' (List.mem_append_left _ member)
    obtain ⟨-, numbered⟩ := earlier.numbered unused fair
    have clash {t : TaskId} {c : CellId} (old : Posed ms t k id c)
        (new : id = (m.world.connection k).nextId) : False :=
      absurd new (Nat.ne_of_lt (numbered.past t k id c old).2)
    rcases posed_next.1 h with old | ⟨new, -⟩ <;> rcases posed_next.1 h' with old' | ⟨new', -⟩
    · exact ih fair old old'
    · exact (clash old new'.2.2.1).elim
    · exact (clash old' new.2.2.1).elim
    · obtain ⟨⟨_, _, _, _, _, runs, -⟩, -, -, cell⟩ := new
      obtain ⟨⟨_, _, _, _, _, runs', -⟩, -, -, cell'⟩ := new'
      cases runs.symm.trans runs'
      exact ⟨rfl, cell.trans cell'.symm⟩

end World
end LanguageClient
