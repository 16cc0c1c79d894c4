import LanguageClient.Proofs.Client.Shift
import LanguageClient.Proofs.Client.Guards

/-!
What the cells of a client can be settled with: a request with the response that was read while it
waited, or with the end of its connection; the wait for a process when that has ended; everything
else with nothing.
-/

namespace LanguageClient

open Schedule

/-- A request is given its number, and the cell for what it comes to. -/
def Moment.Asks (m : Moment) (t : TaskId) (k : ConnectionId) (id : Nat) (c : CellId) : Prop :=
  (∃ method params timeout r rest,
      m.Runs t (.connection k (.request method params timeout)) (.ok r) rest) ∧
    (m.world.connection k).closed = false ∧ id = (m.world.connection k).nextId ∧
    c = m.world.loop.cells.length

namespace World

variable {may : Frame → Prop} {R : CellId → Prop} {t u : TaskId} {c : CellId} {w w' w₂ : World}
variable {f : Frame} {rest begun : List Frame} {o : Outcome Result} {flow : Flow Frame Result}
variable {k : ConnectionId} {id : Nat} {ms : List Moment} {m : Moment} {r : Role}

def Asked (ms : List Moment) (t : TaskId) (k : ConnectionId) (id : Nat) (c : CellId) : Prop :=
  ∃ m ∈ ms, m.Asks t k id c

/-- What a cell of a role is settled with. -/
def Due (ms : List Moment) (w : World) : Role → Outcome Result → Prop
  | .loose, o => o = .ok .nothing
  | .exit b, o => o = .ok .nothing ∧ w.Exited b
  | .request k id, o => ∃ t c, Asked ms t k id c ∧ w.loop.outcome? c = some o ∧
    (Told ms k id o ∨ ∃ name, o = .error (.closed name .ended))

/-- A cell that nobody settles but who holds it for one role. -/
structure Typed (ms : List Moment) (w : World) (r : Role) (c : CellId) : Prop where
  inside : c < w.loop.cells.length
  kind : ∀ t, w.loop.kind? c ≠ some (.task t)
  held : ∀ r', w.Held r' c → r' = r
  asked : ∀ k id, r = .request k id → ∃ t, Asked ms t k id c
  settled : ∀ o, w.loop.outcome? c = some o → o = .error .cancelled ∨ Due ms w r o

theorem Asked.later (h : Asked ms t k id c) (m : Moment) : Asked (ms ++ [m]) t k id c :=
  let ⟨m', member, asks⟩ := h
  ⟨m', List.mem_append_left _ member, asks⟩

theorem Told.later (h : Told ms k id o) (m : Moment) : Told (ms ++ [m]) k id o :=
  let ⟨m', member, tells⟩ := h
  ⟨m', List.mem_append_left _ member, tells⟩

theorem Due.later (h : Due ms w r o) (moved : Moved w w') (m : Moment) : Due (ms ++ [m]) w' r o := by
  cases r with
  | loose => exact h
  | exit b => exact ⟨h.1, moved.exits b h.2⟩
  | request k id =>
    obtain ⟨t, c, asked, settled, told⟩ := h
    exact ⟨t, c, asked.later m, moved.settles.outcome settled, told.imp_left fun told => told.later m⟩

/-- A reader that has been given up settles requests only with the end of its connection. -/
theorem ended_of_failed {k' : ConnectionId} {point : Wire.Point} {e : Failure}
    (runs : w.current = some (t, .error e)) (top : w.stack t = .connection k' (.read point) :: rest)
    (held : ∀ r', w.Held r' c → r' = .request k id) (unsettled : w.loop.outcome? c = none)
    (inside : c < w.loop.cells.length) (settled : w.step.loop.outcome? c = some o)
    (calm : o ≠ .error .cancelled) : ∃ name, o = .error (.closed name .ended) := by
  let w₀ : World := { w with current := none }
  have mayEnd : (Frame.connection k' .answersStopped).mayEnd k' := rfl
  obtain ⟨begun, turn, -⟩ := endConnection_turn (R := fun _ => False) (o := .ok .nothing) mayEnd
    (Quiet.refl (A := w₀.Answers (.connection k' .answersStopped)) w₀) (calm_ok .nothing)
  have landed : w.step.loop.outcome? c = (w₀.endConnection k').loop.outcome? c := by
    have top' : w₀.stack t = .connection k' (.read point) :: rest := top
    rw [step, runs]
    dsimp only
    rw [stepTask, top']
    rfl
  have unsettled' : w₀.loop.outcome? c = none := unsettled
  cases turn.keeps.settled c o unsettled' (landed ▸ settled) with
  | holder r' held' earned =>
    have same := held r' (held'.aside fun _ hc => hc)
    subst same
    rcases earned with ⟨_, _, _, _, other, -⟩ | ⟨-, ended⟩
    · cases other
    · exact ended
  | cancelled same => exact absurd same calm
  | fresh _ fresh => exact absurd inside (Nat.not_lt.2 fresh.new)

namespace Typed

/-- A cell keeps its role. -/
theorem later (h : Typed ms m.world r c) (goes : m.Goes w') (sound : m.world.Sound)
    (moved : Moved m.world w') : Typed (ms ++ [m]) w' r c := by
  have old {r' : Role} (held : w'.Held r' c) : m.world.Held r' c := by
    rcases moved.offered r' c held with held | ⟨fresh, -⟩
    · exact held
    · exact absurd h.inside (Nat.not_lt.2 fresh.new)
  refine ⟨Nat.lt_of_lt_of_le h.inside moved.cells, fun t => ?_, fun r' held => h.held r' (old held),
    fun k id same => ?_, fun o settled => ?_⟩
  · rw [moved.kind c h.inside]
    exact h.kind t
  · obtain ⟨t, asked⟩ := h.asked k id same
    exact ⟨t, asked.later m⟩
  · cases before : m.world.loop.outcome? c with
    | some o' =>
      have same := (moved.settles.outcome before).symm.trans settled
      cases same
      exact (h.settled o before).imp_right fun due => due.later moved m
    | none =>
      rcases moved.settled c o before settled with
        (⟨r', held, earned⟩ | cancelled | ⟨_, fresh⟩) | ⟨t, ends, same⟩
      · have same := h.held r' held
        subst same
        cases r' with
        | loose => exact .inr earned
        | exit b => exact .inr earned
        | request k id =>
          obtain ⟨t, asked⟩ := h.asked k id rfl
          refine Classical.or_iff_not_imp_left.2 fun calm => ⟨t, c, asked.later m, settled, ?_⟩
          obtain ⟨u, o', f, rest, runs, top, hears | ⟨-, ended⟩⟩ := earned
          · have pending : (id, c) ∈ (m.world.connection k).pending := by
              cases held with
              | data held =>
                cases held with
                | pending member => exact member
            cases o' with
            | ok r =>
              exact .inl ⟨m, List.mem_append_right _ (List.mem_singleton_self m), u, r, f, rest, c,
                ⟨runs, top⟩, hears, pending, before⟩
            | error e =>
              obtain ⟨point, _, _, _, rfl, -⟩ := hears
              have busy : m.world.current ≠ none := by simp [runs]
              cases goes with
              | step w => exact .inr (ended_of_failed runs top h.held before h.inside settled calm)
              | take idle => exact absurd idle busy
              | tick idle => exact absurd idle busy
              | wait idle => exact absurd idle busy
          · exact .inr ended
      · exact .inl cancelled
      · exact absurd h.inside (Nat.not_lt.2 fresh.new)
      · exact absurd (sound.cells t (sound.running ends.1)) (same ▸ h.kind t)

/-- A new cell has the role that the step has made it for. -/
theorem made (sound : m.world.Sound) (moved : Moved m.world w') (new : m.world.loop.cells.length ≤ c)
    (plain : ∃ k, w'.loop.kind? c = some k ∧ ∀ t, k ≠ .task t)
    (gives : ∀ r', m.world.Grants.gives r' → r' = r)
    (asked : ∀ k id, r = .request k id → ∃ t, Asked (ms ++ [m]) t k id c) :
    Typed (ms ++ [m]) w' r c := by
  obtain ⟨kind, known, other⟩ := plain
  have fresh {r' : Role} (held : m.world.Held r' c) : False :=
    Nat.not_lt.2 new (sound.held r' c held)
  refine ⟨Loop.lt_of_kind? known, fun t same => ?_, fun r' held => ?_, asked, fun o settled => ?_⟩
  · rw [known] at same
    exact other t (Option.some.inj same)
  · rcases moved.offered r' c held with held | ⟨-, given⟩
    · exact (fresh held).elim
    · exact gives r' given
  · have before : m.world.loop.outcome? c = none := by
      rw [Loop.outcome?, List.getElem?_eq_none new]
      rfl
    rcases moved.settled c o before settled with
      (⟨r', held⟩ | cancelled | ⟨r', -, given, earned⟩) | ⟨t, ends, same⟩
    · exact (fresh held).elim
    · exact .inl cancelled
    · have same := gives r' given
      subst same
      cases r' with
      | loose => exact .inr earned
      | exit b => exact .inr earned
      | request k id =>
        obtain ⟨t, o₁, f, rest, runs, top, offers⟩ := given
        obtain ⟨t', o₂, f', rest', runs', top', settles⟩ := earned
        rw [runs] at runs'
        cases runs'
        rw [top] at top'
        cases top'
        rcases settles with ⟨point, _, _, _, rfl, -⟩ | ⟨mayEnd, -⟩
        · cases offers
        · exact absurd offers (not_offers_request mayEnd)
    · exact absurd (same ▸ sound.inside (sound.running ends.1)) (Nat.not_lt.2 new)

end Typed

/-- What a step has been asked for that asks for a response. -/
theorem asks_of_strides {method : String} {params : Value} {timeout : Timeout} {r : Result}
    (s : Strides R m.world w' t (.connection k (.request method params timeout))
      (.ok r) rest begun flow w₂) (alive : (m.world.connection k).closed = false) :
    Asked (ms ++ [m]) t k (m.world.connection k).nextId m.world.loop.cells.length :=
  ⟨m, List.mem_append_right _ (List.mem_singleton_self m),
    ⟨_, _, _, _, _, s.runs, s.top⟩, alive, rfl, rfl⟩

end World
end LanguageClient
