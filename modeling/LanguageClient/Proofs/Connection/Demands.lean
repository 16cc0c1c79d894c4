import LanguageClient.Proofs.Connection.Replies
import LanguageClient.Proofs.World.Calls

/-!
The requests of backends, as they are read. Each has a task begin that is to answer it, and nothing else
is answered.
-/

namespace LanguageClient

open Schedule

/-- The connection and the identifier that a task at a place is to answer for. -/
def Frame.due? : Frame → Option (ConnectionId × Value)
  | .connection k (.answer id ..) | .connection k (.answerDelayed id _) | .connection k (.answerReady id _) =>
    some (k, id)
  | _ => none

theorem Call.due?_frame (c : Call) : c.frame.due? = none := by
  cases c <;> rfl

namespace Frame

variable {f g : Frame} {k : ConnectionId} {id : Value}

/-- Where a quiet step from a place of a connection leads, that place is one of the connection. -/
theorem Succeeds.of_due (h : f.Succeeds g) (due : g.due? = some (k, id)) :
    ∃ p, f = .connection k p := by
  have here : ∃ q, g = .connection k q := by
    unfold due? at due
    split at due <;> cases due <;> exact ⟨_, rfl⟩
  obtain ⟨q, rfl⟩ := here
  have never {p : Prop} (all : f.IsLocal none none) : p := by
    cases h.local_ none none all
  cases f with
  | connection k' p =>
    cases h.local_ none (some k') rfl
    exact ⟨p, rfl⟩
  | session s p =>
    cases p with
    | consume taker => cases taker <;> exact never (by simp [IsLocal])
    | consumeAwoken taker => cases taker <;> exact never (by simp [IsLocal])
    | _ => exact never (.inl rfl)
  | wait => exact never trivial
  | pass => exact never trivial
  | _ => exact never rfl

end Frame

/-- A response is written to a request of the backend. -/
def Moment.Answers (m : Moment) (t : TaskId) (k : ConnectionId) (id : Value) (result : Except Failure Value) :
    Prop :=
  (∃ r, m.Runs t (.connection k (.answerReady id result)) (.ok r) []) ∧
    (m.world.connection k).closed = false

/-- A request of the backend is read, and the task is the next to begin. -/
def Moment.Demands (m : Moment) (t : TaskId) (k : ConnectionId) (id method params : Value) : Prop :=
  ∃ u f r rest, m.Runs u f (.ok r) rest ∧ m.world.Demands f k id method params ∧
    t = m.world.loop.tasks.length

namespace World

variable {may : Frame → Prop} {R R' : CellId → Prop} {t u : TaskId} {w w' w₂ first : World}
variable {f g : Frame} {rest begun begun' : List Frame} {flow : Flow Frame Result} {o : Outcome Result}
variable {k : ConnectionId} {id method params : Value} {ms : List Moment} {m : Moment} {x : Core}

theorem Ending.due {s : SessionId} (h : Ending w s g) : g.due? = none := by
  cases h <;> rfl

theorem Turn.begun_unique {step : Step} (h : Turn R w f o begun step) (h' : Turn R' w f o begun' step) :
    begun = begun' := by
  have piles := List.append_cancel_left (h.keeps.ops.piles.symm.trans h'.keeps.ops.piles)
  exact (List.map_inj_right fun _ _ same => (List.cons_eq_cons.1 same).1).1 piles

theorem Change.due (h : Change w f o begun flow x) (hg : g ∈ flow.frames) (due : g.due? = some (k, id)) :
    ∃ p, f = .connection k p := by
  have never {p : Prop} (h : g.due? = none) : p := by
    cases due.symm.trans h
  have one {g' : Frame} {p : Prop} (hg : g ∈ [g']) (h : g'.due? = none) : p :=
    never (List.mem_singleton.1 hg ▸ h)
  have two {g' g'' : Frame} {p : Prop} (hg : g ∈ [g', g'']) (h : g'.due? = none)
      (h' : g''.due? = none) : p := by
    rcases List.mem_cons.1 hg with rfl | hg
    · exact never h
    · exact one hg h'
  cases h with
  | quiet frames => exact (frames g hg).toSucceeds.of_due due
  | closing _ frames => exact never (frames g hg).due
  | launches _ flow_ => rcases flow_ with rfl | ⟨c, rfl⟩ <;> exact one hg rfl
  | connects _ flow_ =>
    rcases flow_ with ⟨params, timeout, -, rfl⟩ | ⟨e, rfl, -⟩
    · exact two hg rfl rfl
    · cases hg
  | greets flow_ | dismisses flow_ =>
    rcases flow_ with ⟨k, -, rfl⟩ | ⟨-, rfl⟩
    · exact two hg rfl rfl
    · exact one hg rfl
  | arrives | stops | leaves | notes | joins | stopsAll => exact one hg rfl
  | requests | answers | tells | asks | abandons | readies | creates => exact two hg rfl rfl
  | _ => cases hg

theorem readOn_due (k : ConnectionId) (point : Wire.Point) (w : World) :
    ∀ g ∈ (w.readOn k point).1.frames, g.due? = none := by
  unfold readOn
  dsimp only
  split
  · split
    · exact List.forall_mem_singleton.2 rfl
    · exact fun _ none => nomatch none
  · exact List.forall_mem_singleton.2 rfl
  · exact List.forall_mem_singleton.2 rfl
  · exact fun _ none => nomatch none
  · exact List.forall_mem_singleton.2 rfl

theorem answer_due (k : ConnectionId) (id method params : Value) (w : World) :
    ∀ g ∈ (w.answer k id method params).1.frames, g.due? = none ∨ g.due? = some (k, id) := by
  unfold answer
  dsimp only
  split
  · exact fun _ none => nomatch none
  · split
    · exact List.forall_mem_singleton.2 (.inr rfl)
    · exact List.forall_mem_singleton.2 (.inr rfl)
    · exact List.forall_mem_singleton.2 (.inr rfl)
    · exact List.forall_mem_singleton.2 (.inr rfl)
    · exact List.forall_mem_singleton.2 (.inr rfl)
    · exact List.forall_mem_singleton.2 (.inl rfl)

/-- A step of a connection goes on to answer only what it is to answer already. -/
theorem resumeConnection_due (k : ConnectionId) (p : Connection.Stage) (o : Outcome Result) (w : World) :
    ∀ g ∈ (w.resumeConnection k p o).1.frames, g.due? = none ∨ g.due? = (Frame.connection k p).due? := by
  have other (flow : Flow Frame Result) (all : ∀ g ∈ flow.frames, g.due? = none) :
      ∀ g ∈ flow.frames, g.due? = none ∨ g.due? = (Frame.connection k p).due? := fun g hg => .inl (all g hg)
  have ends (o : Outcome Result) : ∀ g ∈ (Flow.done o : Flow Frame Result).frames, g.due? = none :=
    fun _ none => nomatch none
  have one {g : Frame} (h : g.due? = none) : ∀ g' ∈ [g], g'.due? = none := List.forall_mem_singleton.2 h
  have two {g g' : Frame} (h : g.due? = none) (h' : g'.due? = none) : ∀ g'' ∈ [g, g'], g''.due? = none :=
    List.forall_mem_cons.2 ⟨h, one h'⟩
  cases o with
  | error e =>
    cases p with
    | answerWritten => cases e <;> exact other _ (ends _)
    | readerStopped =>
      cases e with
      | cancelled =>
        refine other (w.stopAnswers k).1 ?_
        unfold stopAnswers
        dsimp only
        split <;> exact one rfl
      | _ => exact other _ (ends _)
    | _ => exact other _ (ends _)
  | ok r =>
    cases p with
    | drain => exact other _ ((drain_frames k w).symm ▸ one rfl)
    | drained =>
      refine other (w.drained k).1 ?_
      unfold drained
      split <;> exact ends _
    | notify method params =>
      refine other (w.sendNotification k method params).1 ?_
      unfold sendNotification
      split
      · exact ends _
      · exact one rfl
    | request method params timeout =>
      refine other (w.sendRequest k method params timeout).1 ?_
      unfold sendRequest
      split
      · exact ends _
      · exact two rfl rfl
    | requestWritten => exact other _ (two rfl rfl)
    | read point => exact other _ (readOn_due k point w)
    | answer id method params => exact answer_due k id method params w
    | answerDelayed => exact List.forall_mem_singleton.2 (.inr rfl)
    | answerReady id result =>
      refine other (w.sendAnswer k id result).1 ?_
      unfold sendAnswer
      split
      · exact ends _
      · exact two rfl rfl
    | close =>
      refine other (w.closeConnection k).1 ?_
      unfold closeConnection
      split
      · split <;> exact one rfl
      · exact one rfl
    | readerStopped =>
      refine other (w.stopAnswers k).1 ?_
      unfold stopAnswers
      dsimp only
      split <;> exact one rfl
    | _ => exact other _ (ends _)

theorem Change.begun_due (h : Change w f o begun flow x) (hg : g ∈ begun) (due : g.due? = some (k, id)) :
    ∃ p, f = .connection k p := by
  cases h with
  | quiet _ begun_ => exact (begun_ g hg).succeeds.of_due due
  | loses | connects =>
    cases List.mem_singleton.1 hg
    cases due
  | stopsAll =>
    obtain ⟨e, -, rfl⟩ := List.mem_map.1 hg
    cases due
  | _ => cases hg

section Strides

variable (strides : Strides R w w' t f o rest begun flow w₂)

include strides

theorem Strides.due (hg : g ∈ flow.frames) (due : g.due? = some (k, id)) : f.due? = some (k, id) := by
  obtain ⟨p, rfl⟩ := strides.turn.change.due hg due
  have steps : { w with current := none }.resumeConnection k p o = (flow, w₂) := strides.steps
  rcases resumeConnection_due k p o { w with current := none } g (steps ▸ hg) with none | same
  · cases due.symm.trans none
  · exact same.symm.trans due

/-- A task that begins to answer does so for a request that is read. -/
theorem Strides.demands (sound : w.Sound) (hg : g ∈ begun) (due : g.due? = some (k, id)) :
    ∃ r method params, o = .ok r ∧ g = .connection k (.answer id method params) ∧
      w.Demands f k id method params := by
  obtain ⟨p, rfl⟩ := strides.turn.change.begun_due hg due
  obtain ⟨begun', turn, engages⟩ :=
    resumeConnection_turn p o (sound.covers.reaches strides.runs strides.top)
  have steps : { w with current := none }.resumeConnection k p o = (flow, w₂) := strides.steps
  rw [steps] at turn
  cases strides.turn.begun_unique turn
  rcases engages g hg with ⟨s, grace, rfl⟩ | ⟨r, k', id', method, params, rfl, rfl, demands⟩
  · cases due
  · cases due
    exact ⟨r, method, params, rfl, rfl, demands⟩

end Strides

/-- What is asked for is left to a task of its own. -/
theorem dispatch_demand {entries : Entries} (demand : Connection.demand? entries = some (id, method, params))
    (k : ConnectionId) (w : World) : w.dispatch k entries = .ok (w.startAnswer k id method params) := by
  unfold Connection.demand? at demand
  dsimp only at demand
  split at demand
  · cases demand
  · next asked =>
    cases demand
    obtain ⟨hasId, hasMethod⟩ := not_or.1 asked
    unfold dispatch
    dsimp only
    split
    · next none => exact absurd none hasMethod
    · rw [if_neg hasId]

/-- The task that is to answer a request begins when that is read. -/
theorem Strides.begins_answer {r : Result} (strides : Strides R w w' t f (.ok r) rest begun flow w₂)
    (demands : w.Demands f k id method params) : begun = [.connection k (.answer id method params)] := by
  obtain ⟨point, entries, left, rfl, came, demand⟩ := demands
  let w₀ : World := { w with current := none }
  let w₁ : World := w₀.setBackend (w₀.connection k).backend fun x => { x with output := left }
  have read := readOn_message (w := w₀) came (dispatch_demand demand k w₁)
  have steps : w₀.readOn k point = (flow, w₂) := strides.steps
  cases steps.symm.trans read
  have piles : (w₁.startAnswer k id method params).loop.piles =
      w.loop.piles ++ [[.connection k (.answer id method params)]] :=
    (quiet_startAnswer (A := .none) (R := fun _ => False) k id method params w₁).keeps.ops.piles
  have same := List.append_cancel_left (strides.turn.keeps.ops.piles.symm.trans piles)
  rcases begun with _ | ⟨g, _ | ⟨g', begun⟩⟩
  · cases same
  · cases same
    rfl
  · cases same

end World

/-- The task that is to answer begins, and waits for its turn. -/
theorem Moment.Demands.unturned {may : Frame → Prop} {R : CellId → Prop} {m : Moment} {w' : World}
    {t : TaskId} {k : ConnectionId} {id method params : Value} (demands : m.Demands t k id method params)
    (sound : m.world.Sound) (move : World.Move may R m.world w') :
    t < w'.loop.tasks.length ∧ w'.Unturned t (.connection k (.answer id method params)) := by
  obtain ⟨u, f, r, rest, runs, demands, rfl⟩ := demands
  obtain ⟨begun, flow, w₂, strides⟩ := sound.strides_of_runs move runs
  obtain rfl := strides.begins_answer demands
  exact strides.unturned (i := 0) sound rfl

namespace World

variable {may : Frame → Prop} {R : CellId → Prop} {t : TaskId} {w w' first : World} {g : Frame}
variable {k : ConnectionId} {id method params : Value} {ms : List Moment} {m : Moment}

/-- A request of the backend has been read, and the task has begun that is to answer it. -/
def Demanded (ms : List Moment) (t : TaskId) (k : ConnectionId) (id method params : Value) : Prop :=
  ∃ m ∈ ms, m.Demands t k id method params

theorem demanded_next : Demanded (ms ++ [m]) t k id method params ↔
    Demanded ms t k id method params ∨ m.Demands t k id method params := by
  constructor
  · rintro ⟨m', member, demands⟩
    rcases List.mem_append.1 member with old | last
    · exact .inl ⟨m', old, demands⟩
    · cases List.mem_singleton.1 last
      exact .inr demands
  · rintro (⟨m', member, demands⟩ | demands)
    · exact ⟨m', List.mem_append_left _ member, demands⟩
    · exact ⟨m, List.mem_append_right _ (List.mem_singleton_self m), demands⟩

/-- Whoever is to answer does so for a request that has been read. -/
structure Engaged (ms : List Moment) (w : World) : Prop where
  inside : ∀ t k id method params, Demanded ms t k id method params → t < w.loop.tasks.length
  due : ∀ t, ∀ g ∈ w.stack t, ∀ k id, g.due? = some (k, id) →
    ∃ method params, Demanded ms t k id method params

section Step

variable (h : Engaged ms m.world) (sound : m.world.Sound) (moves : Moves m.Admits R m.world w')

include h sound moves

theorem Engaged.due_next (hg : g ∈ w'.stack t) (due : g.due? = some (k, id)) :
    ∃ method params, Demanded (ms ++ [m]) t k id method params := by
  have old {f : Frame} (hf : f ∈ m.world.stack t) (due : f.due? = some (k, id)) :
      ∃ method params, Demanded (ms ++ [m]) t k id method params := by
    obtain ⟨method, params, demanded⟩ := h.due t f hf k id due
    exact ⟨method, params, demanded_next.2 (.inl demanded)⟩
  cases sound.fate moves.move t with
  | stays stack | wakes _ stack => exact old (stack ▸ hg) due
  | ends _ stack =>
    rw [stack] at hg
    cases hg
  | goes strides stack =>
    rw [stack] at hg
    rcases List.mem_append.1 hg with new | below
    · exact old (strides.top ▸ List.mem_cons_self) (strides.due new due)
    · exact old (strides.top ▸ List.mem_cons_of_mem _ below) due
  | @begins g' new stack _ _ source =>
    rw [stack] at hg
    cases List.mem_singleton.1 hg
    rcases source with
      ⟨-, ⟨c, -, rfl⟩ | ⟨k', owner, -, rfl⟩⟩ | ⟨u, f, o, rest, begun, flow, w₂, strides, place⟩
    · cases due.symm.trans c.due?_frame
    · cases due
    · obtain ⟨r, method, params, rfl, rfl, demands⟩ :=
        strides.demands sound (List.mem_of_getElem? place) due
      obtain rfl := strides.begins_answer demands
      have runs : m.Runs u f (.ok r) rest := ⟨strides.runs, strides.top⟩
      refine ⟨method, params, demanded_next.2 (.inr ⟨u, f, r, rest, runs, demands, ?_⟩)⟩
      -- nothing else begins in this step
      have first : t - m.world.loop.tasks.length < 1 := (List.getElem?_eq_some_iff.1 place).1
      exact Nat.le_antisymm (Nat.le_of_sub_eq_zero (Nat.lt_one_iff.1 first)) new

theorem Engaged.next : Engaged (ms ++ [m]) w' where
  inside t k id method params demanded := by
    rcases demanded_next.1 demanded with old | new
    · exact Nat.lt_of_lt_of_le (h.inside t k id method params old) moves.moved.tasks
    · exact (new.unturned sound moves.move).1
  due _ _ hg _ _ due := h.due_next sound moves hg due

end Step

theorem Path.engaged (path : Path first ms w) (unused : first.Unused) (fair : ∀ m ∈ ms, m.Fair) :
    Engaged ms w := by
  refine (path.fair_keeps unused.sound fair ⟨?_, ?_⟩ fun _ _ _ sound _ _ moves h => h.next sound moves).2
  · rintro t k id method params ⟨m, member, -⟩
    cases member
  · intro t g hg
    rw [unused.stack t] at hg
    cases hg

/-- A task is to answer one request. -/
theorem Path.demanded_once (path : Path first ms w) (unused : first.Unused) (fair : ∀ m ∈ ms, m.Fair)
    {k' : ConnectionId} {id' method' params' : Value} (h : Demanded ms t k id method params)
    (h' : Demanded ms t k' id' method' params') :
    (k, id, method, params) = (k', id', method', params') := by
  induction path with
  | first =>
    obtain ⟨m, member, -⟩ := h
    cases member
  | @next ms m w' earlier goes ih =>
    have fair : ∀ m ∈ ms, m.Fair := fun m' member => fair m' (List.mem_append_left _ member)
    have engaged := earlier.engaged unused fair
    have clash {k : ConnectionId} {id method params : Value} (old : Demanded ms t k id method params)
        (new : t = m.world.loop.tasks.length) : False :=
      absurd new (Nat.ne_of_lt (engaged.inside t k id method params old))
    rcases demanded_next.1 h with old | ⟨u, f, r, rest, runs, demands, new⟩ <;>
      rcases demanded_next.1 h' with old' | ⟨u', f', r', rest', runs', demands', new'⟩
    · exact ih fair old old'
    · exact (clash old new').elim
    · exact (clash old' new).elim
    · cases runs.1.symm.trans runs'.1
      cases runs.2.symm.trans runs'.2
      obtain ⟨point, entries, left, rfl, came, demand⟩ := demands
      obtain ⟨point', entries', left', same, came', demand'⟩ := demands'
      cases same
      cases came.symm.trans came'
      cases demand.symm.trans demand'
      rfl

/-- Nothing is answered but a request that has been read before. -/
theorem Path.answers_demanded (path : Path first ms w) (unused : first.Unused) (fair : ∀ m ∈ ms, m.Fair)
    {result : Except Failure Value} (member : m ∈ ms) (answers : m.Answers t k id result) :
    ∃ before after method params, ms = before ++ m :: after ∧ Demanded before t k id method params := by
  obtain ⟨before, after, rfl, earlier⟩ := path.split member
  have engaged := earlier.engaged unused fun m' member => fair m' (List.mem_append_left _ member)
  obtain ⟨⟨r, runs⟩, -⟩ := answers
  obtain ⟨method, params, demanded⟩ := engaged.due t _ (runs.2 ▸ List.mem_cons_self) k id rfl
  exact ⟨before, after, method, params, rfl, demanded⟩

end World
end LanguageClient
