import LanguageClient.Proofs.Client.Notes

/-!
The request to shut down that a session makes of its backend, from when it is about to be written to
when the session hears of a response.
-/

namespace LanguageClient

open Schedule

/-- Places of a request that has been written, by its number. -/
def Connection.Stage.number : Stage → Option Nat
  | .requestWritten id _ _ | .requestSettled id => some id
  | _ => none

namespace World

variable {may : Frame → Prop} {R : CellId → Prop} {t u : TaskId} {w w' w₂ : World}
variable {f g : Frame} {rest begun : List Frame} {o : Outcome Result} {flow : Flow Frame Result}
variable {k : ConnectionId} {q : Connection.Stage} {ms : List Moment} {m : Moment} {id id' : Nat}

/-- A session waits for its backend to shut down. -/
def Leaving (w : World) (t : TaskId) : Prop :=
  ∃ limit, .session 0 (.shutdownAnswered limit) ∈ w.stack t

/-- The request to shut down has a number, from when it is to be written on. -/
structure Asking (ms : List Moment) (w : World) (id : Nat) : Prop where
  request : ∀ t k method params timeout limit rest,
    w.stack t = .connection k (.request method params timeout) ::
      .session 0 (.shutdownAnswered limit) :: rest → (w.connection 0).nextId = id
  number : ∀ t k q id', w.Leaving t → .connection k q ∈ w.stack t → q.number = some id' → id' = id
  reply : ∀ t r limit rest, w.current = some (t, .ok r) →
    w.stack t = .session 0 (.shutdownAnswered limit) :: rest → Told ms 0 id (.ok r)

theorem asking_of_none (h : ∀ t, ¬ w.Leaving t) (id : Nat) : Asking ms w id where
  request t _ _ _ _ limit _ stack := absurd ⟨limit, by rw [stack]; simp⟩ (h t)
  number t _ _ _ leaving := absurd leaving (h t)
  reply t _ limit _ _ stack := absurd ⟨limit, by rw [stack]; simp⟩ (h t)

/-- A stop of the session goes on: it asks the backend to shut down. -/
def Asks (R : CellId → Prop) (w w' : World) (t : TaskId) (limit : Timeout) : Prop :=
  ∃ r rest begun w₂, Strides R w w' t (.session 0 (.stop limit)) (.ok r) rest begun
    (.call (.connection 0 (.request "shutdown" .null limit)) (.session 0 (.shutdownAnswered limit))) w₂

theorem Leads.leaving {limit : Timeout} (h : Leads t w w' f o flow)
    (hp : .session 0 (.shutdownAnswered limit) ∈ flow.frames) : f = .session 0 (.stop limit) ∧
      ∃ r k, o = .ok r ∧ (w.session 0).connection = some k ∧
        flow = .call (.connection k (.request "shutdown" .null limit))
          (.session 0 (.shutdownAnswered limit)) := by
  cases h with
  | asks _ _ connected =>
    simp only [Flow.frames, List.mem_cons, List.not_mem_nil, or_false] at hp
    rcases hp with same | same <;> cases same
    exact ⟨rfl, _, _, rfl, connected, rfl⟩
  | serves _ _ flow_ => rcases flow_ with rfl | ⟨c, -, rfl⟩ <;> simp [Flow.frames] at hp
  | stopsAnswers _ flow_ => rcases flow_ with rfl | ⟨c, rfl⟩ <;> simp [Flow.frames] at hp
  | launches _ flow_ => rcases flow_ with rfl | ⟨c, -, rfl⟩ <;> simp [Flow.frames] at hp
  | unconnected _ stages =>
    rcases stages with ⟨-, rfl⟩ | ⟨-, rfl⟩ | ⟨_, -, rfl⟩ <;> simp [Flow.frames] at hp
  | takes _ next flow_ =>
    rcases flow_ with rfl | rfl | ⟨c, -, rfl⟩ <;> rcases next with rfl | ⟨c, rfl⟩ <;>
      simp [Flow.frames] at hp
  | watches _ _ stages =>
    rcases stages with ⟨-, rfl, -⟩ | ⟨-, rfl, -⟩ | ⟨-, rfl, -⟩ <;> simp [Flow.frames] at hp
  | _ => simp [Flow.frames] at hp

theorem Alone.asks_of_leads (alone : w.Alone) {limit : Timeout}
    (strides : Strides R w w' t f o rest begun flow w₂)
    (hp : .session 0 (.shutdownAnswered limit) ∈ flow.frames) : Asks R w w' t limit := by
  obtain ⟨rfl, r, k, rfl, connected, rfl⟩ := (alone.client.leads strides).leaving hp
  cases alone.own connected
  exact ⟨_, _, _, _, strides⟩

/-- Whoever waits for the backend to shut down has done so before, or has just asked for that. -/
theorem Alone.leaving_cases (alone : w.Alone) (move : Move may R w w')
    (first : ∀ g, may g → g.isUse 0 = true) (h : w'.Leaving t) :
    (w.Leaving t ∧ (w'.stack t = w.stack t ∨ ∃ f o rest begun flow w₂,
      Strides R w w' t f o rest begun flow w₂ ∧ ∃ limit, .session 0 (.shutdownAnswered limit) ∈ rest)) ∨
    ∃ limit, Asks R w w' t limit := by
  obtain ⟨limit, hp⟩ := h
  cases alone.client.stays alone.sound move hp with
  | same before stack => exact .inl ⟨⟨limit, before⟩, .inl stack⟩
  | below strides _ before =>
    exact .inl ⟨⟨limit, strides.top ▸ List.mem_cons_of_mem _ before⟩,
      .inr ⟨_, _, _, _, _, _, strides, limit, before⟩⟩
  | comes strides _ after => exact .inr ⟨limit, alone.asks_of_leads strides after⟩
  | called _ _ called => cases first _ called
  | reaps _ _ reaps => cases reaps

/-- What comes of a request is waited for where it has been written. -/
theorem Leads.settled_of (h : Leads t w w' f o flow)
    (hq : .connection k (.requestSettled id) ∈ flow.frames) :
    ∃ c timeout, f = .connection k (.requestWritten id c timeout) := by
  cases h with
  | written =>
    simp only [Flow.frames, List.mem_cons, List.not_mem_nil, or_false] at hq
    rcases hq with same | same <;> cases same
    exact ⟨_, _, rfl⟩
  | serves _ next flow_ =>
    rcases flow_ with rfl | ⟨c, -, rfl⟩ <;>
    · cases List.mem_singleton.1 hq
      cases next
  | stopsAnswers _ flow_ => rcases flow_ with rfl | ⟨c, rfl⟩ <;> simp [Flow.frames] at hq
  | launches _ flow_ => rcases flow_ with rfl | ⟨c, -, rfl⟩ <;> simp [Flow.frames] at hq
  | takes _ _ flow_ => rcases flow_ with rfl | rfl | ⟨c, -, rfl⟩ <;> simp [Flow.frames] at hq
  | _ => simp [Flow.frames] at hq

/-- A request that a session makes stands on the stage that waits for it. -/
theorem Linked.asker {method : String} {params : Value} {timeout limit : Timeout}
    (h : Linked (.connection k (.request method params timeout) :: rest))
    (leaving : .session 0 (.shutdownAnswered limit) ∈ rest) :
    rest = [.session 0 (.shutdownAnswered limit)] := by
  cases rest with
  | nil => cases leaving
  | cons g rest =>
    obtain ⟨⟨r, calls, has⟩, linked⟩ := h
    rcases List.mem_cons.1 leaving with rfl | below
    · rw [linked.nothing_below rfl]
    · cases has
      cases g with
      | session s p =>
        have none : rest = [] := linked.nothing_below (by
          cases p <;> first | rfl | cases calls)
        rw [none] at below
        cases below
      | connection k p => cases p <;> cases calls
      | _ => cases calls

/-- Nobody else waits for the backend to shut down when a session has just asked for that. -/
theorem Alone.only_asks (alone : w.Alone) (move : Move may R w w')
    (first : ∀ g, may g → g.isUse 0 = true) {limit : Timeout} (asks : Asks R w w' t limit)
    (none : ∀ u, ¬ w.Leaving u) (leaving : w'.Leaving u) : u = t ∧ w'.stack u =
      [.connection 0 (.request "shutdown" .null limit), .session 0 (.shutdownAnswered limit)] := by
  rcases alone.leaving_cases move first leaving with ⟨before, -⟩ | ⟨limit', r', rest', begun', w₂', strides'⟩
  · exact absurd before (none u)
  · obtain ⟨r, rest, begun, w₂, strides⟩ := asks
    cases strides.runs.symm.trans strides'.runs
    cases strides.top.symm.trans strides'.top
    refine ⟨rfl, ?_⟩
    rw [strides.stack alone.sound]
    have linked : Linked (.session 0 (.stop limit) :: rest') := strides.top ▸ alone.client.linked t
    rw [linked.nothing_below rfl]
    rfl

/-- A request to shut down is about to be written only when a session has just asked for that. -/
theorem Alone.asks_of_request (alone : w.Alone) (move : Move may R w w') {method : String}
    {params : Value} {timeout limit : Timeout}
    (stack : w'.stack t = .connection k (.request method params timeout) ::
      .session 0 (.shutdownAnswered limit) :: rest) : Asks R w w' t limit := by
  have prompt (same : w'.stack t = w.stack t) : w.current = some (t, .ok .nothing) :=
    alone.prompt t k _ _ (same ▸ stack) rfl
  cases alone.sound.fate move t with
  | stays same _ still => exact absurd (prompt same) (still _)
  | ends _ empty => cases stack.symm.trans empty
  | wakes idle same => cases idle.symm.trans (prompt same)
  | begins _ one => cases stack.symm.trans one
  | @goes f o rest' begun flow w₂ strides frames =>
    have leads := alone.client.leads strides
    have linked : Linked (f :: rest') := strides.top ▸ alone.client.linked t
    have split := frames.symm.trans stack
    have called : .connection k (.request method params timeout) ∈ flow.frames := by
      cases none : flow.frames with
      | nil =>
        rw [none, List.nil_append] at split
        cases linked.writes (split ▸ List.mem_cons_self)
      | cons g more =>
        rw [none] at split
        exact (List.cons.inj split).1 ▸ List.mem_cons_self
    obtain ⟨next, rfl⟩ := leads.writes called rfl
    cases split
    exact alone.asks_of_leads strides (List.mem_cons_of_mem _ List.mem_cons_self)

/-- The request that a session has just made has the number that comes next. -/
theorem Alone.asking_of_asks (alone : w.Alone) (move : Move may R w w')
    (first : ∀ g, may g → g.isUse 0 = true) (alone' : w'.Alone) {limit : Timeout}
    (asks : Asks R w w' t limit) (none : ∀ u, ¬ w.Leaving u) :
    Asking ms w' (w'.connection 0).nextId where
  request u k _ _ _ _ _ stack := by
    have top : Frame.connection k _ ∈ w'.stack u := stack ▸ List.mem_cons_self
    have here : 0 = k := Option.some.inj (alone'.places u _ top)
    rw [here]
  number u k q id leaving hq numbered := by
    obtain ⟨same, frames⟩ := alone.only_asks move first asks none leaving
    rw [frames] at hq
    simp only [List.mem_cons, List.not_mem_nil, or_false] at hq
    rcases hq with same | same <;> cases same
    cases numbered
  reply u r limit' rest _ stack := by
    obtain ⟨same, frames⟩ := alone.only_asks move first asks none
      ⟨limit', stack ▸ List.mem_cons_self⟩
    cases frames.symm.trans stack

/-- A request comes to a result only when its cell does. -/
theorem Leads.replies {r : Result} {method : String} (h : Leads t w w' f o (.done (.ok r)))
    (has : (Routine.asks method).Has f) :
    ∃ k id, f = .connection k (.requestSettled id) ∧ o = .ok r := by
  cases has with
  | settled =>
    cases h with
    | settles => exact ⟨_, _, rfl, rfl⟩
    | served serves => cases serves
    | serves serves => cases serves
  | _ =>
    cases h with
    | served serves => cases serves
    | serves serves => cases serves

section Moves

variable (h : Asking ms m.world id) (course : Course ms m.world)
variable (move : Move may R m.world w') (first : ∀ g, may g → g.isUse 0 = true)
variable (unasked : ∀ t limit, ¬ Asks R m.world w' t limit)

include h course move first unasked in
theorem Asking.number_move (leaving : w'.Leaving t) (hq : .connection k q ∈ w'.stack t)
    (numbered : q.number = some id') : id' = id := by
  have client := course.alone.client
  rcases course.alone.leaving_cases move first leaving with
    ⟨before, same | ⟨f, o, rest, begun, flow, w₂, strides, limit, below⟩⟩ | ⟨limit, asks⟩
  · exact h.number t k q id' before (same ▸ hq) numbered
  · rw [strides.stack course.alone.sound] at hq
    have leads := client.leads strides
    have linked : Linked (f :: rest) := strides.top ▸ client.linked t
    rcases List.mem_append.1 hq with new | old
    · cases q with
      | requestWritten n c timeout =>
        cases numbered
        obtain ⟨⟨method, params, r, rfl, -⟩, -, rfl, -⟩ := leads.written_of new
        have top : Frame.connection k (.request method params timeout) ∈ m.world.stack t :=
          strides.top ▸ List.mem_cons_self
        have here : 0 = k := Option.some.inj (course.alone.places t _ top)
        subst here
        exact h.request t 0 method params timeout limit [] (by rw [strides.top, linked.asker below])
      | requestSettled n =>
        cases numbered
        obtain ⟨c, timeout, rfl⟩ := leads.settled_of new
        exact h.number t k _ _ before (strides.top ▸ List.mem_cons_self) rfl
      | _ => cases numbered
    · exact h.number t k q id' before (strides.top ▸ List.mem_cons_of_mem _ old) numbered
  · exact absurd asks (unasked t limit)

include h course move unasked in
theorem Asking.reply_move {r : Result} {limit : Timeout} (runs : w'.current = some (t, .ok r))
    (stack : w'.stack t = .session 0 (.shutdownAnswered limit) :: rest) : Told (ms ++ [m]) 0 id (.ok r) := by
  have client := course.alone.client
  have stage : .session 0 (.shutdownAnswered limit) ∈ w'.stack t := stack ▸ List.mem_cons_self
  cases course.alone.sound.fate move t with
  | stays _ _ _ after => exact absurd runs (after _)
  | ends _ empty => cases stack.symm.trans empty
  | @wakes waited _ idle same =>
    -- Nobody waits for anything at this stage but above it.
    have top := same.symm.trans stack
    have knows := course.knowing t ((client.linked t).not_errand (same ▸ stage))
    cases knows.poised with
    | runs runs =>
      rw [idle] at runs
      cases runs
    | waits _ attends =>
      rw [top] at attends
      cases attends
    | fresh one _ _ opens =>
      rw [one] at top
      cases top
      rcases opens with use | ⟨_, same⟩
      · cases use
      · cases same
    | ended empty => cases top.symm.trans empty
  | begins _ _ _ after => exact absurd runs (after _)
  | @goes f o rest' begun flow w₂ strides frames =>
    have leads := client.leads strides
    have linked : Linked (f :: rest') := strides.top ▸ client.linked t
    have split := frames.symm.trans stack
    have asked (hp : .session 0 (.shutdownAnswered limit) ∈ flow.frames) : False :=
      unasked t limit (course.alone.asks_of_leads strides hp)
    cases flow with
    | done o' =>
      cases strides.lands.next.1.symm.trans runs
      have below : rest' = .session 0 (.shutdownAnswered limit) :: rest := split
      rw [below] at linked
      obtain ⟨⟨_, calls, has⟩, -⟩ := linked
      cases calls
      obtain ⟨k, id', rfl, rfl⟩ := leads.replies has
      have top : Frame.connection k (.requestSettled id') ∈ m.world.stack t :=
        strides.top ▸ List.mem_cons_self
      have here : 0 = k := Option.some.inj (course.alone.places t _ top)
      subst here
      have before : m.world.Leaving t :=
        ⟨limit, strides.top ▸ List.mem_cons_of_mem _ (below ▸ List.mem_cons_self)⟩
      cases h.number t 0 _ id' before top rfl
      rcases course.knowing.fits course.alone strides (.inr (below ▸ List.mem_cons_self)) with
        same | told | ⟨name, same⟩
      · cases same
      · exact told.later m
      · cases same
    | goto g => exact (asked (List.mem_singleton.2 (List.cons.inj split).1.symm)).elim
    | call inner next => exact (asked ((List.cons.inj split).1 ▸ List.mem_cons_self)).elim
    | await c g => exact (asked (List.mem_singleton.2 (List.cons.inj split).1.symm)).elim
    | pause g => exact (asked (List.mem_singleton.2 (List.cons.inj split).1.symm)).elim

include h course move first unasked in
/-- The number of the request stays what it is until another is made. -/
theorem Asking.keeps_number : Asking (ms ++ [m]) w' id where
  request _ _ _ _ _ _ _ stack := absurd (course.alone.asks_of_request move stack) (unasked _ _)
  number _ _ _ _ := h.number_move course move first unasked
  reply _ _ _ _ := h.reply_move course move unasked

end Moves

end World
end LanguageClient
