import LanguageClient.Proofs.Client.Course

/-!
The notifications that a session is given: those it keeps until it is ready, and those it is given
while it is ready, each in the order of the calls.
-/

namespace LanguageClient

open Schedule

theorem SessionState.buffers_of_next {x y : SessionState} (h : y = x ∨ y ∈ x.next)
    (buffers : y.buffers = true) : x.buffers = true := by
  cases x <;> cases y <;> simp_all [next, SessionState.buffers]

/-- A notification that a session is given, and the task of the call. -/
structure Note where
  task : TaskId
  method : String
  params : Value

namespace Note

def kept (n : Note) : String × Value := (n.method, n.params)

def message (n : Note) : Value := Connection.notification n.method n.params

end Note

/-- The notification that the first session is given at a moment: the one whose call goes on. -/
def Moment.note (m : Moment) : Option Note :=
  match m.world.current with
  | some (t, .ok _) =>
    match m.world.stack t with
    | .session 0 (.notify method params) :: _ => some ⟨t, method, params⟩
    | _ => none
  | _ => none

namespace World

variable {may : Frame → Prop} {R : CellId → Prop} {t u : TaskId} {w w' w₂ : World}
variable {f : Frame} {rest begun : List Frame} {o : Outcome Result} {flow : Flow Frame Result}
variable {ms : List Moment} {m : Moment} {n : Note} {p : Session.Stage}

/-- What it has been given before it was ready. -/
def early (ms : List Moment) : List Note :=
  (ms.filter fun m => (m.world.session 0).state.buffers).filterMap Moment.note

/-- What it has been given while it was ready. -/
def late (ms : List Moment) : List Note :=
  (ms.filter fun m => (m.world.session 0).state = .ready).filterMap Moment.note

/-- The session is ready, or has been. -/
def Readied (ms : List Moment) (w : World) : Prop :=
  (∃ m ∈ ms, (m.world.session 0).state = .ready) ∨ (w.session 0).state = .ready

instance (ms : List Moment) (w : World) : Decidable (Readied ms w) :=
  inferInstanceAs (Decidable (_ ∨ _))

/-- What the backend is to be told: nothing unless the session becomes ready. -/
def notices (ms : List Moment) (w : World) : List Note :=
  if Readied ms w then early ms ++ late ms else []

theorem early_next (ms : List Moment) (m : Moment) : early (ms ++ [m]) =
    early ms ++ if (m.world.session 0).state.buffers then m.note.toList else [] := by
  cases buffers : (m.world.session 0).state.buffers <;> cases note : m.note <;>
    simp [early, List.filter_append, buffers, note]

theorem late_next (ms : List Moment) (m : Moment) : late (ms ++ [m]) =
    late ms ++ if (m.world.session 0).state = .ready then m.note.toList else [] := by
  by_cases ready : (m.world.session 0).state = .ready <;> cases note : m.note <;>
    simp [late, List.filter_append, ready, note]

theorem readied_next : Readied (ms ++ [m]) w ↔ Readied ms m.world ∨ (w.session 0).state = .ready := by
  simp [Readied, or_assoc, or_and_right, exists_or]

theorem late_eq_nil (h : ¬ Readied ms w) : late ms = [] := by
  rw [late, List.filter_eq_nil_iff.2, List.filterMap_nil]
  intro m member ready
  exact h (.inl ⟨m, member, by simpa using ready⟩)

theorem note_of_runs {r : Result} {method : String} {params : Value}
    (runs : m.Runs t (.session 0 (.notify method params)) (.ok r) rest) :
    m.note = some ⟨t, method, params⟩ := by
  rw [Moment.note, runs.1]
  dsimp only
  rw [runs.2]
  rfl

theorem runs_of_note (h : m.note = some n) :
    ∃ r rest, m.Runs n.task (.session 0 (.notify n.method n.params)) (.ok r) rest := by
  unfold Moment.note at h
  split at h
  · next t r runs =>
    split at h
    · next method params rest top =>
      cases h
      exact ⟨r, rest, runs, top⟩
    · cases h
  · cases h

/-- What a session does with a notification: it keeps it, refuses it, or has it written. -/
theorem Conduct.takes_note {method : String} {params : Value} {r : Result}
    (h : Conduct w w₂ 0 (.notify method params) (.ok r) flow) :
    ((w.session 0).state.buffers = true ∧ w₂.core = w.core.setSession 0 fun x =>
        { x with outbox := x.outbox ++ [(method, params)] }) ∨
      ((w.session 0).state.buffers = false ∧
        ((w.session 0).state = .ready → (w.session 0).connection = none)) ∨
      ∃ k, (w.session 0).state = .ready ∧ (w.session 0).connection = some k ∧
        flow = .call (.connection k (.notify method params)) (.session 0 (.notified method)) := by
  cases h with
  | keeps early core => exact .inl ⟨early, core⟩
  | refuses late unconnected => exact .inr (.inl ⟨late, unconnected⟩)
  | tells ready connected => exact .inr (.inr ⟨_, ready, connected, rfl⟩)
  -- All else is done at other stages.
  | _ => simp_all

/-- What is known of the notifications that a session has been given. -/
structure Given (ms : List Moment) (w : World) : Prop where
  gone : Readied ms w → (w.session 0).state = .ready ∨ (w.session 0).state = .stopped
  settled : Readied ms w → ∀ t, ¬ w.Opening t
  outbox : (w.session 0).state.buffers = true →
    ((w.session 0).state = .unstarted ∨ ∃ t, w.Opening t) →
      (w.session 0).outbox = (early ms).map Note.kept
  inTurn : (early ms ++ late ms).Pairwise fun n n' => n.task < n'.task
  behind : ∀ n ∈ early ms ++ late ms, ∀ t f, f ∈ w.stack t → f.isUse 0 = true → n.task < t
  called : ∀ n ∈ early ms ++ late ms, Called ms n.task (.notifySession 0 n.method n.params)

namespace Given

theorem not_readied (h : Given ms w) (buffers : (w.session 0).state.buffers = true) :
    ¬ Readied ms w := fun readied => by
  rcases h.gone readied with state | state <;>
  · rw [state] at buffers
    cases buffers

section Moves

variable (h : Given ms m.world) (course : Course ms m.world) (course' : Course (ms ++ [m]) w')
variable (move : Move may R m.world w') (first : ∀ g, may g → g.isUse 0 = true)

include h course move in
theorem gone_move (readied : Readied (ms ++ [m]) w') :
    (w'.session 0).state = .ready ∨ (w'.session 0).state = .stopped := by
  rcases readied_next.1 readied with before | ready
  · rcases course.alone.client.transition move with same | next
    · exact same ▸ h.gone before
    · rcases h.gone before with state | state <;>
      · rw [state] at next
        simp_all [SessionState.next]
  · exact .inl ready

include h course course' move first in
theorem settled_move (readied : Readied (ms ++ [m]) w') (t : TaskId) : ¬ w'.Opening t := fun opening => by
  rcases readied_next.1 readied with before | ready
  · rcases course.alone.client.opening_cases course.alone.sound move first opening with
      old | ⟨_, _, _, _, _, _, -, fresh, -⟩
    · exact h.settled before t old
    · rcases h.gone before with state | state <;>
      · rw [fresh] at state
        cases state
  · rcases course'.standing.opened t opening with state | state <;>
    · rw [ready] at state
      cases state

include h course move first in
theorem outbox_move (buffers : (w'.session 0).state.buffers = true)
    (opens : (w'.session 0).state = .unstarted ∨ ∃ t, w'.Opening t) :
    (w'.session 0).outbox = (early (ms ++ [m])).map Note.kept := by
  have client := course.alone.client
  have sound := course.alone.sound
  have buffered := SessionState.buffers_of_next (client.transition move) buffers
  have before : (m.world.session 0).outbox = (early ms).map Note.kept := by
    refine h.outbox buffered ?_
    rcases opens with fresh | ⟨t, opening⟩
    · exact .inl (client.unstarted_of_move move fresh)
    · rcases client.opening_cases sound move first opening with old | ⟨_, _, _, _, _, _, -, fresh, -⟩
      · exact .inr ⟨t, old⟩
      · exact .inl fresh
  rw [early_next, if_pos buffered, List.map_append, ← before]
  rw [← outbox_core]
  cases note : m.note with
  | some n =>
    obtain ⟨r, rest, runs⟩ := runs_of_note note
    obtain ⟨begun, flow, w₂, strides⟩ := sound.strides_of_runs move runs
    rcases (strides.conducts client).takes_note with ⟨-, core⟩ | ⟨late, -⟩ | ⟨k, ready, -⟩
    · rw [strides.lands.aside.core, core, Core.session_setSession_self course.alone.inside]
      exact congrArg (· ++ [n.kept]) (outbox_core 0 m.world)
    · rw [buffered] at late
      cases late
    · rw [ready] at buffered
      cases buffered
  | none =>
    rw [Option.toList_none, List.map_nil, List.append_nil, ← outbox_core]
    rw [← state_core] at buffers
    rcases client.shifts move 0 with same | ⟨t, f, o, rest, begun, flow, w₂, strides, shifts⟩
    · rw [same]
    · generalize shown : w'.core.session 0 = x at shifts buffers
      cases shifts with
      | buffers =>
        rw [note_of_runs ⟨strides.runs, strides.top⟩] at note
        cases note
      | fails | readies | stops | loses => cases buffers
      | drops =>
        -- The task that starts the session has ended with this.
        have opening : m.world.Opening t := ⟨_, strides.top ▸ List.mem_cons_self, rfl⟩
        obtain ⟨rfl, only⟩ := course.standing.top course.alone strides
        rcases opens with fresh | ⟨u, opening'⟩
        · rcases course.standing.opened t opening with state | state <;>
          · rw [client.unstarted_of_move move fresh] at state
            cases state
        · rcases client.opening_cases sound move first opening' with
            old | ⟨_, _, _, _, _, _, strides', -, -⟩
          · obtain ⟨p, hp, -⟩ := opening'
            rw [only u old, strides.stack sound] at hp
            cases hp
          · cases strides.runs.symm.trans strides'.runs
            cases strides.top.symm.trans strides'.top
      | _ => rfl

include h in
/-- What is given at a moment comes last. -/
theorem next : early (ms ++ [m]) ++ late (ms ++ [m]) = early ms ++ late ms ∨
    ∃ n, m.note = some n ∧ early (ms ++ [m]) ++ late (ms ++ [m]) = early ms ++ late ms ++ [n] := by
  rw [early_next, late_next]
  cases state : (m.world.session 0).state with
  | ready =>
    cases note : m.note with
    | none => exact .inl (by simp [SessionState.buffers])
    | some n => exact .inr ⟨n, rfl, by simp [SessionState.buffers]⟩
  | stopped => exact .inl (by simp [SessionState.buffers])
  | unstarted | starting =>
    have none : late ms = [] := late_eq_nil (h.not_readied (by rw [state]; rfl))
    rw [none]
    cases note : m.note with
    | none => exact .inl (by simp)
    | some n => exact .inr ⟨n, rfl, by simp [SessionState.buffers]⟩

include h in
theorem inTurn_move : (early (ms ++ [m]) ++ late (ms ++ [m])).Pairwise fun n n' => n.task < n'.task := by
  rcases h.next with same | ⟨n, note, same⟩
  · exact same ▸ h.inTurn
  · obtain ⟨r, rest, -, top⟩ := runs_of_note note
    rw [same, List.pairwise_append]
    refine ⟨h.inTurn, List.pairwise_singleton _ _, fun n' old n'' last => ?_⟩
    cases List.mem_singleton.1 last
    exact h.behind n' old n.task _ (top ▸ List.mem_cons_self) (by simp [Frame.isUse])

include h course move in
theorem behind_move (hn : n ∈ early (ms ++ [m]) ++ late (ms ++ [m])) (hf : f ∈ w'.stack u)
    (use : f.isUse 0 = true) : n.task < u := by
  have before : n ∈ early ms ++ late ms ∨ m.note = some n := by
    rcases h.next with same | ⟨n', note, same⟩
    · exact .inl (same ▸ hn)
    · rw [same, List.mem_append, List.mem_singleton] at hn
      exact hn.imp_right fun (last : n = n') => last ▸ note
  rcases course.alone.client.use_cases course.alone.sound move use hf with
    ⟨old, -, still⟩ | ⟨-, new, -⟩
  · rcases before with earlier | note
    · exact h.behind n earlier u f old use
    · -- Whoever has been called before has had its turn by now.
      obtain ⟨r, rest, runs, top⟩ := runs_of_note note
      rcases Nat.lt_trichotomy n.task u with ahead | same | later
      · exact ahead
      · exact absurd (same ▸ runs) (still _)
      · exact absurd runs ((course.queued.inTurn u n.task f _ later old use (top ▸ List.mem_cons_self)
          (by simp [Frame.isUse])).1 _)
  · refine Nat.lt_of_lt_of_le ?_ new
    rcases before with earlier | note
    · exact course.calls.inside _ _ (h.called n earlier)
    · obtain ⟨r, rest, runs, -⟩ := runs_of_note note
      exact course.alone.sound.running runs

include h course in
theorem called_move (hn : n ∈ early (ms ++ [m]) ++ late (ms ++ [m])) :
    Called (ms ++ [m]) n.task (.notifySession 0 n.method n.params) := by
  have later (earlier : n ∈ early ms ++ late ms) :
      Called (ms ++ [m]) n.task (.notifySession 0 n.method n.params) := (h.called n earlier).later m
  rcases h.next with same | ⟨n', note, same⟩
  · exact later (same ▸ hn)
  · rw [same, List.mem_append, List.mem_singleton] at hn
    rcases hn with earlier | rfl
    · exact later earlier
    · obtain ⟨r, rest, -, top⟩ := runs_of_note note
      obtain ⟨-, c, called, frame⟩ := course.calls.uses n.task _ (top ▸ List.mem_cons_self)
        (by simp [Frame.isUse])
      cases c <;> cases frame
      exact called.later m

end Moves

theorem move (h : Given ms m.world) (course : Course ms m.world) (course' : Course (ms ++ [m]) w')
    (move : Move may R m.world w') (first : ∀ g, may g → g.isUse 0 = true) : Given (ms ++ [m]) w' where
  gone := h.gone_move course move
  settled := h.settled_move course course' move first
  outbox := h.outbox_move course move first
  inTurn := h.inTurn_move
  behind _ hn _ _ := h.behind_move course move hn
  called _ := h.called_move course

end Given

end World
end LanguageClient
