import LanguageClient.Proofs.Client.Transcript

/-!
The order of what a session that is alone says to its backend: the greeting, then what it has kept
until it was ready, then what it is given while it is ready, then the farewell.
-/

namespace LanguageClient

open Schedule

namespace World

variable {may : Frame → Prop} {R : CellId → Prop} {w w' : World} {ms : List Moment} {m : Moment}
variable {root : Option Root} {command : List String} {timeout : Timeout} {capacity : Int}
variable {watchers : List Session.Watcher} {plans : List Backend.Plan}

/-- What is said once the session is not ready any more: all that it has been given has been said
before, or nothing is said. -/
def Hushed (ms : List Moment) (w : World) : Prop :=
  ∀ before m, before ++ [m] <+: ms → Readied before m.world → (m.world.session 0).state ≠ .ready →
    (w.session 0).state = .stopped ∧ m.world.spoken <+: w.spoken ∧
      ((early ms ++ late ms).length + 2 ≤ m.world.spoken.length ∨ w.Mute ∧ w.spoken = m.world.spoken)

/-- A session that has been stopped has said all that it has been given, unless it is mute. -/
theorem Heard.settled (h : Heard ms w) (readied : Readied ms w) (stopped : (w.session 0).state = .stopped)
    (heard : ¬ w.Mute) : (early ms ++ late ms).length + 2 ≤ w.spoken.length := by
  cases h with
  | greets unready => exact absurd readied unready
  | converses _ h =>
    have whole := congrArg List.length (h.follows.all heard)
    have owing := h.owing stopped
    simp only [List.length_append, List.length_map, Connection.greeting, List.length_cons,
      List.length_nil] at whole ⊢
    omega

theorem Speech.talks (h : Speech R w w') : ∃ more, Talks more w w' := by
  cases h with
  | rests _ talks | readies _ _ _ talks | utters _ _ _ _ talks => exact ⟨_, talks⟩

theorem Hushed.goes (h : Hushed ms m.world) (course : Course ms m.world) (given : Given ms m.world)
    (heard : Heard ms m.world) (housed : m.world.Housed) (move : Move may R m.world w')
    (first : ∀ g, may g → g.isUse 0 = true) : Hushed (ms ++ [m]) w' := by
  obtain ⟨more, talks⟩ := (course.speech housed move first).talks
  intro before m' within readied unready
  rcases List.prefix_concat_iff.1 within with last | earlier
  · obtain ⟨rfl, same⟩ := List.append_inj' last rfl
    cases same
    have stopped := (given.gone readied).resolve_left unready
    rw [given_same (.inl stopped)]
    refine ⟨course.alone.client.stopped move stopped, talks.grows, ?_⟩
    by_cases mute : m.world.Mute
    · exact .inr (talks.mute mute)
    · exact .inl (heard.settled readied stopped mute)
  · obtain ⟨stopped, grows, settled⟩ := h before m' earlier readied unready
    rw [given_same (.inl stopped)]
    refine ⟨course.alone.client.stopped move stopped, grows.trans talks.grows, settled.imp_right ?_⟩
    rintro ⟨mute, same⟩
    obtain ⟨mute', same'⟩ := talks.mute mute
    exact ⟨mute', same'.trans same⟩

/-- All that is known of what a session has said at a moment of its history. -/
structure Account (ms : List Moment) (w : World) : Prop where
  course : Course ms w
  housed : w.Housed
  given : Given ms w
  heard : Heard ms w
  hushed : Hushed ms w

theorem account_ofNew : Account [] (ofNew root command timeout capacity watchers plans) := by
  have empty := stack_ofNew root command timeout capacity watchers plans
  have unready : ¬ Readied [] (ofNew root command timeout capacity watchers plans) := by
    rintro (⟨m, member, -⟩ | ready)
    · cases member
    · cases ready
  have silent : Greets 0 .null 0 (ofNew root command timeout capacity watchers plans) := {
    follows := ⟨List.prefix_rfl, fun _ => rfl⟩
    unconnected := fun _ => rfl
    answered := fun t ht => absurd ht (empty t _)
    sent := fun t ht => absurd ht (empty t _)
    stays := fun t ⟨_, ht⟩ => absurd ht (empty t _) }
  exact {
    course := course_ofNew root command timeout capacity watchers plans
    housed := by
      rintro (⟨t, b, launched⟩ | connected)
      · exact absurd launched (empty t _)
      · exact absurd rfl connected
    given := {
      gone := fun readied => absurd readied unready
      settled := fun readied => absurd readied unready
      outbox := fun _ _ => rfl
      inTurn := List.Pairwise.nil
      behind := fun n hn => by cases hn
      called := fun n hn => by cases hn }
    heard := .greets unready silent
    hushed := fun before m within => by simp at within }

theorem Account.goes (h : Account ms m.world) (goes : m.Goes w')
    (use : ∀ a, m.act = some a → a.isUse 0 = true) : Account (ms ++ [m]) w' := by
  obtain ⟨course, moves⟩ := h.course.goes goes use
  have first (g : Frame) (begins : m.Begins g) := isUse_of_begins use begins
  exact ⟨course, h.housed.move h.course.alone moves.move first,
    h.given.move h.course course moves.move first,
    h.heard.goes h.course course h.given moves.move first h.housed,
    h.hushed.goes h.course h.given h.heard h.housed moves.move first⟩

theorem Path.account (path : Path (ofNew root command timeout capacity watchers plans) ms w)
    (use : ∀ a ∈ acts ms, a.isUse 0 = true) : Account ms w := by
  refine path.keeps (I := fun ms w => (∀ a ∈ acts ms, a.isUse 0 = true) → Account ms w)
    (fun _ => account_ofNew) (fun ms m w' _ account goes use => ?_) use
  rw [acts_next] at use
  exact (account fun a ha => use a (List.mem_append_left _ ha)).goes goes
    fun a act => use a (List.mem_append_right _ (by simp [act]))

theorem mem_notices {n : Note} : n ∈ notices ms w ↔ Readied ms w ∧ ∃ m ∈ ms,
    (∃ r rest, m.Runs n.task (.session 0 (.notify n.method n.params)) (.ok r) rest) ∧
      (m.world.session 0).state ≠ .stopped := by
  have runs (m : Moment) : m.note = some n ↔
      ∃ r rest, m.Runs n.task (.session 0 (.notify n.method n.params)) (.ok r) rest :=
    ⟨runs_of_note, fun ⟨_, _, runs⟩ => note_of_runs runs⟩
  have going (state : SessionState) :
      state.buffers = true ∨ state = .ready ↔ state ≠ .stopped := by
    cases state <;> simp [SessionState.buffers]
  unfold notices
  split
  · next readied =>
    simp only [early, late, List.mem_append, List.mem_filterMap, List.mem_filter, runs, decide_eq_true_eq,
      ← exists_or, ← or_and_right, ← and_or_left, going, and_assoc, readied, true_and]
    simp only [and_comm]
  · next unready => simp [unready]

/-- What a session that is alone has said to its backend by the end of a history. -/
structure InOrder (ms : List Moment) (w : World) (id : Nat) (params : Value) (last : Nat) : Prop where
  order : w.spoken <+: Connection.greeting id params ++ (notices ms w).map Note.message ++
    Connection.farewell last
  /-- Nothing of that is missing between moves, as long as all that is written is taken in. -/
  whole : Readied ms w → w.current = none → ¬ w.Mute → ∃ left, w.spoken =
    Connection.greeting id params ++ (notices ms w).map Note.message ++ (Connection.farewell last).take left
  inTurn : (notices ms w).Pairwise fun n n' => n.task < n'.task
  called : ∀ n ∈ notices ms w, Called ms n.task (.notifySession 0 n.method n.params)
  given : ∀ n, n ∈ notices ms w ↔ Readied ms w ∧ ∃ m ∈ ms,
    (∃ r rest, m.Runs n.task (.session 0 (.notify n.method n.params)) (.ok r) rest) ∧
      (m.world.session 0).state ≠ .stopped
  halted : (notices ms w).length + 2 < w.spoken.length → Halted ms
  told : (notices ms w).length + 3 < w.spoken.length → ∃ r, Told ms 0 last (.ok r)
  /-- Once the session is not ready any more, only the farewell is said. -/
  hushed : ∀ before m, before ++ [m] <+: ms → Readied before m.world →
    (m.world.session 0).state ≠ .ready →
      ∃ said, w.spoken = m.world.spoken ++ said ∧ said <:+: Connection.farewell last

/-- What goes on after the first part of a list belongs to the second. -/
theorem infix_of_prefix {α : Type} {a b said more : List α} (within : said ++ more <+: a ++ b)
    (long : a.length ≤ said.length) : more <:+: b := by
  obtain ⟨tail, whole⟩ := within
  rw [List.append_assoc] at whole
  rcases List.append_eq_append_iff.1 whole with ⟨c, rfl, rest⟩ | ⟨c, rfl, rest⟩
  · rw [List.length_append] at long
    have none : c = [] := List.eq_nil_of_length_eq_zero (by omega)
    subst none
    exact ⟨[], tail, by simpa using rest⟩
  · exact ⟨c, tail, by rw [List.append_assoc, ← rest]⟩

/-- A session that has been ready at a moment of a history has been so by its end. -/
theorem Readied.within {before : List Moment} (h : Readied before m.world) (within : before ++ [m] <+: ms) :
    Readied ms w := by
  rcases h with ⟨m', member, ready⟩ | ready
  · exact .inl ⟨m', within.subset (List.mem_append_left _ member), ready⟩
  · exact .inl ⟨m, within.subset (List.mem_append_right _ (List.mem_singleton_self m)), ready⟩

theorem Account.inOrder (h : Account ms w) : ∃ id params last, InOrder ms w id params last := by
  have inTurn : (notices ms w).Pairwise fun n n' => n.task < n'.task := by
    unfold notices
    split
    · exact h.given.inTurn
    · exact List.Pairwise.nil
  have called : ∀ n ∈ notices ms w, Called ms n.task (.notifySession 0 n.method n.params) := by
    unfold notices
    split
    · exact h.given.called
    · exact fun n hn => by cases hn
  have hushed {id last : Nat} {params : Value} (readied : Readied ms w)
      (order : w.spoken <+: Connection.greeting id params ++ (early ms ++ late ms).map Note.message ++
        Connection.farewell last) (before : List Moment) (m : Moment) (within : before ++ [m] <+: ms)
      (earlier : Readied before m.world) (past : (m.world.session 0).state ≠ .ready) :
      ∃ said, w.spoken = m.world.spoken ++ said ∧ said <:+: Connection.farewell last := by
    obtain ⟨-, ⟨said, same⟩, long | ⟨-, still⟩⟩ := h.hushed before m within earlier past
    · refine ⟨said, same.symm, infix_of_prefix (same ▸ order) ?_⟩
      simp only [Connection.greeting, List.length_append, List.length_cons, List.length_nil,
        List.length_map] at long ⊢
      omega
    · exact ⟨[], by rw [still, List.append_nil], List.nil_infix⟩
  cases h.heard with
  | @greets id params n unready talk =>
    have none : notices ms w = [] := if_neg unready
    have short := talk.follows.within.length_le
    simp only [Connection.greeting, List.length_take, List.length_cons, List.length_nil] at short
    refine ⟨id, params, 0, ?_, fun readied => absurd readied unready, inTurn, called,
      fun _ => mem_notices, fun long => ?_, fun long => ?_, fun before m within earlier => ?_⟩
    · rw [List.append_assoc]
      exact talk.follows.within.trans ((List.take_prefix _ _).trans (List.prefix_append _ _))
    · exact absurd long (by omega)
    · exact absurd long (by omega)
    · exact absurd (earlier.within within) unready
  | @converses id params last left readied talk =>
    have all : notices ms w = early ms ++ late ms := if_pos readied
    have order := talk.follows.within.trans
      ((List.prefix_append_right_inj _).2 (List.take_prefix left (Connection.farewell last)))
    have length := talk.follows.within.length_le
    simp only [Connection.greeting, List.length_append, List.length_cons, List.length_nil,
      List.length_map, List.length_take] at length
    refine ⟨id, params, last, all ▸ order, fun _ idle heard => ⟨left, ?_⟩, inTurn, called,
      fun _ => mem_notices, fun long => ?_, fun long => ?_, hushed readied order⟩
    · rw [all, ← talk.follows.all heard, owed_of_idle idle, List.append_nil]
    · rw [all, List.length_append] at long
      exact (talk.stopped (by omega)).2
    · rw [all, List.length_append] at long
      exact talk.told (by omega)

/-- What a session that is used and nothing else says to its backend comes in this order, whatever the
backend does. -/
theorem said_in_order (path : Path (ofNew root command timeout capacity watchers plans) ms w)
    (use : ∀ a ∈ acts ms, a.isUse 0 = true) : ∃ id params last, InOrder ms w id params last :=
  (path.account use).inOrder

/-- One notification is kept and one told before the backend is dismissed. -/
theorem said_to_standard :
    let first := ofNew none ["backend"] .never 8 [] [.standard]
    let ready := ((first.take (.call (.notifySession 0 "early" .null))).take
      (.call (.startSession 0))).settle 60
    let past := ((ready.take (.call (.notifySession 0 "late" .null))).take
      (.call (.stopSession 0 Session.stopTimeout))).settle 60
    past.spoken.length = 6 ∧ ∃ ms, Path first ms past ∧ ∃ id params last, InOrder ms past id params last := by
  intro first ready past
  have run : Run first [.call (.notifySession 0 "early" .null), .call (.startSession 0),
      .call (.notifySession 0 "late" .null), .call (.stopSession 0 Session.stopTimeout)] past :=
    (((((Run.first.take rfl _).take rfl _).settle 60).take (by decide +kernel) _).take
      (by decide +kernel) _).settle 60
  obtain ⟨ms, path, done⟩ := run_iff_path.1 run
  have use : ∀ a ∈ acts ms, a.isUse 0 = true := by
    rw [done]
    decide
  exact ⟨by decide +kernel, ms, path, said_in_order path use⟩

end World
end LanguageClient
