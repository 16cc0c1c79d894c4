import LanguageClient.Proofs.Connection.Numbers
import Mathlib.Data.List.Nodup

/-!
What comes of requests, in any history: the first response to its number that is read while it waits, or
the end of its connection, or that its time is over.
-/

namespace LanguageClient

open Schedule

namespace World

variable {may : Frame → Prop} {R : CellId → Prop} {t u : TaskId} {c d : CellId} {w w' w₂ first : World}
variable {f : Frame} {rest begun : List Frame} {flow : Flow Frame Result} {k : ConnectionId} {id : Nat}
variable {o : Outcome Result} {ms : List Moment} {m : Moment}

/-- The cell of a request is made for it. -/
theorem Typed.of_asks (asks : m.Asks t k id c) (sound : m.world.Sound) (moves : Moves may R m.world w') :
    Typed (ms ++ [m]) w' (.request k id) c := by
  have asked : Asked (ms ++ [m]) t k id c := ⟨m, List.mem_append_right _ (List.mem_singleton_self m), asks⟩
  obtain ⟨⟨method, params, timeout, r, rest, runs⟩, alive, rfl, rfl⟩ := asks
  obtain ⟨begun, flow, w₂, strides⟩ := sound.strides_of_runs moves.move runs
  have leads := (strides.enrolls alive).1
  subst leads
  refine .made sound moves.moved (Nat.le_refl _) ?_ (fun r' given => strides.gives given) ?_
  · rcases strides.turn.awaits.names _ (List.mem_cons_of_mem _ (List.mem_singleton_self _)) _
      (List.mem_singleton_self _) with bad | ⟨-, plain⟩
    · cases bad
    · have kept := (strides.lands.aside.kept .none).kind _ (Loop.lt_of_kind? plain)
      exact ⟨_, kept.trans plain, fun _ same => nomatch same⟩
  · intro k' id' same
    cases same
    exact ⟨t, asked⟩

theorem Path.asked_typed (path : Path first ms w) (unused : first.Unused) (fair : ∀ m ∈ ms, m.Fair)
    (asked : Asked ms t k id c) : Typed ms w (.request k id) c := by
  refine (path.fair_keeps unused.sound fair
    (I := fun ms w => ∀ t k id c, Asked ms t k id c → Typed ms w (.request k id) c) ?_ ?_).2 t k id c asked
  · rintro t k id c ⟨m, member, -⟩
    cases member
  · rintro ms m w' sound - goes moves typed t k id c ⟨m', member, asks⟩
    rcases List.mem_append.1 member with old | last
    · exact (typed t k id c ⟨m', old, asks⟩).later goes sound moves.moved
    · cases List.mem_singleton.1 last
      exact .of_asks asks sound moves

/-- A pending request is found by any number that counts as its own. -/
theorem pending_of_number {x : Connection} (distinct : (x.pending.map Prod.fst).Nodup)
    (member : (id, c) ∈ x.pending) {key : Key} (same : (Key.int id).same key = true) :
    x.pending? key = some c := by
  have number {n : Nat} (other : (Key.int n).same key = true) : n = id := by
    have canonical : (Key.int n).canonical = (Key.int id).canonical :=
      (of_decide_eq_true other).trans (of_decide_eq_true same).symm
    exact Int.ofNat.inj (Key.int.inj canonical)
  unfold Connection.pending?
  cases found : x.pending.find? fun p => (Key.int p.1).same key with
  | none =>
    have other := List.find?_eq_none.1 found _ member
    exact absurd same other
  | some p =>
    have there := List.mem_of_find?_eq_some found
    have other : (Key.int p.1).same key = true := by simpa using List.find?_some found
    have here : p = (id, c) := List.inj_on_of_nodup_map distinct there member (number other)
    rw [here]
    rfl

/-- A response settles the cell of the request that it names. -/
theorem dispatch_reply {entries : Entries} {key : Key}
    (distinct : ((w.connection k).pending.map Prod.fst).Nodup)
    (member : (id, c) ∈ (w.connection k).pending) (unsettled : w.loop.outcome? c = none)
    (unasked : (Entries.field? "method" entries).getD .null = .null)
    (named : ((Entries.field? "id" entries).getD .null).key? = some key)
    (same : (Key.int id).same key = true) (reply : Connection.reply? entries = some o) :
    w.dispatch k entries = .ok (w.onLoop (·.settle c o)) := by
  have numbered : (Entries.field? "id" entries).getD .null ≠ .null := by
    intro none
    rw [none] at named
    cases named
    cases same
  have waits : w.loop.isSettled c = false := by simp [Loop.isSettled, unsettled]
  unfold dispatch
  simp only [unasked, if_neg numbered, respond, named, pending_of_number distinct member same, waits,
    Bool.false_eq_true, if_false]
  unfold Connection.reply? at reply
  generalize entries.field? "error" = failed at reply ⊢
  cases failed with
  | none =>
    cases reply
    rfl
  | some value =>
    dsimp only at reply ⊢
    generalize Failure.ofResponse (if value.truthy = true then value else .map []) = failure at reply ⊢
    cases failure with
    | error => cases reply
    | ok failure =>
      cases reply
      rfl

theorem readOn_message {point : Wire.Point} {entries : Entries} {left : Wire.Stream}
    (came : Wire.read point (w.backend (w.connection k).backend).output = (.message (.map entries), left))
    (told : (w.setBackend (w.connection k).backend fun x => { x with output := left }).dispatch k entries =
      .ok w') : w.readOn k point = w'.continueAt (.connection k (.read .start)) := by
  unfold readOn
  simp only [came, told]

/-- The first response to a request that is read while it waits settles it. -/
theorem settled_of_tells (numbered : Numbered ms m.world) (sound : m.world.Sound) (move : Move may R m.world w')
    (tells : m.Tells k id o) : ∃ t c, Posed ms t k id c ∧ w'.loop.outcome? c = some o := by
  obtain ⟨u, r, f, rest, c, runs, ⟨point, entries, left, key, rfl, came, unasked, named, same, reply⟩, member,
    unsettled⟩ := tells
  obtain ⟨t, posed⟩ := numbered.pending k (id, c) member
  refine ⟨t, c, posed, ?_⟩
  obtain ⟨begun, flow, w₂, strides⟩ := sound.strides_of_runs move runs
  let w₁ : World := { m.world with current := none }.setBackend (m.world.connection k).backend fun x =>
    { x with output := left }
  have told : w₁.dispatch k entries = .ok (w₁.onLoop (·.settle c o)) :=
    dispatch_reply (w := w₁) (numbered.distinct k) member unsettled unasked named same reply
  have steps : { m.world with current := none }.readOn k point = (flow, w₂) := strides.steps
  have read := readOn_message (w := { m.world with current := none }) came told
  cases steps.symm.trans read
  have inside : c < m.world.loop.cells.length := sound.held _ c (.data (.pending member))
  have settled : (w₁.onLoop (·.settle c o)).loop.outcome? c = some o :=
    Loop.outcome?_settle_self inside unsettled
  exact (strides.lands.aside.kept .none).settles.outcome settled

theorem Path.outcome_of_told (path : Path first ms w) (unused : first.Unused) (fair : ∀ m ∈ ms, m.Fair)
    (told : Told ms k id o) : ∃ t c, Posed ms t k id c ∧ w.loop.outcome? c = some o := by
  induction path with
  | first =>
    obtain ⟨m, member, -⟩ := told
    cases member
  | @next ms m w' earlier goes ih =>
    have fair' : ∀ m ∈ ms, m.Fair := fun m' member => fair m' (List.mem_append_left _ member)
    obtain ⟨sound, numbered⟩ := earlier.numbered unused fair'
    have moves := goes.fair_moves sound (fair m (List.mem_append_right _ (List.mem_singleton_self m)))
    have later : ∃ t c, Posed ms t k id c ∧ w'.loop.outcome? c = some o := by
      obtain ⟨m', member, tells⟩ := told
      rcases List.mem_append.1 member with old | last
      · obtain ⟨t, c, posed, settled⟩ := ih fair' ⟨m', old, tells⟩
        exact ⟨t, c, posed, moves.moved.settles.outcome settled⟩
      · cases List.mem_singleton.1 last
        exact settled_of_tells numbered sound moves.move tells
    obtain ⟨t, c, posed, settled⟩ := later
    exact ⟨t, c, posed_next.2 (.inl posed), settled⟩

/-- No second response to a request is read in time. -/
theorem Path.told_once (path : Path first ms w) (unused : first.Unused) (fair : ∀ m ∈ ms, m.Fair)
    {o' : Outcome Result} (told : Told ms k id o) (told' : Told ms k id o') : o = o' := by
  obtain ⟨t, c, posed, settled⟩ := path.outcome_of_told unused fair told
  obtain ⟨u, d, posed', settled'⟩ := path.outcome_of_told unused fair told'
  obtain ⟨-, rfl⟩ := path.number_once unused fair posed posed'
  exact Option.some.inj (settled.symm.trans settled')

end World
end LanguageClient
