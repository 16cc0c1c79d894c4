import LanguageClient.Proofs.Roster.Launches

/-!
Who stands on the roster, move by move. A session keeps its place until it comes to its end, is asked to
stop or fails to start, and a key that has no session gets one by a call for it and not otherwise.
-/

namespace LanguageClient

open Schedule

theorem lookup_entered (key : String) (s : SessionId) (roster : List (String × SessionId)) :
    lookup key ((roster.filter fun e => e.1 ≠ key) ++ [(key, s)]) = some s :=
  Roster.find?_insert key s { (default : Roster) with sessions := roster }

theorem lookup_entered_ne {key key' : String} (h : key' ≠ key) (s : SessionId)
    (roster : List (String × SessionId)) :
    lookup key' ((roster.filter fun e => e.1 ≠ key) ++ [(key, s)]) = lookup key' roster :=
  Roster.find?_insert_ne h.symm s { (default : Roster) with sessions := roster }

theorem lookup_eq_none {key : String} {roster : List (String × SessionId)} :
    lookup key roster = none ↔ ∀ e ∈ roster, e.1 ≠ key := by
  simp [lookup]

/-- What is written does not show on the roster. -/
theorem Core.sends_roster {b : BackendId} {messages : List Value} {x y : Core}
    (h : Sends b messages x y) : y.roster = x.roster := by
  induction h with
  | nil => rfl
  | cons _ _ ih => exact ih

theorem Core.session_made (x : Session) (roster : List (String × SessionId)) (y : Core) :
    session y.sessions.length { y with sessions := y.sessions ++ [x], roster := roster } = x := by
  simp [session]

/-- A step at a place by which the session of a key may lose its place on the roster. -/
inductive Frame.Displaces (key : String) (s : SessionId) : Frame → Outcome Result → Prop
  | ensure {root : Option Root} {r : Result} (same : Session.keyOf root = key) :
    Displaces key s (.roster (.ensure root)) (.ok r)
  | told {e : Failure} : Displaces key s (.roster (.sessionStarted key s)) (.error e)
  | stop {root : Option Root} {r : Result} (same : Session.keyOf root = key) :
    Displaces key s (.roster (.stop root)) (.ok r)
  | stopAll {timeout : Timeout} {r : Result} : Displaces key s (.roster (.stopAll timeout)) (.ok r)

namespace World

variable {may : Frame → Prop} {R : CellId → Prop} {t u : TaskId} {w w' w₂ : World}
variable {f g : Frame} {rest begun : List Frame} {o : Outcome Result} {flow : Flow Frame Result}
variable {s : SessionId} {x : Core} {key : String} {root : Option Root} {r : Result}

theorem Change.keeps_entry (h : Change w f o begun flow x) (found : lookup key w.core.roster = some s)
    (inside : s < w.sessions.length) (alive : (x.session s).state ≠ .stopped)
    (stays : ¬ f.Displaces key s o) : lookup key x.roster = some s := by
  have other {key' : String} (h : key ≠ key') :
      lookup key (w.core.roster.filter fun e => e.1 ≠ key') = some s :=
    (lookup_filter_ne h _).trans found
  cases h with
  | @loses k p o o' s' roster _ _ _ strikes =>
    rcases strikes.others key s found with rfl | kept
    · have ended := Core.session_setSession_self (x := w.core)
        (Nat.lt_of_lt_of_eq inside (length_core_sessions w).symm) (lost w.loop.tasks.length)
      exact absurd (congrArg Session.state ended :) alive
    · exact kept
  | creates =>
    refine (lookup_entered_ne (fun same => stays ?_) _ _).trans found
    exact .ensure same.symm
  | forgets => exact other fun same => stays (.ensure same.symm)
  | @strikes key' root reason s' o' found' =>
    refine other fun same => stays ?_
    subst same
    cases found.symm.trans found'
    exact .told
  | leaves => exact other fun same => stays (.stop same.symm)
  | stopsAll => exact absurd .stopAll stays
  | readies _ _ _ sends => exact (congrArg (lookup key) (Core.sends_roster sends)).trans found
  | _ => exact found

theorem Change.keeps_absent (h : Change w f o begun flow x) (absent : lookup key w.core.roster = none)
    (other : ∀ root r, Session.keyOf root = key → f = .roster (.ensure root) → o ≠ .ok r) :
    lookup key x.roster = none := by
  have fewer {roster : List (String × SessionId)} (sub : roster.Sublist w.core.roster) :
      lookup key roster = none :=
    lookup_eq_none.2 fun e he => lookup_eq_none.1 absent e (sub.subset he)
  cases h with
  | loses _ _ _ strikes => exact fewer strikes.fewer
  | creates =>
    refine (lookup_entered_ne (fun same => ?_) _ _).trans absent
    exact absurd rfl (other _ _ same.symm rfl)
  | forgets | strikes | leaves => exact fewer List.filter_sublist
  | stopsAll => rfl
  | readies _ _ _ sends => exact (congrArg (lookup key) (Core.sends_roster sends)).trans absent
  | _ => exact absent

/-- Nobody comes onto the roster but a session that has just been made for a root, under its key. -/
theorem Change.entry_cases (h : Change w f o begun flow x) {e : String × SessionId} (member : e ∈ x.roster) :
    e ∈ w.core.roster ∨ ∃ root, e = (Session.keyOf root, w.sessions.length) ∧
      x.sessions = w.core.sessions ++ [(Session.make root [] .never 0).core] := by
  cases h with
  | loses _ _ _ strikes => exact .inl (strikes.fewer.subset member)
  | @creates root _ _ _ fresh =>
    rcases List.mem_append.1 member with old | new
    · exact .inl (List.mem_filter.1 old).1
    · subst fresh
      exact .inr ⟨root, List.mem_singleton.1 new, rfl⟩
  | forgets | strikes | leaves => exact .inl (List.mem_filter.1 member).1
  | stopsAll => cases member
  | readies _ _ _ sends =>
    have member : e ∈ Core.roster _ := member
    exact .inl (Core.sends_roster sends ▸ member :)
  | _ => exact .inl member

/-- A step is made, or the roster stays as it is. -/
theorem Move.roster_cases (m : Move may R w w') : (∃ t f o rest begun flow w₂,
    Strides R w w' t f o rest begun flow w₂) ∨ w'.core.roster = w.core.roster := by
  cases m with
  | rests _ _ _ core =>
    right
    rcases core with same | ⟨b, same⟩ | ⟨k, -, same⟩ <;> rw [same] <;> rfl
  | ends _ _ core | wakes _ _ _ _ core => exact .inr (congrArg Core.roster core)
  | goes runs top taken steps turn lands =>
    subst taken
    exact .inl ⟨_, _, _, _, _, _, _, runs, top, steps, turn, lands⟩

theorem Move.registered (m : Move may R w w') (found : w.registered? key = some s)
    (inside : s < w.sessions.length) (alive : (w'.session s).state ≠ .stopped)
    (stays : ∀ t f o rest, w.current = some (t, o) → w.stack t = f :: rest → ¬ f.Displaces key s o) :
    w'.registered? key = some s := by
  rcases m.roster_cases with ⟨t, f, o, rest, begun, flow, w₂, strides⟩ | same
  · have landed : w'.core = w₂.core := strides.lands.aside.core
    rw [← state_core, landed] at alive
    have kept := strides.turn.change.keeps_entry (w := { w with current := none }) found inside alive
      (stays t f o rest strides.runs strides.top)
    exact (congrArg (fun x : Core => lookup key x.roster) landed).trans kept
  · exact (congrArg (lookup key) same).trans found

theorem Move.unregistered (m : Move may R w w') (absent : w.registered? key = none)
    (other : ∀ t root r rest, w.current = some (t, .ok r) → Session.keyOf root = key →
      w.stack t ≠ .roster (.ensure root) :: rest) : w'.registered? key = none := by
  rcases m.roster_cases with ⟨t, f, o, rest, begun, flow, w₂, strides⟩ | same
  · have landed : w'.core = w₂.core := strides.lands.aside.core
    have kept := strides.turn.change.keeps_absent (w := { w with current := none }) absent
      fun root r same asks ok => other t root r rest (ok ▸ strides.runs) same (asks ▸ strides.top)
    exact (congrArg (fun x : Core => lookup key x.roster) landed).trans kept
  · exact (congrArg (lookup key) same).trans absent

/-- A session keeps its key. -/
theorem Move.key_kept (m : Move may R w w') (inside : s < w.sessions.length) :
    (w'.session s).key = (w.session s).key :=
  congrArg Session.keyOf ((m.session_aged s).2.2 inside)

theorem Adds.sessions (h : Adds w f x) : x.sessions.length = w.sessions.length := by
  cases h with
  | nothing holds => exact holds.sessions.trans (length_core_sessions w)
  | backend | process | connection => exact (List.length_modify _ _ _).trans (length_core_sessions w)

theorem made_of_core
    (same : w'.core.sessions = w.core.sessions ++ [(Session.make root [] .never 0).core]) :
    w.sessions.length < w'.sessions.length ∧ (w'.session w.sessions.length).key = Session.keyOf root := by
  refine ⟨?_, ?_⟩
  · rw [← length_core_sessions w', same, ← length_core_sessions w, List.length_append]
    exact Nat.lt_succ_self _
  · rw [Session.key, ← root_core, Core.session, same, ← length_core_sessions w]
    simp [Session.make, Session.core]

/-- A session that has come about in a move has been made by a call for its root. -/
theorem Move.made_cases (m : Move may R w w') (inside : s < w'.sessions.length) :
    s < w.sessions.length ∨ s = w.sessions.length ∧ ∃ t root r rest, w.current = some (t, .ok r) ∧
      w.stack t = .roster (.ensure root) :: rest ∧ (w'.session s).key = Session.keyOf root := by
  have held (same : w'.core.sessions.length = w.sessions.length) : s < w.sessions.length := by
    rwa [← same, length_core_sessions]
  rcases m.strides with ⟨t, f, o, rest, begun, flow, w₂, strides⟩ | ⟨-, same⟩
  · have landed : w'.core = w₂.core := strides.lands.aside.core
    have change := strides.turn.change
    rcases Classical.em (∃ root, f = .roster (.ensure root)) with ⟨root, rfl⟩ | old
    · rw [landed] at held
      generalize core : w₂.core = x at change held
      cases change with
      | quiet | forgets => exact .inl (held (length_core_sessions w))
      | @creates _ r _ _ fresh =>
        by_cases before : s < w.sessions.length
        · exact .inl before
        · have after : s < w.sessions.length + 1 := by
            rw [← length_core_sessions w', landed, core, List.length_append, length_core_sessions] at inside
            exact inside
          have here : s = w.sessions.length := Nat.le_antisymm (Nat.le_of_lt_succ after)
            (Nat.le_of_not_lt before)
          subst here fresh
          have made : w'.core.sessions = w.core.sessions ++ [(Session.make root [] .never 0).core] :=
            congrArg Core.sessions (landed.trans core)
          exact .inr ⟨rfl, t, root, r, rest, strides.runs, strides.top, (made_of_core made).2⟩
    · refine .inl (held ?_)
      rw [landed]
      exact (change.adds fun root same => old ⟨root, same⟩).sessions
  · exact .inl (held ((congrArg List.length same).trans (length_core_sessions w)))

theorem createSession_current (current : Option (TaskId × Outcome Result)) (root : Option Root)
    (w : World) : (createSession root { w with current := current }).1 = (w.createSession root).1 := by
  unfold createSession
  dsimp only
  split
  · rfl
  · dsimp only [World.roster, setRoster, setWorkspace]
    split <;> rfl

/-- A call for a session comes to its end at once, or starts one that it has made. -/
theorem ensure_cases (root : Option Root) (w : World) : (∃ o, (w.ensure root).1 = .done o) ∨
    ∃ s, (w.ensure root).1 = .call (.session s .start) (.roster (.sessionStarted (Session.keyOf root) s)) := by
  have reports (e : Failure) (w : World) : ∃ o, (w.reportLaunch e).1 = .done o := by
    cases e <;> exact ⟨_, rfl⟩
  unfold ensure
  dsimp only
  repeat' split
  all_goals first | exact .inl (reports _ _) | exact .inl ⟨_, rfl⟩ | exact .inr ⟨_, rfl⟩

/-- A call for a key whose session runs returns that and does nothing. -/
theorem Strides.shares (strides : Strides R w w' t (.roster (.ensure root)) (.ok r) rest begun flow w₂)
    (found : w.registered? (Session.keyOf root) = some s) (running : w.isRunning s = true) :
    flow = .done (.ok (.session (some s))) ∧ w₂ = { w with current := none } := by
  have steps : ensure root { w with current := none } = (flow, w₂) := strides.steps
  have found : registered? (Session.keyOf root) { w with current := none } = some s := found
  have running : isRunning s { w with current := none } = true := running
  simp only [ensure, found, running, if_true] at steps
  cases steps
  exact ⟨rfl, rfl⟩

/-- A session is made for a root, and stands on the roster. -/
structure Enters (w w' : World) (root : Option Root) : Prop where
  inside : w.sessions.length < w'.sessions.length
  session : w'.core.session w.sessions.length = (Session.make root [] .never 0).core
  registered : w'.registered? (Session.keyOf root) = some w.sessions.length

/-- A call for a key that has no session makes one, if it can, and starts it. -/
theorem Strides.creates (strides : Strides R w w' t (.roster (.ensure root)) (.ok r) rest begun flow w₂)
    (absent : w.registered? (Session.keyOf root) = none)
    (can : ∀ e, (w.createSession root).1 ≠ .error e) :
    flow = .call (.session w.sessions.length .start)
        (.roster (.sessionStarted (Session.keyOf root) w.sessions.length)) ∧ w.Enters w' root := by
  have steps : ensure root { w with current := none } = (flow, w₂) := strides.steps
  have absent : registered? (Session.keyOf root) { w with current := none } = none := absent
  have can (e : Failure) : (createSession root { w with current := none }).1 ≠ .error e :=
    createSession_current none root w ▸ can e
  obtain ⟨s, next, calls⟩ : ∃ s next, flow = .call (.session s .start) next := by
    simp only [ensure, absent] at steps
    split at steps
    · next e _ failed => exact absurd (congrArg Prod.fst failed) (can e)
    · next s _ _ =>
      cases steps
      exact ⟨s, _, rfl⟩
  subst calls
  have landed : w'.core = w₂.core := strides.lands.aside.core
  have change := strides.turn.change
  generalize w₂.core = x at change landed
  cases change with
  | quiet frames => cases (frames _ List.mem_cons_self).plain
  | creates _ fresh =>
    subst fresh
    refine ⟨rfl, ?_, ?_, ?_⟩
    · rw [← length_core_sessions w', landed, List.length_append, length_core_sessions]
      exact Nat.lt_succ_self _
    · rw [landed, ← length_core_sessions]
      exact Core.session_made _ _ w.core
    · exact (congrArg (fun x : Core => lookup (Session.keyOf root) x.roster) landed).trans
        (lookup_entered _ _ _)

/-- What belongs to the launch of a session has done so before, is begun from outside, comes of its start
or of the call that has just made it. -/
theorem Sound.launch_cases (sound : w.Sound) (m : Move may R w w') (hg : g ∈ w'.stack u)
    (launches : g.launches s = true) : g ∈ w.stack u ∨ may g ∨
      (∃ p q, .session s p ∈ w.stack u ∧ p.starts = true ∧ g = .session s q) ∨
      s = w.sessions.length ∧ ∃ root,
        (g = .session s .start ∨ g = .roster (.sessionStarted (Session.keyOf root) s)) ∧
          s < w'.sessions.length ∧ (w'.session s).key = Session.keyOf root := by
  cases sound.fate m u with
  | stays stack | wakes _ stack => exact .inl (stack ▸ hg)
  | ends _ stack =>
    rw [stack] at hg
    cases hg
  | begins _ stack _ _ source =>
    rw [stack] at hg
    cases List.mem_singleton.1 hg
    rcases source with ⟨-, allowed⟩ | ⟨t, f, o, rest, begun, flow, w₂, strides, found⟩
    · exact .inr (.inl allowed)
    · have other := strides.turn.change.launches_begun (s := s) _ (List.mem_of_getElem? found)
      exact absurd (other.symm.trans launches) Bool.false_ne_true
  | @goes f o rest begun flow w₂ strides stack =>
    rw [stack] at hg
    rcases List.mem_append.1 hg with new | old
    · rcases strides.turn.change.launches_cases launches new with
        ⟨p, q, rfl, starts, rfl⟩ | ⟨here, root, -, which, same⟩
      · exact .inr (.inr (.inl ⟨p, q, strides.top ▸ List.mem_cons_self, starts, rfl⟩))
      · rw [← strides.lands.aside.core] at same
        subst here
        exact .inr (.inr (.inr ⟨rfl, root, which, made_of_core same⟩))
    · exact .inl (strides.top ▸ List.mem_cons_of_mem f old)

/-- A session whose launch is under way has been made, and who hears of it knows its key. -/
structure Known (w : World) : Prop where
  inside : ∀ t, ∀ g ∈ w.stack t, ∀ s, g.launches s = true → s < w.sessions.length
  titled : ∀ t key s, .roster (.sessionStarted key s) ∈ w.stack t → (w.session s).key = key

/-- Whoever is to hear of a launch is to hear of a session of its key. -/
theorem Known.told (h : w.Known) (there : .roster (.sessionStarted key s) ∈ w.stack t) :
    s < w.sessions.length ∧ (w.session s).key = key :=
  ⟨h.inside t _ there s (Frame.launches_told key), h.titled t key s there⟩

theorem Known.move (h : w.Known) (sound : w.Sound) (m : Move may R w w')
    (first : ∀ g, may g → ∀ s, g.launches s = true → g = .session s .start ∧ s < w.sessions.length) :
    w'.Known := by
  have grown := m.grown.1
  have cases_ (u : TaskId) (g : Frame) (hg : g ∈ w'.stack u) (s : SessionId)
      (launches : g.launches s = true) : s < w'.sessions.length ∧
        ∀ key, g = .roster (.sessionStarted key s) → (w'.session s).key = key := by
    rcases sound.launch_cases m hg launches with
      old | allowed | ⟨p, q, old, starts, rfl⟩ | ⟨-, root, which, inside, own⟩
    · have inside := h.inside u g old s launches
      refine ⟨Nat.lt_of_lt_of_le inside grown, fun key same => ?_⟩
      subst same
      exact (m.key_kept inside).trans (h.titled u key s old)
    · obtain ⟨rfl, inside⟩ := first g allowed s launches
      exact ⟨Nat.lt_of_lt_of_le inside grown, by simp⟩
    · have inside := h.inside u _ old s (Frame.launches_stage starts)
      exact ⟨Nat.lt_of_lt_of_le inside grown, by simp⟩
    · refine ⟨inside, fun key title => ?_⟩
      rcases which with rfl | rfl
      · cases title
      · cases title
        exact own
  refine ⟨fun t g hg s launches => (cases_ t g hg s launches).1, fun t key s hg => ?_⟩
  exact (cases_ t _ hg s (Frame.launches_told key)).2 key rfl

/-- A session has been made for a root with a key. -/
def Bears (w : World) (s : SessionId) (key : String) : Prop :=
  s < w.sessions.length ∧ (w.session s).key = key

theorem Bears.move (h : w.Bears s key) (m : Move may R w w') : w'.Bears s key :=
  ⟨Nat.lt_of_lt_of_le h.1 m.grown.1, (m.key_kept h.1).trans h.2⟩

/-- Sessions go by their keys: on the roster, and where somebody is to hear of a launch. -/
structure Titled (w : World) : Prop where
  told : ∀ t key s, .roster (.sessionStarted key s) ∈ w.stack t → w.Bears s key
  listed : ∀ key s, (key, s) ∈ w.core.roster → w.Bears s key

theorem Titled.registered (h : w.Titled) (found : w.registered? key = some s) : w.Bears s key := by
  obtain ⟨e, member, rfl⟩ := Option.map_eq_some_iff.1 found
  have same : e.1 = key := by simpa using List.find?_some member
  exact h.listed key e.2 (same ▸ List.mem_of_find?_eq_some member)

theorem Titled.move (h : w.Titled) (sound : w.Sound) (m : Move may R w w')
    (first : ∀ key s, ¬ may (.roster (.sessionStarted key s))) : w'.Titled := by
  refine ⟨fun t key s hg => ?_, fun key s member => ?_⟩
  · rcases sound.launch_cases m hg (Frame.launches_told key) with
      old | allowed | ⟨p, q, -, -, same⟩ | ⟨-, root, which, inside, own⟩
    · exact (h.told t key s old).move m
    · exact absurd allowed (first key s)
    · cases same
    · rcases which with same | same
      · cases same
      · cases same
        exact ⟨inside, own⟩
  · have kept (old : (key, s) ∈ w.core.roster) := (h.listed key s old).move m
    rcases m.roster_cases with ⟨t, f, o, rest, begun, flow, w₂, strides⟩ | same
    · have landed : w'.core = w₂.core := strides.lands.aside.core
      rw [landed] at member
      rcases strides.turn.change.entry_cases member with old | ⟨root, same, made⟩
      · exact kept old
      · cases same
        exact made_of_core ((congrArg Core.sessions landed).trans made)
    · exact kept (same ▸ member)

end World
end LanguageClient
