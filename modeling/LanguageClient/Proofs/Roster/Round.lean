import LanguageClient.Proofs.Roots.Outermost
import LanguageClient.Proofs.Roster.Verdicts
import Mathlib.Data.List.Forall2

/-!
The call for sessions of all roots. It goes through them once, the shortest folder first, and asks for the
session of each that has no other around it: whoever comes later is inside one that has been asked for.
-/

namespace LanguageClient

open Schedule

/-- The root for whose session the call for all of them asks at this moment. -/
def Moment.asks? (t : TaskId) (m : Moment) : Option (Option Root) :=
  match m.world.current, m.world.stack t with
  | some (u, .ok _), [.roster (.ensure root), .workspace (.startedOne ..)] =>
    if u = t then some root else none
  | _, _ => none

namespace World

variable {may : Frame → Prop} {R : CellId → Prop} {t : TaskId} {w w' w₂ : World} {m : Moment}
variable {ms : List Moment} {f : Frame} {rest above below begun : List Frame} {o : Outcome Result}
variable {flow : Flow Frame Result} {s : SessionId} {key : String} {r : Result} {root : Root}
variable {roots done left owners : List Root} {seen : List String} {started : List SessionId}

/-- The roots for whose sessions a call for all of them has asked, in order. -/
def asked (t : TaskId) (ms : List Moment) : List (Option Root) := ms.filterMap (·.asks? t)

theorem asked_snoc (asks : m.asks? t = some (some root)) :
    asked t (ms ++ [m]) = asked t ms ++ [some root] := by
  simp [asked, asks]

theorem asked_same (other : ∀ root left seen started, m.world.stack t ≠
    [.roster (.ensure root), .workspace (.startedOne left seen started)]) :
    asked t (ms ++ [m]) = asked t ms := by
  have none : m.asks? t = none := by
    unfold Moment.asks?
    split
    · next runs stack => exact absurd stack (other _ _ _ _)
    · rfl
  simp [asked, none]

/-- Sessions of some of the owners, in their order. -/
def Serves (w : World) (started : List SessionId) (owners : List Root) : Prop :=
  ∃ own, own.Sublist owners ∧ List.Forall₂ (fun s r => w.Bears s r.key) started own

theorem Serves.move (h : w.Serves started owners) (m : Move may R w w') : w'.Serves started owners :=
  let ⟨own, fewer, bear⟩ := h
  ⟨own, fewer, bear.imp fun _ _ bears => bears.move m⟩

theorem Serves.skip (h : w.Serves started owners) (root : Root) : w.Serves started (owners ++ [root]) :=
  let ⟨own, fewer, bear⟩ := h
  ⟨own, fewer.trans (List.sublist_append_left owners [root]), bear⟩

theorem Serves.snoc (h : w.Serves started owners) (bears : w.Bears s root.key) :
    w.Serves (started ++ [s]) (owners ++ [root]) :=
  let ⟨own, fewer, bear⟩ := h
  ⟨own ++ [root], fewer.append (List.Sublist.refl _), List.rel_append bear (.cons bears .nil)⟩

/-- What a call for the session of a key has come to. -/
inductive Answered (ms : List Moment) (w : World) (t : TaskId) (key : String) : Outcome Result → Prop
  | session {s : SessionId} (bears : w.Bears s key) : Answered ms w t key (.ok (.session (some s)))
  | none : Answered ms w t key (.ok (.session none))
  | raised {e : Failure} (raised : ∃ m ∈ ms, m.At t ∧ m.Returns key (.error e)) :
    Answered ms w t key (.error e)

theorem Titled.answered (titled : m.world.Titled) (move : Move may R m.world w')
    (here : m.At t) (returns : m.Returns key o) : Answered (ms ++ [m]) w' t key o := by
  have last : m ∈ ms ++ [m] := List.mem_append_right _ (List.mem_singleton_self m)
  have ⟨u, f, o', rest, runs, source, done⟩ := returns
  rcases source with ⟨root, r, same, rfl, rfl⟩ | ⟨s, rfl⟩
  · rcases ensure_tells (w := { m.world with current := none }) done with
      ⟨s, rfl, found, -⟩ | ⟨_, _, rfl, -⟩ | ⟨e, rfl, -⟩
    · exact .session ((titled.registered (same ▸ found)).move move)
    · exact .none
    · exact .raised ⟨m, last, here, returns⟩
  · rcases sessionStarted_tells (w := { m.world with current := none }) done with
      ⟨r, rfl, ⟨rfl, -⟩ | ⟨rfl, -⟩, -⟩ | ⟨_, _, rfl, -⟩ | ⟨e, -, rfl, -⟩
    · exact .session ((titled.told u key s (runs.2 ▸ List.mem_cons_self)).move move)
    · exact .none
    · exact .none
    · exact .raised ⟨m, last, here, returns⟩

/-- A scan of the sorted roots: those that have been met, those that are left, and the sessions so far. -/
structure Scans (res : Resolver) (done left : List Root) (started : List SessionId) (w : World) : Prop where
  regular : res.Regular
  split : res.sorted = done ++ left
  serves : w.Serves started (res.topsOf done)

namespace Scans

variable {res : Resolver} (h : Scans res done left started w)

include h

theorem move (m : Move may R w w') : Scans res done left started w' :=
  ⟨h.regular, h.split, h.serves.move m⟩

theorem fewer : (res.topsOf done).Sublist res.tops := by
  rw [Resolver.tops, h.split]
  exact (List.sublist_append_left done left).filter _

omit h

/-- A root is met, and no session comes of it. -/
theorem skip (h : Scans res done (root :: left) started w) :
    Scans res (done ++ [root]) left started w := by
  refine ⟨h.regular, h.split.trans (List.append_cons ..), ?_⟩
  rw [Resolver.topsOf_snoc]
  split
  · exact h.serves.skip root
  · exact h.serves

theorem snoc (h : Scans res done (root :: left) started w) (top : res.outermost root = root)
    (bears : w.Bears s root.key) : Scans res (done ++ [root]) left (started ++ [s]) w := by
  refine ⟨h.regular, h.split.trans (List.append_cons ..), ?_⟩
  rw [Resolver.topsOf_snoc, if_pos top]
  exact h.serves.snoc bears

end Scans

/-- What a call for all roots has come to. -/
inductive Toured (res : Resolver) (ms : List Moment) (w : World) (t : TaskId) : Outcome Result → Prop
  | ended {started : List SessionId} (scans : Scans res res.sorted [] started w)
    (asks : asked t ms = res.tops.map some) : Toured res ms w t (.ok (.sessions started))
  | raised {root : Root} {done left : List Root} {started : List SessionId} {e : Failure}
    (scans : Scans res done (root :: left) started w) (top : res.outermost root = root)
    (asks : asked t ms = (res.topsOf (done ++ [root])).map some)
    (raised : ∃ m ∈ ms, m.At t ∧ m.Returns root.key (.error e)) : Toured res ms w t (.error e)
  | withdrawn (none : asked t ms = [])
    (withdrawn : ∃ m ∈ ms, m.Runs t (.workspace .startAll) (.error .cancelled) []) :
    Toured res ms w t (.error .cancelled)

/-- How far a call for all roots has come. -/
inductive Tours (res : Resolver) (ms : List Moment) (w : World) (t : TaskId) : Prop
  | waits (stack : w.stack t = [.workspace .startAll]) (unwaited : w.loop.waits t = none)
    (still : ∀ o, w.current ≠ some (t, o)) (none : asked t ms = [])
  | turn {o : Outcome Result} (stack : w.stack t = [.workspace .startAll]) (runs : w.current = some (t, o))
    (called : o = .error .cancelled ∨ ∃ r, o = .ok r) (none : asked t ms = [])
  | scans {done left : List Root} {started : List SessionId} {r : Result}
    (scans : Scans res done left started w) (runs : w.current = some (t, .ok r))
    (stack : w.stack t = [.workspace (.startEach left (res.seen done) started)])
    (asks : asked t ms = (res.topsOf done).map some)
  | asks {root : Root} {done left : List Root} {started : List SessionId} {r : Result}
    (scans : Scans res done (root :: left) started w) (top : res.outermost root = root)
    (runs : w.current = some (t, .ok r))
    (stack : w.stack t = [.roster (.ensure (some root)),
      .workspace (.startedOne left (res.seen (done ++ [root])) started)])
    (asks : asked t ms = (res.topsOf done).map some)
  | launches {root : Root} {done left : List Root} {started : List SessionId} {s : SessionId}
    {above : List Frame} (scans : Scans res done (root :: left) started w) (top : res.outermost root = root)
    (stack : w.stack t = above ++ .roster (.sessionStarted root.key s) ::
      [.workspace (.startedOne left (res.seen (done ++ [root])) started)])
    (asks : asked t ms = (res.topsOf (done ++ [root])).map some)
  | told {root : Root} {done left : List Root} {started : List SessionId} {o : Outcome Result}
    (scans : Scans res done (root :: left) started w) (top : res.outermost root = root)
    (runs : w.current = some (t, o)) (answered : Answered ms w t root.key o)
    (stack : w.stack t =
      [.workspace (.startedOne left (res.seen (done ++ [root])) started)])
    (asks : asked t ms = (res.topsOf (done ++ [root])).map some)
  | returned {o : Outcome Result} (toured : Toured res ms w t o) (returned : w.Returned t o)

section Step

variable {res : Resolver} (named : ∀ r ∈ res.roots, r.uri ≠ "")

include named in
/-- The scan goes on to the next root, unless its outermost one has been met. -/
theorem Scans.goes_on (h : Scans res done left started w') (asks : asked t ms = (res.topsOf done).map some)
    (same : w.workspace.resolver.sorted = res.sorted)
    (steps : (w.startEach left (res.seen done) started).1 = flow)
    (stack : w'.stack t = flow.frames) (next : Next t w' flow) : Tours res ms w' t := by
  cases left with
  | nil =>
    have all : res.sorted = done := h.split.trans (List.append_nil done)
    rw [← all] at h asks
    subst steps
    exact .returned (.ended h asks) (.inl ⟨next.1, stack⟩)
  | cons root left =>
    simp only [startEach, Resolver.outermost_congr same, List.contains_iff_mem,
      Resolver.key_met h.regular named h.split] at steps
    -- with the shortest folder first, whatever is around a root has been met before it
    by_cases top : res.outermost root = root
    · rw [if_neg (not_not.2 top), top] at steps
      subst steps
      refine .asks h top next.1 ?_ asks
      rw [Resolver.seen, Resolver.topsOf_snoc, if_pos top, List.map_append]
      exact stack
    · rw [if_pos top] at steps
      subst steps
      have fewer : res.topsOf (done ++ [root]) = res.topsOf done := by
        rw [Resolver.topsOf_snoc, if_neg top]
      refine .scans h.skip next.1 ?_ (fewer ▸ asks)
      rw [Resolver.seen, fewer]
      exact stack

variable (sound : m.world.Sound) (moves : Moves m.Begins R m.world w')
variable (same : m.world.workspace.resolver.sorted = res.sorted)

include sound moves same in
/-- A call that gets its turn begins the scan, if it has not been given up. -/
theorem Tours.turns (regular : res.Regular) (stack : m.world.stack t = [.workspace .startAll])
    (runs : m.world.current = some (t, o)) (called : o = .error .cancelled ∨ ∃ r, o = .ok r)
    (none : asked t ms = []) : Tours res (ms ++ [m]) w' t := by
  have none : asked t (ms ++ [m]) = [] := (asked_same (by simp [stack])).trans none
  have runs : m.Runs t (.workspace .startAll) o [] := ⟨runs, stack⟩
  obtain ⟨after, next⟩ := sound.runs_on moves.move runs
  rcases called with rfl | ⟨r, rfl⟩
  · exact .returned (.withdrawn none ⟨m, by simp, runs⟩) (.inl ⟨next.1, after⟩)
  · have stack : w'.stack t = [.workspace (.startEach res.sorted [] [])] := same ▸ after
    have scans : Scans res [] res.sorted [] w' := ⟨regular, rfl, [], List.Sublist.refl [], .nil⟩
    exact .scans scans next.1 stack none

include named sound moves same in
theorem Tours.scans_on {r : Result} (scans : Scans res done left started m.world)
    (runs : m.world.current = some (t, .ok r))
    (stack : m.world.stack t = [.workspace (.startEach left (res.seen done) started)])
    (asks : asked t ms = (res.topsOf done).map some) : Tours res (ms ++ [m]) w' t := by
  obtain ⟨after, next⟩ := sound.runs_on moves.move ⟨runs, stack⟩
  have asks : asked t (ms ++ [m]) = (res.topsOf done).map some := (asked_same (by simp [stack])).trans asks
  exact (scans.move moves.move).goes_on (w := { m.world with current := none }) named
    asks same rfl (after.trans (List.append_nil _)) next

include sound moves in
/-- A call for the session of a root comes to an end at once, or launches one. -/
theorem Tours.asks_on {r : Result} (titled : m.world.Titled)
    (scans : Scans res done (root :: left) started m.world) (top : res.outermost root = root)
    (runs : m.world.current = some (t, .ok r))
    (stack : m.world.stack t = [.roster (.ensure (some root)),
      .workspace (.startedOne left (res.seen (done ++ [root])) started)])
    (asks : asked t ms = (res.topsOf done).map some) : Tours res (ms ++ [m]) w' t := by
  have runs : m.Runs t (.roster (.ensure (some root))) (.ok r) _ := ⟨runs, stack⟩
  obtain ⟨begun, flow, w₂, strides⟩ := sound.strides_of_runs moves.move runs
  have after := (strides.turn.piles (sound.running strides.runs) strides.lands).1
  have steps : { m.world with current := none }.ensure (some root) = (flow, w₂) := strides.steps
  have scans := scans.move moves.move
  have now : m.asks? t = some (some root) := by simp [Moment.asks?, runs.1, stack]
  have asks : asked t (ms ++ [m]) = (res.topsOf (done ++ [root])).map some := by
    rw [asked_snoc now, asks, Resolver.topsOf_snoc, if_pos top, List.map_append, List.map_singleton]
  rcases ensure_cases (some root) { m.world with current := none } with ⟨o, done⟩ | ⟨s, calls⟩
  · have returns : m.Returns root.key o :=
      ⟨t, _, _, _, runs, .inl ⟨some root, r, rfl, rfl, rfl⟩, done⟩
    rw [steps] at done
    subst done
    exact .told scans top strides.lands.next.1
      (titled.answered moves.move ⟨_, runs.1⟩ returns) after asks
  · rw [steps] at calls
    subst calls
    have stack : w'.stack t = [.session s .start] ++ .roster (.sessionStarted root.key s) :: _ := after
    exact .launches scans top stack asks

include sound moves in
theorem Tours.launches_on (titled : m.world.Titled) (scans : Scans res done (root :: left) started m.world)
    (top : res.outermost root = root)
    (stack : m.world.stack t = above ++ .roster (.sessionStarted root.key s) ::
      [.workspace (.startedOne left (res.seen (done ++ [root])) started)])
    (asks : asked t ms = (res.topsOf (done ++ [root])).map some) : Tours res (ms ++ [m]) w' t := by
  have scans := scans.move moves.move
  have asks : asked t (ms ++ [m]) = (res.topsOf (done ++ [root])).map some := by
    -- the call for the session has been carried out, and what hears of its launch stands in its place
    refine (asked_same fun _ _ _ _ same => ?_).trans asks
    rcases above with _ | ⟨g, _ | ⟨g', above⟩⟩ <;> simp [stack] at same
  rcases sound.above_cases moves.move stack with ⟨above, stack⟩ | ⟨o, begun, flow, w₂, strides, after⟩
  · exact .launches scans top stack asks
  · have steps : { m.world with current := none }.sessionStarted root.key s o = (flow, w₂) :=
      strides.steps
    obtain ⟨o', done⟩ := sessionStarted_done root.key s o { m.world with current := none }
    have returns : m.Returns root.key o' :=
      ⟨t, _, _, _, ⟨strides.runs, strides.top⟩, .inr ⟨s, rfl⟩, done⟩
    rw [steps] at done
    subst done
    exact .told scans top strides.lands.next.1
      (titled.answered moves.move ⟨_, strides.runs⟩ returns) after asks

include named sound moves same in
theorem Tours.told_on (scans : Scans res done (root :: left) started m.world)
    (top : res.outermost root = root) (runs : m.world.current = some (t, o))
    (answered : Answered ms m.world t root.key o)
    (stack : m.world.stack t = [.workspace (.startedOne left (res.seen (done ++ [root])) started)])
    (asks : asked t ms = (res.topsOf (done ++ [root])).map some) : Tours res (ms ++ [m]) w' t := by
  obtain ⟨after, next⟩ := sound.runs_on moves.move ⟨runs, stack⟩
  rw [List.append_nil] at after
  have asks : asked t (ms ++ [m]) = (res.topsOf (done ++ [root])).map some :=
    (asked_same (by simp [stack])).trans asks
  cases answered with
  | session bears =>
    have scans := (scans.snoc top bears).move moves.move
    exact scans.goes_on (w := { m.world with current := none }) named asks same rfl after next
  | none =>
    have scans := scans.skip.move moves.move
    exact scans.goes_on (w := { m.world with current := none }) named asks same rfl after next
  | raised raised =>
    obtain ⟨m', member, here⟩ := raised
    have raised : ∃ m' ∈ ms ++ [m], m'.At t ∧ m'.Returns root.key (.error _) :=
      ⟨m', List.mem_append_left _ member, here⟩
    exact .returned (.raised (scans.move moves.move) top asks raised) (.inl ⟨next.1, after⟩)

include named sound moves in
theorem Tours.next (h : Tours res ms m.world t) (titled : m.world.Titled)
    (inside : t < m.world.loop.tasks.length)
    (steady : m.world.stack t ≠ [] → res.Regular ∧ m.world.workspace.resolver.sorted = res.sorted) :
    Tours res (ms ++ [m]) w' t := by
  cases h with
  | waits stack unwaited still none =>
    have none' : asked t (ms ++ [m]) = [] := (asked_same (by simp [stack])).trans none
    have unturned : m.world.Unturned t (.workspace .startAll) := ⟨stack, unwaited, still⟩
    rcases unturned.next sound moves.move inside with later | ⟨stack, o, runs, called⟩
    · exact .waits later.stack later.waits later.asleep none'
    · exact .turn stack runs called none'
  | turn stack runs called none =>
    obtain ⟨regular, same⟩ := steady (by simp [stack])
    exact .turns sound moves same regular stack runs called none
  | scans scans runs stack asks =>
    exact .scans_on named sound moves (steady (by simp [stack])).2 scans runs stack asks
  | asks scans top runs stack asks => exact .asks_on sound moves titled scans top runs stack asks
  | launches scans top stack asks => exact .launches_on sound moves titled scans top stack asks
  | told scans top runs answered stack asks =>
    exact .told_on named sound moves (steady (by simp [stack])).2 scans top runs answered stack asks
  | returned toured returned =>
    have same : asked t (ms ++ [m]) = asked t ms :=
      asked_same (by simp [sound.stack_of_returned returned])
    have later {P : Moment → Prop} (h : ∃ m ∈ ms, P m) : ∃ m' ∈ ms ++ [m], P m' :=
      let ⟨m', member, holds⟩ := h
      ⟨m', List.mem_append_left _ member, holds⟩
    refine .returned ?_ (.inr (Returned.later returned moves inside))
    cases toured with
    | ended scans asks => exact .ended (scans.move moves.move) (same.trans asks)
    | raised scans top asks raised =>
      exact .raised (scans.move moves.move) top (same.trans asks) (later raised)
    | withdrawn none withdrawn => exact .withdrawn (same.trans none) (later withdrawn)

end Step

/-- All that is known of a call for all roots. -/
structure Touring (res : Resolver) (ms : List Moment) (w : World) (t : TaskId) : Prop where
  sound : w.Sound
  attentive : w.Attentive
  titled : w.Titled
  regular : w.desk.resolver.Regular
  before : ∀ m ∈ ms, m.world.desk.resolver.Regular
  unborn : w.loop.tasks.length ≤ t → asked t ms = []
  tours : Called ms t .startAll → t < w.loop.tasks.length ∧ Tours res ms w t

theorem Touring.next {res : Resolver} (h : Touring res ms m.world t) (named : ∀ r ∈ res.roots, r.uri ≠ "")
    (current : res.Current) (goes : m.Goes w')
    (listens : ∀ a, m.act = some a → ∀ k owner, a ≠ .listen k owner)
    (steady : m.world.stack t ≠ [] → m.world.workspace.resolver.roots = res.roots) :
    Touring res (ms ++ [m]) w' t := by
  have sound := h.sound
  have moves := goes.kept sound listens
  have first (key : String) (s : SessionId) : ¬ m.Begins (.roster (.sessionStarted key s)) := by
    rintro ⟨c, -, same⟩
    cases c <;> cases same
  -- a task that is yet to come has asked for nothing
  have silent (new : m.world.loop.tasks.length ≤ t) : asked t (ms ++ [m]) = [] :=
    (asked_same (by simp [stack_of_le new])).trans (h.unborn new)
  refine ⟨goes.sound sound listens, moves.move.attentive sound moves.moved h.attentive,
    h.titled.move sound moves.move first, regular_move h.regular goes moves,
    List.forall_mem_append.2 ⟨h.before, List.forall_mem_singleton.2 h.regular⟩,
    fun new => silent (Nat.le_trans moves.moved.tasks new), fun called => ?_⟩
  rcases called_next.1 called with old | ⟨act, rfl⟩
  · obtain ⟨inside, tours⟩ := h.tours old
    refine ⟨Nat.lt_of_lt_of_le inside moves.moved.tasks, tours.next named sound moves h.titled inside ?_⟩
    intro busy
    have same := steady busy
    exact ⟨⟨same ▸ h.regular.keys, current⟩, h.regular.current.sorted_eq current same⟩
  · obtain ⟨-, stack, count⟩ := goes.call act
    obtain ⟨-, waits, asleep⟩ := sound.unturned_of_call moves.move goes act
    exact ⟨count ▸ Nat.lt_succ_self _, .waits stack waits asleep (silent (Nat.le_refl _))⟩

/-- Whatever it has come to, the call has asked for some of the tops. -/
theorem Tours.asked_cases {res : Resolver} (h : Tours res ms w t) : asked t ms = [] ∨
    ∃ owners : List Root, res.Regular ∧ owners.Sublist res.tops ∧ asked t ms = owners.map some := by
  cases h with
  | waits _ _ _ none | turn _ _ _ none => exact .inl none
  | scans scans _ _ asks | asks scans _ _ _ asks => exact .inr ⟨_, scans.regular, scans.fewer, asks⟩
  | launches scans _ _ asks | told scans _ _ _ _ asks =>
    exact .inr ⟨_, scans.regular, scans.skip.fewer, asks⟩
  | returned toured =>
    cases toured with
    | ended scans asks => exact .inr ⟨_, scans.regular, scans.fewer, asks⟩
    | raised scans _ asks => exact .inr ⟨_, scans.regular, scans.skip.fewer, asks⟩
    | withdrawn none => exact .inl none

namespace Touring

variable {res : Resolver} (h : Touring res ms w t) (called : Called ms t .startAll)

include h called

theorem distinct : ((asked t ms).map Session.keyOf).Nodup := by
  rcases (h.tours called).2.asked_cases with none | ⟨owners, regular, fewer, asks⟩
  · rw [none]
    exact List.nodup_nil
  · rw [asks, List.map_map]
    exact (Resolver.keys_tops regular).sublist (fewer.map _)

theorem apart (named : ∀ r ∈ res.roots, r.uri ≠ "") {a : Option Root} (member : a ∈ asked t ms) :
    ∃ r ∈ res.roots, a = some r ∧
      ∀ r', some r' ∈ asked t ms → r'.folder.toList <+: r.folder.toList → r' = r := by
  rcases (h.tours called).2.asked_cases with none | ⟨owners, regular, fewer, asks⟩
  · rw [none] at member
    cases member
  · rw [asks] at member ⊢
    obtain ⟨r, hr, rfl⟩ := List.mem_map.1 member
    have top := fewer.subset hr
    refine ⟨r, regular.current.mem_sorted.1 (Resolver.mem_tops.1 top).1, rfl, fun r' hr' around => ?_⟩
    have top' : r' ∈ res.tops := fewer.subset (by simpa using hr')
    exact Resolver.eq_of_prefix regular named top' top around

theorem toured (settled : w.loop.outcome? (w.loop.taskCell t) = some o) : Toured res ms w t o := by
  have empty : w.stack t = [] := h.sound.over_of_done (Option.isSome_iff_exists.2 ⟨o, settled⟩)
  cases (h.tours called).2 with
  | waits stack | turn stack | scans _ _ stack | asks _ _ _ stack | launches _ _ stack | told _ _ _ _ stack =>
    simp [empty] at stack
  | returned toured returned => exact h.sound.returned_unique returned settled ▸ toured

theorem ended (settled : w.loop.outcome? (w.loop.taskCell t) = some (.ok r)) : ∃ started,
    r = .sessions started ∧ Scans res res.sorted [] started w ∧ asked t ms = res.tops.map some := by
  cases h.toured called settled with
  | ended scans asks => exact ⟨_, rfl, scans, asks⟩

end Touring

section Start

variable {config : Config} {settings : Settings} {roots₀ : List Root} {launcher : Roster.Launcher}
variable {ws : Workspace} {shell : Shell} {plans : List Backend.Plan}

end Start

end World
end LanguageClient
