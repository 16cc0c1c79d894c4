import LanguageClient.Proofs.Relay.Order

/-!
A relay in service: what becomes, over a whole run, of the notifications that its session's connection
hands on.
-/

namespace LanguageClient

open Schedule

namespace Happening

/-- The methods of the notifications that are known. -/
def methods : List String :=
  ["$/command", "$/status/show", "$/status/hide", "$/status/report", "$/hint", "$/luaComment"]

end Happening

namespace Act

/-- Leaves a session's events to its relay. -/
def leavesEvents (s : SessionId) (r : RelayId) : Act → Bool
  | .call c => !c.frame.takesFor s r
  | .listen .. => false
  | _ => true

variable {a : Act} {c : Call} {s : SessionId} {r : RelayId}

theorem listens_of_leavesEvents (h : a.leavesEvents s r = true) (k : ConnectionId)
    (owner : Connection.Owner) : a ≠ .listen k owner := by
  rintro rfl
  cases h

theorem idle_of_leavesEvents (h : (Act.call c).leavesEvents s r = true) :
    c.frame.takesFor s r = false ∧ c.frame.attachesTo s = false := by
  refine ⟨by simpa [leavesEvents] using h, ?_⟩
  cases c <;> rfl

end Act

namespace World

variable {may : Frame → Prop} {R : CellId → Prop} {w w' w₂ : World} {t u : TaskId} {f g : Frame}
variable {o : Outcome Result} {rest frames : List Frame} {flow : Flow Frame Result} {c : CellId}
variable {s : SessionId} {r : RelayId} {m : Moment} {ms : List Moment} {root : Option Root}
variable {mark : StatusIndicator}

section Applying

/-- A world in which neither a relay has changed nor a shell been called. -/
structure Uncalled (w w' : World) : Prop where
  relays : w'.relays = w.relays
  shell : Shell.Called [] w.shell w'.shell

theorem Uncalled.refl (w : World) : Uncalled w w := ⟨rfl, .refl _⟩

theorem uncalled_wakeTaker (s : SessionId) (w : World) : Uncalled w (w.wakeTaker s) := by
  unfold wakeTaker
  split <;> exact ⟨rfl, .refl _⟩

theorem uncalled_leaveTakers (s : SessionId) (c : CellId) (w : World) : Uncalled w (w.leaveTakers s c) := by
  let w₁ := w.setSession s fun x => { x with takers := x.takers.filter (· ≠ c) }
  obtain ⟨relays, shell⟩ := uncalled_wakeTaker s w₁
  unfold leaveTakers
  dsimp only
  split
  all_goals
    split
    · exact ⟨rfl, .refl _⟩
    · exact ⟨relays, shell⟩

theorem uncalled_takeEvent (s : SessionId) (taker : Session.Consumer) (w : World) :
    Uncalled w (w.takeEvent s taker).2 := by
  unfold takeEvent
  split
  · exact ⟨rfl, .refl _⟩
  dsimp only
  split <;> exact ⟨rfl, .refl _⟩

theorem uncalled_spanOf (r : RelayId) (what : Happening) (w : World) :
    Uncalled w (w.spanOf r what).2 := by
  refine ⟨?_, called_worldSpan r what w⟩
  unfold spanOf
  dsimp only
  split
  · split
    · rfl
    split <;> rfl
  · rfl

/-- A step of a relay's task applies an event, or it leaves every relay and the shell alone. -/
theorem takes_cases (takes : f.takesFor s r = true) (t : TaskId)
    (o : Outcome Result) (w : World) :
    (w.applies? r f o = none ∧ Uncalled w (w.resume t f o).2) ∨
      ∃ e w₁, w.applies? r f o = some (e, w₁) ∧ (w.resume t f o).2 = w₁.dispatchEvent r e ∧
        Uncalled w w₁ := by
  have taking := Frame.isTaking_of_takesFor takes
  cases f with
  | session s' p =>
    left
    cases p with
    | consume taker =>
      cases o with
      | ok x => exact ⟨rfl, uncalled_takeEvent s' taker w⟩
      | error e => exact ⟨rfl, .refl w⟩
    | consumeAwoken taker c =>
      cases o with
      | ok x => exact ⟨rfl, .refl w⟩
      | error e => exact ⟨rfl, uncalled_leaveTakers s' c w⟩
    | _ => cases taking
  | relay r' p =>
    cases p with
    | dispatch e =>
      obtain rfl : r' = r := of_decide_eq_true takes
      cases o with
      | ok x =>
        have uncalled := uncalled_spanOf r' e.what w
        have steps : w.resume t (.relay r' (.dispatch e)) (.ok x) =
            (w.spanOf r' e.what).2.dispatchAfter r' e (w.spanOf r' e.what).1 := rfl
        have applies : w.applies? r' (.relay r' (.dispatch e)) (.ok x) =
            if r' = r' ∧ (w.spanOf r' e.what).1 = 0 then some (e, (w.spanOf r' e.what).2)
            else none := rfl
        rw [steps, applies]
        generalize (w.spanOf r' e.what).1 = span
        cases span with
        | zero => exact .inr ⟨e, _, if_pos ⟨rfl, rfl⟩, rfl, uncalled⟩
        | succ span => exact .inl ⟨if_neg (by simp), uncalled⟩
      | error e' => exact .inl ⟨rfl, .refl w⟩
    | dispatchLater e span =>
      obtain rfl : r' = r := of_decide_eq_true takes
      cases o with
      | ok x =>
        cases span with
        | zero => exact .inr ⟨e, w, if_pos rfl, rfl, .refl w⟩
        | succ span => exact .inl ⟨rfl, .refl w⟩
      | error e' => cases span <;> exact .inl ⟨rfl, .refl w⟩
    | _ => cases taking
  | _ => cases taking

/-- What a step of a relay's task leaves of the relay's indicator. -/
theorem mark_of_takes (known : r < w.relays.length) (takes : f.takesFor s r = true) (t : TaskId)
    (o : Outcome Result) : ((w.resume t f o).2.relay r).indicator =
      ((w.applies? r f o).map Prod.fst).toList.foldl (fun i e => e.what.mark i) (w.relay r).indicator := by
  rcases takes_cases takes t o w with ⟨applies, uncalled⟩ | ⟨e, w₁, applies, same, uncalled⟩
  · rw [applies, relay, uncalled.relays]
    rfl
  · have known' : r < w₁.relays.length := uncalled.relays ▸ known
    have mark : ((w₁.dispatchEvent r e).relay r).indicator = e.what.mark (w₁.relay r).indicator :=
      congrArg Box.mark (box_dispatchEvent known' 0 e)
    rw [applies, same, mark, relay, uncalled.relays]
    rfl

/-- Whoever does not take for a relay neither begins nor applies anything for it. -/
theorem silent_of_idle (idle : f.takesFor s r = false) (o : Outcome Result) (w : World) :
    World.begins? r f o = none ∧ w.applies? r f o = none := by
  constructor
  · unfold World.begins?
    split
    · exact if_neg (of_decide_eq_false idle)
    · rfl
  · unfold World.applies?
    split
    · exact if_neg fun h => of_decide_eq_false idle h.1
    · exact if_neg (of_decide_eq_false idle)
    · rfl

end Applying

section Passing

variable {all begun applied : List Event}

/-- A relay's task is at work at nothing but taking events and applying them. -/
theorem Phase.takes (h : Phase s r t ms w all begun applied) :
    ∀ f ∈ w.stack t, f.takesFor s r = true := by
  cases h with
  | goesOn place top => exact top ▸ place.takes_for
  | awaits top =>
    rw [top]
    exact List.forall_mem_singleton.2 (takes_for_awoken s r _)
  | finished top =>
    rw [top]
    exact fun _ hf => nomatch hf
  | givenUp top => exact top

theorem Phase.passes (h : Phase s r t ms m.world all begun applied) (passes : Passes s r t m w')
    (still : ∀ f o rest, ¬ m.Runs t f o rest) :
    Phase s r t (ms ++ [m]) w' (all ++ (m.heard? s).toList) begun applied := by
  obtain ⟨may, R, moves⟩ := passes.moves
  cases passes.sound.fate moves.move t with
  | stays stack waits before after => exact h.stays passes stack waits before after
  | ends ends stack _ after => exact h.ends passes ends stack after
  | wakes idle stack before waits runs outcome =>
    exact h.wakes passes idle stack before waits runs outcome
  | begins new => exact absurd passes.begun (Nat.not_lt.2 new)
  | goes strides => exact absurd ⟨strides.runs, strides.top⟩ (still _ _ _)

/-- There is room for an event that comes, or for the end of events. -/
theorem room_of_crowds (room : m.crowds s = false)
    (posts : Posts s r m.world m.world.step (m.heard? s))
    (comes : (m.heard? s).isSome = true ∨
      (m.world.step.session s).bus.closed ≠ (m.world.session s).bus.closed) :
    (m.world.session s).bus.isFull = false := by
  refine Bool.eq_false_iff.2 fun full => ?_
  rw [Moment.crowds, full, Bool.true_and, Bool.or_eq_false_iff] at room
  obtain ⟨silent, open_⟩ := room
  have closes := comes.resolve_left (Bool.eq_false_iff.1 silent)
  generalize m.heard? s = e? at posts silent
  cases posts with
  | rests same => exact closes (congrArg (·.bus.closed) same)
  | publishes => cases silent
  | closes alive same =>
    have alive : (m.world.session s).bus.closed = false := alive
    have bus : (m.world.step.session s).bus = (m.world.session s).bus.close := congrArg Box.bus same
    rw [bus, Bus.closed_close, alive] at open_
    cases open_

theorem mark_of_posts {e? : Option Event} (posts : Posts s r w w' e?) :
    (w'.relay r).indicator = (w.relay r).indicator := by
  cases posts with
  | rests same => exact congrArg Box.mark same
  | publishes _ same => exact (congrArg Box.mark same).trans rfl
  | closes _ same => exact (congrArg Box.mark same).trans rfl

end Passing

/-- A task serves as a session's relay: all that is known of it after a history. -/
structure Serving (root : Option Root) (mark : StatusIndicator) (s : SessionId) (r : RelayId)
    (t : TaskId) (ms : List Moment) (w : World) : Prop where
  sound : w.Sound
  attentive : w.Attentive
  reserved : w.Reserved s r t
  rooted : (w.session s).root = root
  marked : (w.relay r).indicator = (applied r ms).foldl (fun i e => e.what.mark i) mark
  phase : Phase s r t ms w (heard root s ms) (begunWith r ms) (applied r ms)

namespace Serving

theorem reserved_next (h : Serving root mark s r t ms m.world) (moves : Moves m.Begins R m.world w')
    (leaves : ∀ a, m.act = some a → a.leavesEvents s r = true) (goes : m.Goes w') :
    w'.Reserved s r t := by
  have reserved := h.reserved
  have idle (g : Frame) (begins : m.Begins g) : g.takesFor s r = false ∧ g.attachesTo s = false := by
    obtain ⟨c, act, rfl⟩ := begins
    exact Act.idle_of_leavesEvents (leaves _ act)
  have relays : m.world.relays.length ≤ w'.relays.length := by
    rcases post_cases goes moves with ⟨-, post⟩ | ⟨-, _, _, _, _, _, _, _, strides⟩
    · exact Nat.le_of_eq (lengths_of_post post).2.symm
    · exact strides.relays
  exact {
    begun := Nat.lt_of_lt_of_le reserved.begun moves.moved.tasks
    made := Nat.lt_of_lt_of_le reserved.made moves.move.grown.1
    known := Nat.lt_of_lt_of_le reserved.known relays
    others := fun _ other => (reserved.grown moves.move h.sound idle).1 other
    attached := fun _ => (reserved.grown moves.move h.sound idle).2 }

/-- Events go on from where they are, and the indicator shows what has been applied. -/
theorem goes_on (h : Serving root mark s r t ms m.world) (goes : m.Goes w')
    (moves : Moves may R m.world w') (room : m.crowds s = false) :
    Phase.Next s r t ms m w' (heard root s ms) (begunWith r ms) (applied r ms) ∧
      (w'.relay r).indicator = ((m.applies? r).map Prod.fst).toList.foldl
        (fun i e => e.what.mark i) (m.world.relay r).indicator := by
  rcases post_cases goes moves with ⟨top, post⟩ | ⟨rfl, u, f, o, rest, frames, flow, w₂, strides⟩
  · -- Nobody makes a step, so nothing is heard or applied.
    have heard : m.heard? s = none := by simp [Moment.heard?, Moment.handed?, top]
    have begins : m.begins? r = none := by simp [Moment.begins?, top]
    have applies : m.applies? r = none := by simp [Moment.applies?, top]
    have posts : Posts s r m.world w' (m.heard? s) := heard ▸ .of_post post
    have passes : Passes s r t m w' := {
      sound := h.sound, goes := goes, moves := ⟨_, _, moves⟩, begun := h.reserved.begun
      posts := posts
      room := by
        rintro (hears | closes)
        · rw [heard] at hears
          cases hears
        · exact absurd (congrArg (·.bus.closed) (box_of_post post s r)) closes }
    have phase := h.phase.passes passes fun f o rest runs => by
      rw [Moment.top?_of_runs runs.1 runs.2] at top
      cases top
    rw [Phase.Next, begins, applies, Option.map_none, Option.toList_none, List.append_nil,
      List.append_nil]
    exact ⟨phase, mark_of_posts posts⟩
  · have top := Moment.top?_of_runs strides.runs strides.top
    by_cases here : u = t
    · subst here
      have takes := h.phase.takes f (strides.top ▸ List.mem_cons_self)
      refine ⟨h.phase.goes strides h.sound moves h.reserved.made h.reserved.known, ?_⟩
      have marks := mark_of_takes (w := { m.world with current := none }) h.reserved.known takes u o
      rw [strides.steps] at marks
      rw [Moment.applies?, top]
      exact (congrArg Box.mark (strides.box_eq (s := s))).trans marks
    · have idle := h.reserved.others u here f (strides.top ▸ List.mem_cons_self)
      obtain ⟨begins, applies⟩ := silent_of_idle idle o { m.world with current := none }
      have begins : m.begins? r = none := by rw [Moment.begins?, top]; exact begins
      have applies : m.applies? r = none := by rw [Moment.applies?, top]; exact applies
      have posts : Posts s r m.world m.world.step (m.heard? s) := by
        rw [Moment.heard?, Moment.handed?, top]
        exact strides.posts h.reserved.made h.reserved.known idle
      have passes : Passes s r t m m.world.step := {
        sound := h.sound, goes := goes, moves := ⟨_, _, moves⟩, begun := h.reserved.begun
        posts := posts
        room := room_of_crowds room posts }
      have phase := h.phase.passes passes fun g o' rest' runs => by
        have same := strides.runs.symm.trans runs.1
        cases same
        exact here rfl
      rw [Phase.Next, begins, applies, Option.map_none, Option.toList_none, List.append_nil,
        List.append_nil]
      exact ⟨phase, mark_of_posts posts⟩

theorem next (h : Serving root mark s r t ms m.world) (goes : m.Goes w')
    (leaves : ∀ a, m.act = some a → a.leavesEvents s r = true) (room : m.crowds s = false) :
    Serving root mark s r t (ms ++ [m]) w' := by
  have moves := goes.kept h.sound fun a ha => Act.listens_of_leavesEvents (leaves a ha)
  obtain ⟨phase, marked⟩ := h.goes_on goes moves room
  refine {
    sound := h.sound.move moves fun f ⟨c, _, same⟩ => same ▸ frame_first c
    attentive := moves.move.attentive h.sound moves.moved h.attentive
    reserved := h.reserved_next moves leaves goes
    rooted := ((moves.move.session_aged s).2.2 h.reserved.made).trans h.rooted
    marked := ?_
    phase := ?_ }
  · rw [marked, applied_snoc, List.foldl_append, h.marked]
  · rw [heard_snoc h.rooted, begunWith_snoc, applied_snoc]
    exact phase

/-- Once nothing is left to do, everything that has been heard has been applied, unless the relay has
been given up. -/
theorem idle (h : Serving root mark s r t ms w) (idle : w.isIdle = true)
    (kept : w.loop.outcome? (w.loop.taskCell t) ≠ some (.error .cancelled)) :
    applied r ms = heard root s ms := by
  have rests : w.current = none := by
    simp only [isIdle, Bool.and_eq_true, Option.isNone_iff_eq_none] at idle
    exact idle.1
  have waits (busy : w.stack t ≠ []) : ∃ c, w.loop.waits t = some c ∧ w.loop.outcome? c = none := by
    refine h.attentive.waits h.sound idle h.reserved.begun (Bool.eq_false_iff.2 fun done => ?_)
    exact busy ((h.sound.done t h.reserved.begun).1 done).1
  cases h.phase with
  | goesOn place top _ free =>
    obtain ⟨c, waits, -⟩ := waits (top ▸ place.ne_nil)
    rw [free] at waits
    cases waits
  | @awaits c top _ state _ empty stocks =>
    obtain ⟨c', waits, unsettled⟩ := waits (top ▸ List.cons_ne_nil _ _)
    rcases state with ⟨waits', -⟩ | ⟨⟨x, runs⟩, -⟩
    · cases waits.symm.trans waits'
      obtain ⟨es, holds, heard⟩ := stocks
      rw [Bus.Holds, (empty (by rw [Loop.isSettled, unsettled]; rfl)).2] at holds
      have none : es = [] := by simpa using (List.append_eq_nil_iff.1 holds.symm).1
      rw [heard, none, List.append_nil]
    · rw [rests] at runs
      cases runs
  | finished _ _ _ heard => exact heard.symm
  | givenUp _ state =>
    rcases state with runs | done
    · rw [rests] at runs
      cases runs
    · exact absurd done kept

end Serving

theorem Path.serving {first : World} (path : Path first ms w)
    (begins : Serving root mark s r t [] first) (leaves : ∀ a ∈ acts ms, a.leavesEvents s r = true)
    (room : ∀ m ∈ ms, m.crowds s = false) : Serving root mark s r t ms w := by
  refine path.keeps (I := fun ms w => (∀ a ∈ acts ms, a.leavesEvents s r = true) →
    (∀ m ∈ ms, m.crowds s = false) → Serving root mark s r t ms w) (fun _ _ => begins)
    (fun ms m w' _ ih goes leaves room => ?_) leaves room
  rw [acts_next] at leaves
  have before := ih (fun a ha => leaves a (List.mem_append_left _ ha))
    fun m hm => room m (List.mem_append_left _ hm)
  exact before.next goes (fun a act => leaves a (List.mem_append_right _ (by simp [act])))
    (room m (List.mem_append_right _ (List.mem_singleton_self m)))

section Relaying

variable {command : List String} {timeout : Timeout} {capacity : Int}
variable {commands : List (String × Relay.LocalCommand)} {statusCommand : String} {shell : Shell}

end Relaying

end World
end LanguageClient
