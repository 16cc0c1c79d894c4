import LanguageClient.Event.Bus

/-!
The law of delivery. In whatever order events are published, the bus is closed and its one consumer
takes, the consumer gets the accepted events in the order of their publication, each once. It stops only
after the bus has been closed, and by then it has got them all, but for the oldest one still queued when
a full bus was closed.
-/

namespace LanguageClient.Bus

/-- What is left in a bus: some events, and then their end. -/
def Holds (es : List Event) (b : Bus) : Prop :=
  b.queue = es.map some ++ if b.closed then [none] else []

variable {b : Bus} {e : Event} {es : List Event}

namespace Holds

theorem put (h : b.Holds es) (alive : b.closed = false) : (b.put (some e)).Holds (es ++ [e]) := by
  have closed : (b.put (some e)).closed = false := alive
  rw [Holds, closed]
  rw [Holds, alive] at h
  simp [Bus.put, h]

theorem publish (h : b.Holds es) (alive : b.closed = false) (room : b.isFull = false) :
    (b.publish e).Holds (es ++ [e]) := by
  have accepts : b.accepts = true := by simp [accepts, alive, room]
  rw [Bus.publish, if_pos accepts]
  exact h.put alive

theorem close (h : b.Holds es) (alive : b.closed = false) (room : b.isFull = false) :
    b.close.Holds es := by
  have full : ({ b with closed := true } : Bus).isFull = false := room
  have closes : b.close = ({ b with closed := true } : Bus).put none := by
    rw [Bus.close, if_neg (Bool.eq_false_iff.1 alive)]
    dsimp only
    rw [if_neg (Bool.eq_false_iff.1 full)]
  rw [Holds, alive] at h
  rw [closes, Holds]
  simp [Bus.put, h]

/-- Closing a full bus costs its oldest event. -/
theorem close_full (h : b.Holds es) (alive : b.closed = false) (full : b.isFull = true) :
    b.close.Holds es.tail := by
  have full' : ({ b with closed := true } : Bus).isFull = true := full
  rw [Holds, alive] at h
  rw [Bus.close, if_neg (Bool.eq_false_iff.1 alive)]
  dsimp only
  rw [if_pos full', Holds]
  simp [h, List.map_tail]

theorem size (h : b.Holds es) : b.size = es.length + if b.closed then 1 else 0 := by
  rw [Bus.size, show b.queue = _ from h]
  cases b.closed <;> simp

/-- A consumer gets the events in order, and comes to their end if it wants more than there are. -/
theorem consume (h : b.Holds es) (count : Nat) :
    b.consume count = (es.take count,
      if count ≤ es.length then .enough else if b.closed then .ended else .waiting,
      { b with queue := b.queue.drop count }) := by
  obtain ⟨capacity, queue, closed⟩ := b
  obtain rfl : queue = es.map some ++ if closed then [none] else [] := h
  induction count generalizing es with
  | zero => simp [Bus.consume]
  | succ count ih =>
    cases es with
    | nil => cases closed <;> simp [Bus.consume, take?]
    | cons e es => simp [Bus.consume, take?, ih]

end Holds

/-- The events that are still queued. -/
def events (b : Bus) : List Event := b.queue.filterMap id

theorem Holds.events_drop (h : b.Holds es) (count : Nat) :
    ({ b with queue := b.queue.drop count } : Bus).events = es.drop count := by
  have ends : ∀ e? ∈ [(none : Option Event)].drop (count - es.length), e? = none :=
    fun _ left => List.mem_singleton.1 (List.mem_of_mem_drop left)
  rw [Bus.events, show b.queue = _ from h]
  cases b.closed
  · simp [← List.map_drop]
  · simpa [List.drop_append, ← List.map_drop] using ends

theorem Holds.events (h : b.Holds es) : b.events = es := h.events_drop 0

theorem Holds.drop (h : b.Holds es) {count : Nat} (left : b.closed = true → count ≤ es.length) :
    ({ b with queue := b.queue.drop count } : Bus).Holds (es.drop count) := by
  rw [Holds, show b.queue = _ from h]
  cases closed : b.closed with
  | false => simp
  | true => simp [List.drop_append_of_le_length, left closed]

/-- A bus with a limit holds no more than that. -/
def Within (b : Bus) : Prop := 0 < b.capacity → b.size ≤ b.capacity

theorem isFull_iff : b.isFull = true ↔ 0 < b.capacity ∧ b.capacity ≤ b.size := by
  simp [isFull, Bus.size]

theorem Within.put (room : b.isFull = false) (e? : Option Event) : (b.put e?).Within := by
  intro limited
  have free : ¬ b.capacity ≤ b.size := fun full => Bool.eq_false_iff.1 room (isFull_iff.2 ⟨limited, full⟩)
  simp only [Bus.put, Bus.size, List.length_append, List.length_singleton] at free ⊢
  omega

theorem Within.close (h : b.Within) : b.close.Within := by
  rw [Bus.close]
  split
  · exact h
  · dsimp only
    split
    · rename_i full
      obtain ⟨limited, full⟩ : 0 < b.capacity ∧ b.capacity ≤ b.size := isFull_iff.1 full
      have limit := h limited
      intro _
      simp only [Bus.size, List.length_append, List.length_drop, List.length_singleton] at limit full ⊢
      omega
    · rename_i room
      exact Within.put (Bool.eq_false_iff.2 room) none

theorem Within.drop (h : b.Within) (count : Nat) : ({ b with queue := b.queue.drop count } : Bus).Within := by
  intro limited
  have limit := h limited
  simp only [Bus.size, List.length_drop] at limit ⊢
  omega

/-- What happens to a bus. -/
inductive Act where
  | publish (e : Event)
  | close
  /-- The consumer takes events, up to a number of them. -/
  | consume (count : Nat)
deriving DecidableEq, Repr

/-- A bus with what has come of it: the events it has accepted, those its one consumer has got, and
whether the consumer has stopped. -/
structure Traffic where
  bus : Bus
  accepted : List Event
  got : List Event
  ended : Bool
deriving DecidableEq, Repr

namespace Traffic

def ofCapacity (capacity : Int) : Traffic := ⟨.ofCapacity capacity, [], [], false⟩

/-- An event has been accepted if the queue has grown. A consumer that has stopped takes nothing. -/
def act (t : Traffic) : Act → Traffic
  | .publish e =>
    let bus := t.bus.publish e
    { t with bus, accepted := if t.bus.size < bus.size then t.accepted ++ [e] else t.accepted }
  | .close => { t with bus := t.bus.close }
  | .consume count =>
    if t.ended then t
    else
      let (got, rest, bus) := t.bus.consume count
      { t with bus, got := t.got ++ got, ended := rest = .ended }

def run (t : Traffic) (acts : List Act) : Traffic := acts.foldl act t

/-- What the consumer has got, and what is still to come. -/
def share (t : Traffic) : List Event := t.got ++ t.bus.events

/-- The queue is in order: events, and their end once the bus is closed, until the consumer has taken
that end. -/
structure Orderly (t : Traffic) : Prop where
  holds : t.ended = false → t.bus.Holds t.bus.events
  drained : t.ended = true → t.bus.closed = true ∧ t.bus.queue = []
  within : t.bus.Within

variable {t : Traffic} {a : Act} {capacity : Int} {acts : List Act}

theorem act_publish (t : Traffic) (e : Event) : t.act (.publish e) =
    if t.bus.accepts then { t with bus := t.bus.put (some e), accepted := t.accepted ++ [e] } else t := by
  by_cases accepts : t.bus.accepts = true
  · simp [act, Bus.publish, accepts, Bus.put, Bus.size]
  · simp [act, Bus.publish, accepts]

theorem act_close_closed (closed : t.bus.closed = true) : t.act .close = t := by
  simp [act, close_closed closed]

namespace Orderly

theorem ofCapacity (capacity : Int) : (Traffic.ofCapacity capacity).Orderly where
  holds _ := rfl
  drained ended := nomatch ended
  within := Int.le_of_lt

theorem act_consume (h : t.Orderly) (going : t.ended = false) (count : Nat) : t.act (.consume count) =
    { t with
      bus := { t.bus with queue := t.bus.queue.drop count }
      got := t.got ++ t.bus.events.take count
      ended := t.bus.closed && t.bus.events.length < count } := by
  have rest : decide ((if count ≤ t.bus.events.length then Rest.enough
      else if t.bus.closed then .ended else .waiting) = .ended) =
        (t.bus.closed && decide (t.bus.events.length < count)) := by
    by_cases few : count ≤ t.bus.events.length
    · simp [few]
    · cases t.bus.closed <;> simp [few, Nat.lt_of_not_le few]
  simp only [act, going, Bool.false_eq_true, ↓reduceIte, (h.holds going).consume, rest]

theorem going (h : t.Orderly) (alive : t.bus.closed = false) : t.ended ≠ true := by
  intro ended
  rw [(h.drained ended).1] at alive
  cases alive

theorem holds_events (h : t.Orderly) (alive : t.bus.closed = false) : t.bus.Holds t.bus.events :=
  h.holds (Bool.eq_false_iff.2 (h.going alive))

theorem act (h : t.Orderly) (a : Act) : (t.act a).Orderly := by
  cases a with
  | publish e =>
    rw [act_publish]
    split
    · rename_i accepts
      obtain ⟨alive, room⟩ : t.bus.closed = false ∧ t.bus.isFull = false := by
        simpa [Bus.accepts] using accepts
      have holds : (t.bus.put (some e)).Holds (t.bus.events ++ [e]) := (h.holds_events alive).put alive
      exact ⟨fun _ => holds.events.symm ▸ holds, fun ended => absurd ended (h.going alive), Within.put room _⟩
    · exact h
  | close =>
    cases closed : t.bus.closed with
    | true => rwa [act_close_closed closed]
    | false =>
      have left : ∃ es, t.bus.close.Holds es := by
        cases full : t.bus.isFull with
        | true => exact ⟨_, (h.holds_events closed).close_full closed full⟩
        | false => exact ⟨_, (h.holds_events closed).close closed full⟩
      obtain ⟨es, holds⟩ := left
      exact ⟨fun _ => holds.events.symm ▸ holds, fun ended => absurd ended (h.going closed), h.within.close⟩
  | consume count =>
    cases ended : t.ended with
    | true => simpa [Traffic.act, ended] using h
    | false =>
      rw [h.act_consume ended]
      have holds := h.holds ended
      refine ⟨fun still => ?_, fun ended => ?_, h.within.drop count⟩
      · have left : t.bus.closed = true → count ≤ t.bus.events.length := by
          intro closed
          simpa [closed] using still
        have holds' := holds.drop left
        exact holds'.events.symm ▸ holds'
      · obtain ⟨closed, many⟩ : t.bus.closed = true ∧ t.bus.events.length < count := by simpa using ended
        have size := holds.size
        rw [closed] at size
        exact ⟨closed, List.drop_eq_nil_of_le (by rw [← Bus.size, size]; exact many)⟩

theorem run (h : t.Orderly) (acts : List Act) : (t.run acts).Orderly := by
  induction acts generalizing t with
  | nil => exact h
  | cons a acts ih => exact ih (h.act a)

end Orderly

/-! ### What each act does to the consumer's share -/

theorem accepted_act_consume (t : Traffic) (count : Nat) :
    (t.act (.consume count)).accepted = t.accepted := by
  simp only [act]
  split <;> rfl

namespace Orderly

/-- The limit of a bus stays, and only closing closes it. -/
theorem bus_act (h : t.Orderly) (a : Act) : (t.act a).bus.capacity = t.bus.capacity ∧
    ((t.act a).bus.closed = true ↔ t.bus.closed = true ∨ a = .close) := by
  cases a with
  | publish e =>
    rw [act_publish]
    split <;> simp [Bus.put]
  | close =>
    refine ⟨?_, by simp [Traffic.act, closed_close]⟩
    simp only [Traffic.act, Bus.close]
    split
    · rfl
    · split <;> rfl
  | consume count =>
    cases ended : t.ended with
    | true => simp [Traffic.act, ended]
    | false => simp [h.act_consume ended]

theorem bus_run (h : t.Orderly) (acts : List Act) : (t.run acts).bus.capacity = t.bus.capacity ∧
    ((t.run acts).bus.closed = true ↔ t.bus.closed = true ∨ .close ∈ acts) := by
  induction acts generalizing t with
  | nil => simp [Traffic.run]
  | cons a acts ih =>
    obtain ⟨capacity, closed⟩ := h.bus_act a
    obtain ⟨capacity', closed'⟩ := ih (h.act a)
    refine ⟨capacity'.trans capacity, closed'.trans ?_⟩
    rw [closed, List.mem_cons, or_assoc, eq_comm (a := a)]

theorem share_act_consume (h : t.Orderly) (count : Nat) : (t.act (.consume count)).share = t.share := by
  cases ended : t.ended with
  | true => simp [Traffic.act, ended]
  | false =>
    rw [h.act_consume ended, share, share, (h.holds ended).events_drop, List.append_assoc,
      List.take_append_drop]

theorem share_act_close (h : t.Orderly) (alive : t.bus.closed = false) : (t.act .close).share =
    t.got ++ if t.bus.isFull then t.bus.events.tail else t.bus.events := by
  have holds := h.holds_events alive
  cases full : t.bus.isFull with
  | true => exact congrArg (t.got ++ ·) (holds.close_full alive full).events
  | false => exact congrArg (t.got ++ ·) (holds.close alive full).events

/-- Before a bus is closed, all that it has accepted is the consumer's share. -/
theorem run_of_open (h : t.Orderly) (alive : t.bus.closed = false) (all : t.accepted = t.share)
    (never : .close ∉ acts) : (t.run acts).accepted = (t.run acts).share := by
  induction acts generalizing t with
  | nil => exact all
  | cons a acts ih =>
    obtain ⟨other, never⟩ := List.ne_and_not_mem_of_not_mem_cons never
    have alive' : (t.act a).bus.closed = false := by
      rw [Bool.eq_false_iff, ne_eq, (h.bus_act a).2]
      simp [alive, Ne.symm other]
    refine ih (h.act a) alive' ?_ never
    cases a with
    | publish e =>
      rw [act_publish]
      split
      · rw [share, ((h.holds_events alive).put alive).events, ← List.append_assoc]
        exact congrArg (· ++ [e]) all
      · exact all
    | close => exact absurd rfl other
    | consume count => rw [accepted_act_consume, h.share_act_consume, all]

/-- Once a bus is closed, nothing is accepted any more, and nothing is lost. -/
theorem run_of_closed (h : t.Orderly) (closed : t.bus.closed = true) (acts : List Act) :
    (t.run acts).accepted = t.accepted ∧ (t.run acts).share = t.share := by
  induction acts generalizing t with
  | nil => exact ⟨rfl, rfl⟩
  | cons a acts ih =>
    have closed' : (t.act a).bus.closed = true := (h.bus_act a).2.2 (.inl closed)
    obtain ⟨accepted, share⟩ := ih (h.act a) closed'
    suffices same : (t.act a).accepted = t.accepted ∧ (t.act a).share = t.share from
      ⟨accepted.trans same.1, share.trans same.2⟩
    cases a with
    | publish e => rw [act_publish, if_neg (by simp [Bus.accepts, closed])]; exact ⟨rfl, rfl⟩
    | close => rw [act_close_closed closed]; exact ⟨rfl, rfl⟩
    | consume count => exact ⟨accepted_act_consume t count, h.share_act_consume count⟩

/-- The consumer gets its share from the front, and stops with the whole of it. -/
theorem got (h : t.Orderly) : t.got <+: t.share ∧ (t.ended = true → t.got = t.share) := by
  refine ⟨List.prefix_append _ _, fun ended => ?_⟩
  rw [share, Bus.events, (h.drained ended).2]
  simp

/-- A consumer that goes on after the bus has been closed comes to the end. -/
theorem ended_act_consume (h : t.Orderly) (closed : t.bus.closed = true) {count : Nat}
    (enough : t.bus.size ≤ count) : (t.act (.consume count)).ended = true := by
  cases ended : t.ended with
  | true => simp [Traffic.act, ended]
  | false =>
    have size := (h.holds ended).size
    rw [closed] at size
    have many : t.bus.events.length < count := Nat.lt_of_lt_of_le (size ▸ Nat.lt_succ_self _) enough
    simp [h.act_consume ended, closed, many]

end Orderly

/-- A bus with a limit holds as much as that. -/
def Full (capacity : Int) (t : Traffic) : Prop := 0 < capacity ∧ capacity ≤ t.bus.size

instance : Decidable (t.Full capacity) := inferInstanceAs (Decidable (_ ∧ _))

/-- A full bus has an event to lose, as long as it is open. -/
theorem Full.exists_oldest (full : t.Full capacity) (queue : t.bus.queue = t.bus.events.map some) :
    ∃ oldest others, t.bus.events = oldest :: others := by
  refine List.exists_cons_of_ne_nil fun empty => ?_
  obtain ⟨limited, most⟩ := full
  rw [Bus.size, queue, empty] at most
  exact Int.not_le.2 limited most

section

variable (capacity acts)

theorem orderly : ((ofCapacity capacity).run acts).Orderly := (Orderly.ofCapacity capacity).run acts

theorem closed_iff : ((ofCapacity capacity).run acts).bus.closed = true ↔ .close ∈ acts :=
  ((Orderly.ofCapacity capacity).bus_run acts).2.trans (or_iff_right Bool.false_ne_true)

theorem isFull_iff_full : ((ofCapacity capacity).run acts).bus.isFull = true ↔
    ((ofCapacity capacity).run acts).Full capacity := by
  rw [isFull_iff, ((Orderly.ofCapacity capacity).bus_run acts).1]
  rfl

theorem accepts_iff : ((ofCapacity capacity).run acts).bus.accepts = true ↔
    .close ∉ acts ∧ ¬ ((ofCapacity capacity).run acts).Full capacity := by
  rw [← closed_iff capacity acts, ← isFull_iff_full capacity acts]
  simp [Bus.accepts]

variable {acts}

theorem queue_of_open (never : .close ∉ acts) :
    let t := (ofCapacity capacity).run acts
    t.bus.closed = false ∧ t.bus.queue = t.bus.events.map some ∧ t.accepted = t.got ++ t.bus.events := by
  intro t
  have alive : t.bus.closed = false := Bool.eq_false_iff.2 fun shut => never ((closed_iff _ _).1 shut)
  have holds := (orderly capacity acts).holds_events alive
  rw [Holds, alive] at holds
  exact ⟨alive, by simpa using holds, (Orderly.ofCapacity capacity).run_of_open rfl rfl never⟩

/-- What the first closing leaves of the queue is the rest of the consumer's share. -/
theorem run_first_close {before : List Act} (never : .close ∉ before) (after : List Act) :
    let c := (ofCapacity capacity).run before
    let t := (ofCapacity capacity).run (before ++ .close :: after)
    t.accepted = c.got ++ c.bus.events ∧
      t.share = c.got ++ if c.bus.isFull then c.bus.events.tail else c.bus.events := by
  intro c t
  have c_orderly : c.Orderly := orderly capacity before
  obtain ⟨alive, -, all⟩ := queue_of_open capacity never
  have run : t = (c.act .close).run after := List.foldl_append
  obtain ⟨accepted, share⟩ := (c_orderly.act .close).run_of_closed (closed_close c.bus) after
  exact ⟨run ▸ accepted.trans all, run ▸ share.trans (c_orderly.share_act_close alive)⟩

variable (acts)

theorem share_sublist : ((ofCapacity capacity).run acts).share.Sublist
    ((ofCapacity capacity).run acts).accepted := by
  by_cases shut : .close ∈ acts
  · obtain ⟨before, after, rfl, never⟩ := List.eq_append_cons_of_mem shut
    obtain ⟨accepted, share⟩ := run_first_close capacity never after
    rw [accepted, share]
    refine List.Sublist.append_left ?_ _
    split
    · exact List.tail_sublist _
    · exact List.Sublist.refl _
  · rw [(queue_of_open capacity shut).2.2]
    exact List.Sublist.refl _

end

/-- An event is accepted if the bus is open and has room for it; once the bus is closed nothing more
happens to it from outside. Accepted events are got in their order, each at most once, and until the bus
is closed those not got are queued. A consumer stops only after the bus has been closed, and then if it
goes on; by then it has got everything, but for the oldest event that was queued when the bus was closed
in case the bus was full. -/
theorem delivered_in_order (capacity : Int) (acts : List Act) :
    let t := (Traffic.ofCapacity capacity).run acts
    (∀ e, (.close ∉ acts ∧ ¬ t.Full capacity → (t.act (.publish e)).accepted = t.accepted ++ [e]) ∧
        (.close ∈ acts ∨ t.Full capacity → t.act (.publish e) = t)) ∧
      (.close ∈ acts → t.act .close = t) ∧
      (0 < capacity → t.bus.size ≤ capacity) ∧
      t.got.Sublist t.accepted ∧
      (.close ∉ acts → ∃ queued, t.bus.queue = queued.map some ∧ t.accepted = t.got ++ queued) ∧
      (t.ended = true → .close ∈ acts) ∧
      (.close ∈ acts → ∀ count, t.bus.size ≤ count → (t.act (.consume count)).ended = true) ∧
      ∀ before after, acts = before ++ .close :: after → .close ∉ before →
        let c := (Traffic.ofCapacity capacity).run before
        ∃ queued, c.bus.queue = queued.map some ∧ t.accepted = c.got ++ queued ∧
          (¬ c.Full capacity → t.got <+: t.accepted ∧ (t.ended = true → t.got = t.accepted)) ∧
          (c.Full capacity → ∃ oldest others, queued = oldest :: others ∧
            t.got <+: c.got ++ others ∧ (t.ended = true → t.got = c.got ++ others)) := by
  intro t
  have t_orderly : t.Orderly := orderly capacity acts
  have closed : t.bus.closed = true ↔ .close ∈ acts := closed_iff capacity acts
  have accepts : t.bus.accepts = true ↔ .close ∉ acts ∧ ¬ t.Full capacity := accepts_iff capacity acts
  refine ⟨fun e => ⟨fun open_ => ?_, fun refused => ?_⟩, fun shut => ?_, ?_, ?_, fun never => ?_, ?_, ?_, ?_⟩
  · rw [act_publish, if_pos (accepts.2 open_)]
  · have refuses : ¬ t.bus.accepts = true := fun kept =>
      refused.elim (accepts.1 kept).1 (accepts.1 kept).2
    rw [act_publish, if_neg refuses]
  · exact act_close_closed (closed.2 shut)
  · have limit : t.bus.capacity = capacity := ((Orderly.ofCapacity capacity).bus_run acts).1
    exact limit ▸ t_orderly.within
  · exact t_orderly.got.1.sublist.trans (share_sublist capacity acts)
  · exact ⟨_, (queue_of_open capacity never).2⟩
  · exact fun ended => closed.1 (t_orderly.drained ended).1
  · exact fun shut count enough => t_orderly.ended_act_consume (closed.2 shut) enough
  · rintro before after rfl never c
    have full : c.bus.isFull = true ↔ c.Full capacity := isFull_iff_full capacity before
    obtain ⟨-, queue, -⟩ := queue_of_open capacity never
    obtain ⟨accepted, share⟩ := run_first_close capacity never after
    have got : t.got <+: t.share ∧ (t.ended = true → t.got = t.share) := t_orderly.got
    refine ⟨c.bus.events, queue, accepted, fun room => ?_, fun crowded => ?_⟩
    · rw [if_neg (mt full.1 room), ← accepted] at share
      exact share ▸ got
    · obtain ⟨oldest, others, queued⟩ := crowded.exists_oldest queue
      rw [if_pos (full.2 crowded), queued, List.tail_cons] at share
      exact ⟨oldest, others, queued, share ▸ got⟩

/-- Closed while it is full, a bus loses the second of the three events it has accepted: the first has
been taken before, and the third is got by going on. -/
theorem delivered_past_full_close :
    let e (name : String) : Event := ⟨none, .other name⟩
    let before := [.publish (e "a"), .publish (e "b"), .publish (e "c"), .consume 1, .publish (e "d")]
    let t := (ofCapacity 2).run (before ++ .close :: [.publish (e "f"), .consume 2])
    t.accepted = [e "a", e "b", e "d"] ∧ t.got = [e "a", e "d"] := by
  intro e before t
  obtain ⟨-, -, -, -, -, -, -, law⟩ :=
    delivered_in_order 2 (before ++ .close :: [.publish (e "f"), .consume 2])
  obtain ⟨queued, queue, accepted, -, lost⟩ := law before _ rfl (by decide)
  obtain ⟨oldest, others, rfl, -, got⟩ := lost (by decide)
  have same : [e "b", e "d"].map some = (oldest :: others).map some := queue
  cases (List.map_inj_right fun _ _ => Option.some.inj).1 same
  exact ⟨accepted, got (by decide)⟩

end Traffic

end LanguageClient.Bus
