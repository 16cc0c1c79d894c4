import LanguageClient.Proofs.World.Fate

/-!
What moves write to backends: the message of the place that a task goes on from, or the notifications
that a session has kept.
-/

namespace LanguageClient

open Schedule

namespace Core

variable {what : BackendId → Value → Prop} {x y z : Core}

/-- Backends get messages of a kind, each after those that it has. -/
def Delivers (what : BackendId → Value → Prop) (x y : Core) : Prop :=
  ∀ b, ∃ sent, (y.inbox b).received = (x.inbox b).received ++ sent ∧ ∀ message ∈ sent, what b message

namespace Delivers

theorem of_received (h : ∀ b, (y.inbox b).received = (x.inbox b).received) : Delivers what x y :=
  fun b => ⟨[], by rw [h, List.append_nil], fun _ none => nomatch none⟩

theorem of_inboxes (h : y.inboxes = x.inboxes) : Delivers what x y :=
  .of_received fun b => by rw [inbox, h, inbox]

theorem trans (h : Delivers what x y) (h' : Delivers what y z) : Delivers what x z := by
  intro b
  obtain ⟨sent, same, all⟩ := h b
  obtain ⟨more, same', all'⟩ := h' b
  refine ⟨sent ++ more, by rw [same', same, List.append_assoc], fun message there => ?_⟩
  exact (List.mem_append.1 there).elim (all message) (all' message)

theorem modify {f : Inbox → Inbox} (kept : ∀ i, (f i).received = i.received) (b : BackendId)
    (same : y.inboxes = x.inboxes.modify b f) : Delivers what x y := by
  refine .of_received fun b' => ?_
  rw [inbox, same]
  rcases World.getD_modify b b' f x.inboxes (Backend.inbox default) with same | ⟨-, same⟩
  · exact congrArg Inbox.received same
  · exact (congrArg Inbox.received same).trans (kept _)

/-- A backend that comes to exist has got nothing yet. -/
theorem concat (same : y.inboxes = x.inboxes ++ [⟨[], false, false⟩]) : Delivers what x y := by
  refine .of_received fun b => ?_
  rw [inbox, same]
  rcases World.getD_concat x.inboxes ⟨[], false, false⟩ (Backend.inbox default) b with same | ⟨rfl, same⟩
  · exact congrArg Inbox.received same
  · rw [same, inbox, List.getD_eq_getElem?_getD, List.getElem?_eq_none (Nat.le_refl _)]
    rfl

theorem send {b : BackendId} {message : Value} (h : what b message) (last : Bool) :
    Delivers what x (x.send b message last) := by
  intro b'
  have known : (x.send b message last).inbox b' = x.inbox b' ∨
      b' = b ∧ (x.send b message last).inbox b' = (x.inbox b').take message last :=
    World.getD_modify b b' (Inbox.take message last) x.inboxes (Backend.inbox default)
  rcases known with same | ⟨rfl, same⟩
  · exact ⟨[], by rw [same, List.append_nil], fun _ none => nomatch none⟩
  · rw [same, Inbox.take]
    split
    · exact ⟨[], (List.append_nil _).symm, fun _ none => nomatch none⟩
    · exact ⟨[message], rfl, List.forall_mem_singleton.2 h⟩

theorem sends {b : BackendId} {messages : List Value} (h : Sends b messages x y)
    (all : ∀ message ∈ messages, what b message) : Delivers what x y := by
  induction h with
  | nil => exact .of_inboxes rfl
  | cons last _ ih =>
    exact (Delivers.send (all _ List.mem_cons_self) last).trans
      (ih fun message there => all message (List.mem_cons_of_mem _ there))

end Delivers

/-- A message is with a backend, or nothing gets to the backend any more. -/
def Reached (b : BackendId) (message : Value) (x : Core) : Prop :=
  message ∈ (x.inbox b).received ∨ (x.inbox b).broken = true

/-- What has reached a backend stays there. -/
def Feeds (x y : Core) : Prop := ∀ b message, x.Reached b message → y.Reached b message

namespace Feeds

theorem of_inboxes (h : y.inboxes = x.inboxes) : Feeds x y := by
  intro b message reached
  rw [Reached, inbox, h]
  exact reached

theorem trans (h : Feeds x y) (h' : Feeds y z) : Feeds x z :=
  fun b message reached => h' b message (h b message reached)

theorem modify {f : Inbox → Inbox} (b : BackendId) (same : y.inboxes = x.inboxes.modify b f)
    (kept : ∀ i message, message ∈ i.received ∨ i.broken = true →
      message ∈ (f i).received ∨ (f i).broken = true) : Feeds x y := by
  intro b' message reached
  rw [Reached, inbox, same]
  rcases World.getD_modify b b' f x.inboxes (Backend.inbox default) with same | ⟨-, same⟩
  · rw [same]
    exact reached
  · rw [same]
    exact kept _ message reached

theorem concat (same : y.inboxes = x.inboxes ++ [⟨[], false, false⟩]) : Feeds x y := by
  intro b message reached
  rw [Reached, inbox, same]
  rcases World.getD_concat x.inboxes ⟨[], false, false⟩ (Backend.inbox default) b with same | ⟨rfl, -⟩
  · rw [same]
    exact reached
  · have none : x.inbox x.inboxes.length = Backend.inbox default := by
      rw [inbox, List.getD_eq_getElem?_getD, List.getElem?_eq_none (Nat.le_refl _)]
      rfl
    rw [Reached, none] at reached
    rcases reached with there | broken
    · cases there
    · cases broken

theorem take {i : Inbox} {message message' : Value} {last : Bool}
    (h : message ∈ i.received ∨ i.broken = true) :
    message ∈ (i.take message' last).received ∨ (i.take message' last).broken = true := by
  rw [Inbox.take]
  split
  · exact h
  · next intact => exact .inl (List.mem_append_left _ (h.resolve_right intact))

theorem send (b : BackendId) (message : Value) (last : Bool) : Feeds x (x.send b message last) :=
  .modify b rfl fun _ _ => take

theorem sends {b : BackendId} {messages : List Value} (h : Sends b messages x y) : Feeds x y := by
  induction h with
  | nil => exact .of_inboxes rfl
  | cons last _ ih => exact (Feeds.send b _ last).trans ih

end Feeds

/-- What is sent to a backend reaches it. -/
theorem reached_send {b : BackendId} (inside : b < x.inboxes.length) (message : Value) (last : Bool) :
    (x.send b message last).Reached b message := by
  have sent : (x.send b message last).inbox b = (x.inbox b).take message last := by
    rw [inbox, inbox, send, List.getD_eq_getElem?_getD, List.getD_eq_getElem?_getD,
      List.getElem?_modify_eq, List.getElem?_eq_getElem inside]
    rfl
  rw [Reached, sent, Inbox.take]
  split
  · next broken => exact .inr broken
  · exact .inl (List.mem_append_right _ (List.mem_singleton_self message))

theorem reached_sends {b : BackendId} {messages : List Value} (h : Sends b messages x y)
    (inside : b < x.inboxes.length) : ∀ message ∈ messages, y.Reached b message := by
  induction h with
  | nil => exact fun _ none => nomatch none
  | @cons message rest x y last later ih =>
    refine List.forall_mem_cons.2 ⟨?_, ih ?_⟩
    · exact Feeds.sends later b message (reached_send inside message last)
    · rw [send, List.length_modify]
      exact inside

end Core

namespace World

variable {may : Frame → Prop} {R : CellId → Prop} {w w' : World}
variable {f : Frame} {begun : List Frame} {o : Outcome Result} {flow : Flow Frame Result} {x : Core}

/-- A step at a place may write a message to a backend. -/
inductive Writes (w : World) : Frame → BackendId → Value → Prop
  | notes {k : ConnectionId} {method : String} {params : Value} :
    Writes w (.connection k (.notify method params)) (w.connection k).backend
      (Connection.notification method params)
  | requests {k : ConnectionId} {method : String} {params : Value} {timeout : Timeout} {id : Nat} :
    Writes w (.connection k (.request method params timeout)) (w.connection k).backend
      (Connection.request id method params)
  | answers {k : ConnectionId} {id : Value} {result : Except Failure Value} :
    Writes w (.connection k (.answerReady id result)) (w.connection k).backend
      (Connection.response id result)
  | flushes {s : SessionId} {k : ConnectionId} {n : String × Value}
    (connected : (w.session s).connection = some k) (kept : n ∈ (w.session s).outbox) :
    Writes w (.session s .initializedSent) (w.connection k).backend
      (Connection.notification n.1 n.2)

theorem Change.delivers (h : Change w f o begun flow x) : Core.Delivers (w.Writes f) w.core x := by
  cases h with
  | notes last => exact .send .notes last
  | requests last => exact .trans (.of_inboxes rfl) (.send .requests last)
  | answers last => exact .send .answers last
  | launches => exact .concat rfl
  | @arrives _ b =>
    exact .modify (f := fun i => { i with spawned := true }) (fun _ => rfl) b rfl
  | @connects _ b =>
    exact .modify (f := fun i => { i with spawned := true }) (fun _ => rfl) b rfl
  | @readies s _ _ _ _ connected _ sends =>
    have written := @Core.Delivers.sends (w.Writes (.session s .initializedSent)) _ _ _ _ sends
      fun message there => by
        obtain ⟨n, kept, rfl⟩ := List.mem_map.1 there
        exact .flushes connected kept
    exact written
  | _ => exact .of_inboxes rfl

theorem Change.feeds (h : Change w f o begun flow x) : Core.Feeds w.core x := by
  cases h with
  | notes | answers => exact .send _ _ _
  | requests last => exact .trans (.of_inboxes rfl) (.send _ _ last)
  | launches => exact .concat rfl
  | @arrives _ b | @connects _ b =>
    exact .modify (f := fun i => { i with spawned := true }) b rfl fun _ _ => id
  | readies _ _ _ sends => exact fun b message reached => Core.Feeds.sends sends b message reached
  | _ => exact .of_inboxes rfl

theorem Writes.aside {current : Option (TaskId × Outcome Result)} {b : BackendId} {message : Value}
    (h : Writes { w with current := current } f b message) : Writes w f b message := by
  cases h with
  | notes => exact .notes
  | requests => exact .requests
  | answers => exact .answers
  | flushes connected kept => exact .flushes connected kept

/-- What a move writes to a backend is written by the step of a task. -/
theorem Move.delivers (m : Move may R w w') :
    Core.Delivers (fun b message => ∃ t f o rest begun flow w₂,
      Strides R w w' t f o rest begun flow w₂ ∧ w.Writes f b message) w.core w'.core := by
  cases m with
  | rests _ _ _ core =>
    rcases core with same | ⟨b, same⟩ | ⟨k, -, same⟩
    · exact .of_inboxes (congrArg Core.inboxes same)
    · exact .modify (f := fun i => { i with broken := true }) (fun _ => rfl) b
        (congrArg Core.inboxes same)
    · exact same ▸ .of_inboxes rfl
  | ends _ _ core | wakes _ _ _ _ core => exact .of_inboxes (congrArg Core.inboxes core)
  | goes runs top taken steps turn lands =>
    subst taken
    rw [lands.aside.core]
    intro b
    obtain ⟨sent, same, all⟩ := turn.change.delivers b
    exact ⟨sent, same, fun message there =>
      ⟨_, _, _, _, _, _, _, ⟨runs, top, steps, turn, lands⟩, (all message there).aside⟩⟩

theorem Move.feeds (m : Move may R w w') : Core.Feeds w.core w'.core := by
  cases m with
  | rests _ _ _ core =>
    rcases core with same | ⟨b, same⟩ | ⟨k, -, same⟩
    · exact .of_inboxes (congrArg Core.inboxes same)
    · exact .modify (f := fun i => { i with broken := true }) b (congrArg Core.inboxes same)
        fun _ _ _ => .inr rfl
    · exact same ▸ .of_inboxes rfl
  | ends _ _ core | wakes _ _ _ _ core => exact .of_inboxes (congrArg Core.inboxes core)
  | goes _ _ taken _ turn lands =>
    subst taken
    rw [lands.aside.core]
    exact turn.change.feeds

end World
end LanguageClient
